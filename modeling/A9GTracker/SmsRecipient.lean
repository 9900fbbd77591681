import Mathlib.Data.List.Basic
import Mathlib.Tactic.Common
import A9GTracker.Sms

/-! To whom the reply goes. All exits of the loop over the header lead to the same send path,
and only one of them has seen the closing quote. -/
namespace A9GTracker
namespace SmsRecipient

open CString Search Utils Tracker Sms

def NumberForm (text : List UInt8) : Prop :=
  ∃ digits, digits ≠ [] ∧ (∀ c ∈ digits, isdigit c = true) ∧ (text = digits ∨ text = 43::digits)

/-- The text between the first two quotes. -/
def BetweenQuotes (header text : List UInt8) : Prop :=
  ∃ pre rest, header = pre++34::(text++34::rest) ∧ 34 ∉ pre ∧ 34 ∉ text

/-- Whatever the message says, there is at most one reply, and it goes to the number between
the first two quotes. -/
def RepliesToSender (print6f : FloatVal → List UInt8) (data : GpsTrackerData)
    (headerStr : List UInt8) : Prop :=
  ∀ encodeType contentStr,
    (smsReceivedCallback print6f data encodeType headerStr contentStr).length ≤ 1 ∧
    ∀ m ∈ smsReceivedCallback print6f data encodeType headerStr contentStr,
      NumberForm m.phoneNumber ∧ BetweenQuotes (cstring headerStr) m.phoneNumber

/-- The number characters `run` behind the first quote and the text `after` them: a run at the
end of the header is empty, one before the closing quote fits and is more than a `+`, and one
before another character does not fill the buffer. -/
def SafeNumber (run : List UInt8) : List UInt8 → Prop
  | [] => run = []
  | c::_ => if c = 34 then run.length ≤ 21 ∧ run ≠ [43] else run.length < 21

def SafeHeader (header : List UInt8) : Prop :=
  ∀ pre tail, header = pre++34::tail → 34 ∉ pre →
    SafeNumber (numberRun tail) (tail.drop (numberRun tail).length)

/-! ### From messages to the collected number -/

theorem callback_spec (print6f : FloatVal → List UInt8) (data : GpsTrackerData)
    (encodeType : SmsEncodeType) (headerStr contentStr : List UInt8) :
    smsReceivedCallback print6f data encodeType headerStr contentStr = [] ∨
    ∃ phoneNumber, phoneNumberLoop (cstring headerStr) [] false = some phoneNumber ∧
      phoneNumber ≠ [] ∧
      smsReceivedCallback print6f data encodeType headerStr contentStr =
        [sendLocationSms print6f data phoneNumber] := by
  unfold smsReceivedCallback
  cases cmdText encodeType contentStr with
  | none => exact .inl rfl
  | some cmd =>
    cases hloop : phoneNumberLoop (cstring headerStr) [] false with
    | none => exact .inl rfl
    | some phoneNumber =>
      by_cases hempty : phoneNumber = []
      · exact .inl (if_pos hempty)
      · by_cases hcmd : strCaseCmp (trimInPlace cmd) (lit "get location") = 0
        · refine .inr ⟨phoneNumber,rfl,hempty,?_⟩
          simp only [if_neg hempty,if_pos hcmd]
        · left
          simp only [if_neg hempty,if_neg hcmd]

theorem callback_command (print6f : FloatVal → List UInt8) (data : GpsTrackerData)
    {headerStr phoneNumber : List UInt8}
    (h : phoneNumberLoop (cstring headerStr) [] false = some phoneNumber)
    (hne : phoneNumber ≠ []) :
    smsReceivedCallback print6f data .ascii headerStr (lit "get location") =
      [sendLocationSms print6f data phoneNumber] := by
  have hcmd : cmdText .ascii (lit "get location") = some (lit "get location") := by decide
  have heq : strCaseCmp (trimInPlace (lit "get location")) (lit "get location") = 0 := by decide
  simp only [smsReceivedCallback,hcmd,h,if_neg hne,if_pos heq]

theorem repliesToSender_iff (print6f : FloatVal → List UInt8) (data : GpsTrackerData)
    (headerStr : List UInt8) :
    RepliesToSender print6f data headerStr ↔
      ∀ phoneNumber, phoneNumberLoop (cstring headerStr) [] false = some phoneNumber →
        phoneNumber ≠ [] →
        NumberForm phoneNumber ∧ BetweenQuotes (cstring headerStr) phoneNumber := by
  constructor
  · intro h phoneNumber hloop hne
    have hm := (h .ascii (lit "get location")).2 (sendLocationSms print6f data phoneNumber)
      (by rw [callback_command print6f data hloop hne]; exact List.mem_cons_self)
    rwa [sendLocationSms_phoneNumber] at hm
  · intro h encodeType contentStr
    rcases callback_spec print6f data encodeType headerStr contentStr with
      hnil | ⟨phoneNumber,hloop,hne,hsend⟩
    · rw [hnil]
      exact ⟨by simp,by simp⟩
    · rw [hsend]
      refine ⟨by simp,fun m hm => ?_⟩
      rw [List.mem_singleton.mp hm,sendLocationSms_phoneNumber]
      exact h phoneNumber hloop hne

/-! ### The run behind the quote -/

theorem numberRun_no_quote (tail : List UInt8) : 34 ∉ numberRun tail := by
  intro hmem
  cases tail with
  | nil => exact List.not_mem_nil hmem
  | cons c tail =>
    rw [numberRun] at hmem
    split_ifs at hmem with hc
    · rcases List.mem_cons.mp hmem with rfl | hmem
      · exact absurd hc (by decide)
      · exact absurd (List.mem_takeWhile_imp hmem) (by decide)
    · exact List.not_mem_nil hmem

theorem numberForm_run {tail : List UInt8} (hne : numberRun tail ≠ []) :
    NumberForm (numberRun tail) ↔ numberRun tail ≠ [43] := by
  constructor
  · rintro ⟨digits,hdigits,hall,h | h⟩ hplus
    · rw [← h,hplus] at hall
      exact absurd (hall 43 (by simp)) (by decide)
    · rw [hplus,List.cons.injEq] at h
      exact hdigits h.2.symm
  · intro hplus
    cases tail with
    | nil => exact absurd rfl hne
    | cons c tail =>
      have hc : isdigit c = true ∨ c = 43 := by
        by_contra hno
        exact hne (if_neg hno)
      have hrun : numberRun (c::tail) = c::tail.takeWhile isdigit := if_pos hc
      have hdigits : ∀ d ∈ tail.takeWhile isdigit, isdigit d = true := fun d hd =>
        List.mem_takeWhile_imp hd
      rw [hrun] at hplus ⊢
      by_cases hdigit : isdigit c = true
      · exact ⟨_,by simp,List.forall_mem_cons.mpr ⟨hdigit,hdigits⟩,.inl rfl⟩
      · obtain rfl := hc.resolve_left hdigit
        refine ⟨_,?_,hdigits,.inr rfl⟩
        intro hnil
        exact hplus (by rw [hnil])

theorem betweenQuotes_iff {pre : List UInt8} (hpre : 34 ∉ pre) (tail text : List UInt8) :
    BetweenQuotes (pre++34::tail) text ↔ 34 ∉ text ∧ ∃ rest, tail = text++34::rest := by
  constructor
  · rintro ⟨pre',rest,h,hpre',htext⟩
    obtain ⟨-,htail⟩ := append_cons_inj hpre hpre' h
    exact ⟨htext,rest,htail⟩
  · rintro ⟨htext,rest,rfl⟩
    exact ⟨pre,rest,rfl,hpre,htext⟩

/-- The number that is collected is the one between the quotes exactly for a safe number. -/
theorem collected_iff {pre : List UInt8} (hpre : 34 ∉ pre) (tail : List UInt8) :
    (∀ phoneNumber, phoneNumberLoop tail [] true = some phoneNumber → phoneNumber ≠ [] →
        NumberForm phoneNumber ∧ BetweenQuotes (pre++34::tail) phoneNumber) ↔
      SafeNumber (numberRun tail) (tail.drop (numberRun tail).length) := by
  obtain ⟨after,hafter⟩ := numberRun_begins tail
  have hquote := numberRun_no_quote tail
  have hform : numberRun tail ≠ [] → (NumberForm (numberRun tail) ↔ numberRun tail ≠ [43]) :=
    numberForm_run
  have hdrop : tail.drop (numberRun tail).length = after :=
    (congrArg (List.drop _) hafter.symm).trans List.drop_left
  rw [hdrop,phoneNumberLoop_run hafter.symm]
  simp only [betweenQuotes_iff hpre]
  generalize numberRun tail = run at hafter hquote hform
  subst hafter
  by_cases hlong : 21 < run.length
  · -- the number is cut, so it does not end at the quote
    rw [if_pos hlong]
    refine iff_of_false ?_ ?_
    · intro h
      have hne : run.take 21 ≠ [] := by
        intro hnil
        have hl := congrArg List.length hnil
        rw [List.length_take,List.length_nil] at hl
        omega
      obtain ⟨-,-,rest,hrest⟩ := h _ rfl hne
      have h21 := congrArg (fun l => l[21]?) hrest
      simp only [List.getElem?_append_left hlong] at h21
      rw [List.getElem?_append_right (List.length_take_le 21 run)] at h21
      have hl : (run.take 21).length = 21 := by
        rw [List.length_take]
        omega
      rw [hl] at h21
      exact hquote (List.mem_of_getElem? h21)
    · cases after with
      | nil =>
        rintro rfl
        simp at hlong
      | cons c after =>
        rw [SafeNumber]
        split_ifs
        · omega
        · omega
  · rw [if_neg hlong]
    cases after with
    | nil =>
      simp only [endOfRun,SafeNumber,Option.some.injEq,List.append_nil]
      constructor
      · intro h
        by_contra hne
        obtain ⟨-,-,rest,hrest⟩ := h run rfl hne
        have hl := congrArg List.length hrest
        simp at hl
      · rintro rfl phoneNumber rfl hne
        exact absurd rfl hne
    | cons c after =>
      simp only [endOfRun,SafeNumber]
      by_cases hc : c = 34
      · subst hc
        rw [if_pos (.inr rfl),if_pos rfl]
        simp only [Option.some.injEq]
        constructor
        · intro h
          refine ⟨by omega,?_⟩
          intro hplus
          have hne : run ≠ [] := by simp [hplus]
          exact (hform hne).mp (h run rfl hne).1 hplus
        · rintro ⟨-,hplus⟩ phoneNumber rfl hne
          exact ⟨(hform hne).mpr hplus,hquote,after,rfl⟩
      · rw [if_neg hc]
        by_cases hfull : run.length = 21
        · rw [if_pos (.inl hfull)]
          refine iff_of_false ?_ (by omega)
          intro h
          have hne : run ≠ [] := by
            rintro rfl
            simp at hfull
          obtain ⟨-,-,rest,hrest⟩ := h run rfl hne
          exact hc (List.cons.inj (List.append_cancel_left hrest)).1
        · rw [if_neg (by simp [hfull,hc])]
          exact iff_of_true (by simp) (by omega)

/-- The replies of a header go to its sender if and only if its number is safe. -/
theorem repliesToSender_iff_safe (print6f : FloatVal → List UInt8) (data : GpsTrackerData)
    (headerStr : List UInt8) :
    RepliesToSender print6f data headerStr ↔ SafeHeader (cstring headerStr) := by
  rw [repliesToSender_iff]
  by_cases hquote : 34 ∈ cstring headerStr
  · obtain ⟨pre,tail,hsplit,hpre⟩ := List.eq_append_cons_of_mem hquote
    rw [hsplit,phoneNumberLoop_outside hpre,phoneNumberLoop_quote,collected_iff hpre]
    constructor
    · intro h pre' tail' heq hpre'
      obtain ⟨-,rfl⟩ := append_cons_inj hpre hpre' heq
      exact h
    · intro h
      exact h pre tail rfl hpre
  · refine iff_of_true ?_ ?_
    · intro phoneNumber hloop hne
      have hout := phoneNumberLoop_outside hquote []
      rw [List.append_nil,hloop] at hout
      exact absurd (Option.some.inj hout) hne
    · intro pre tail heq
      exact absurd (by simp [heq]) hquote

/-- A number that is cut off with the header. -/
theorem unterminated_number :
    ¬ ∀ (print6f : FloatVal → List UInt8) (data : GpsTrackerData) (headerStr : List UInt8),
      RepliesToSender print6f data headerStr := by
  intro h
  have hsend := (repliesToSender_iff (fun _ => []) trackerDataInit (lit "\"+123")).mp
    (h (fun _ => []) trackerDataInit (lit "\"+123")) (lit "+123") (by decide) (by decide)
  obtain ⟨pre,rest,heq,-,-⟩ := hsend.2
  have hcount := congrArg (List.count 34) heq
  simp only [List.count_append,List.count_cons_self] at hcount
  have hone : (cstring (lit "\"+123")).count 34 = 1 := by decide
  omega

end SmsRecipient
end A9GTracker
