import Mathlib.Data.List.Basic
import Mathlib.Tactic.Common
import A9GTracker.SmsRecipient

/-! Which messages are taken for the command. The decoder drops every character that does not
fit a byte and stops at a NUL, and the blanks in front of the command stay in the buffer. -/
namespace A9GTracker
namespace SmsRecognition

open CString Utils Tracker Sms SmsRecipient

/-- The content of a message in one of the two encodings. -/
inductive SmsText
  | ascii (characters : List UInt8)
  | ucs2 (characters : List UInt16)
  deriving DecidableEq

namespace SmsText

def characters : SmsText → List ℕ
  | .ascii s => s.map UInt8.toNat
  | .ucs2 s => s.map UInt16.toNat

def encodeType : SmsText → SmsEncodeType
  | .ascii _ => .ascii
  | .ucs2 _ => .unicode

def contentStr : SmsText → List UInt8
  | .ascii s => s
  | .ucs2 s => s.flatMap fun c => [UInt8.ofNat (c.toNat / 256),UInt8.ofNat (c.toNat % 256)]

end SmsText

/-- Without the blanks around it the text is the command up to letter case; its characters are
those of ASCII. -/
def IsGetLocation (text : List ℕ) : Prop :=
  ∃ s : List UInt8, text = s.map UInt8.toNat ∧ (∀ c ∈ s, c.toNat < 128) ∧
    (trimWhitespace s).map tolower = lit "get location"

def StartsBlank (text : List ℕ) : Prop := ∃ c rest, text = c::rest ∧ (c = 32 ∨ 9 ≤ c ∧ c ≤ 13)

/-- What is left of a text: the characters that fit a byte, up to the first NUL. -/
def visible (text : List ℕ) : List ℕ := (text.filter (· < 256)).takeWhile (· ≠ 0)

/-- The command, and behind it nothing but what `isspace` takes for white space. -/
def IsAnswered (text : List ℕ) : Prop :=
  ∃ word ws : List UInt8, text = (word++ws).map UInt8.toNat ∧
    word.map tolower = lit "get location" ∧ AllBlank ws

/-- A command behind blanks, or a text with a character that is not of ASCII, or with a NUL, of
which the command is left. -/
def Misread (text : List ℕ) : Prop :=
  (IsGetLocation text ∧ StartsBlank text) ∨
  ((∃ c ∈ text, c = 0 ∨ 128 ≤ c) ∧ IsAnswered (visible text))

def HoldsNumber (headerStr phoneNumber : List UInt8) : Prop :=
  NumberForm phoneNumber ∧ BetweenQuotes (cstring headerStr) phoneNumber

/-! ### The comparison -/

/-- The buffer equals the command if and only if its trimmed text does and it does not begin
with a blank. -/
theorem trimInPlace_eq_command {cmd : List UInt8} (h0 : (0 : UInt8) ∉ cmd) :
    strCaseCmp (trimInPlace cmd) (lit "get location") = 0 ↔
      (trimWhitespace cmd).map tolower = lit "get location" ∧
        ∀ c ∈ cmd.head?, isspace c = false := by
  have h0' : (0 : UInt8) ∉ trimInPlace cmd := by
    intro hmem
    rcases List.mem_append.mp hmem with hmem | hmem
    · exact h0 ((List.takeWhile_prefix _).mem hmem)
    · exact h0 (mem_of_mem_trimWhitespace hmem)
  have hlower : (lit "get location").map tolower = lit "get location" := by decide
  rw [strCaseCmp_eq_zero h0' (by decide),hlower,trimInPlace,List.map_append]
  cases cmd with
  | nil => simp
  | cons c cmd =>
    by_cases hc : isspace c = true
    · refine iff_of_false ?_ ?_
      · rw [List.takeWhile_cons_of_pos hc]
        intro h
        have hg : tolower c = 103 := (List.cons.inj h).1
        rw [tolower_of_isspace hc] at hg
        rw [hg] at hc
        exact absurd hc (by decide)
      · intro h
        rw [h.2 c rfl] at hc
        cases hc
    · rw [List.takeWhile_cons_of_neg hc]
      simp [hc]

/-! ### Decoding -/

theorem highByte_eq_zero (c : UInt16) : UInt8.ofNat (c.toNat / 256) = 0 ↔ c.toNat < 256 := by
  rw [← UInt8.toNat_inj,UInt8.toNat_ofNat']
  have hlt := c.toNat_lt
  have hzero : (0 : UInt8).toNat = 0 := rfl
  omega

theorem unicodeCmd_eq {s : List UInt16} {room : ℕ} (h : s.length ≤ room) :
    unicodeCmd (SmsText.ucs2 s).contentStr room =
      (s.filter (·.toNat < 256)).map fun c => UInt8.ofNat c.toNat := by
  induction s generalizing room with
  | nil => rfl
  | cons c s ih =>
    obtain ⟨room,rfl⟩ := Nat.exists_eq_add_of_le' (show 1 ≤ room by simp at h; omega)
    have hs : s.length ≤ room := by simpa using h
    show (if UInt8.ofNat (c.toNat / 256) = 0 then
      UInt8.ofNat (c.toNat % 256)::unicodeCmd (SmsText.ucs2 s).contentStr room
      else unicodeCmd (SmsText.ucs2 s).contentStr (room+1)) = _
    by_cases hc : c.toNat < 256
    · rw [if_pos ((highByte_eq_zero c).mpr hc),ih hs,List.filter_cons_of_pos (by simpa using hc),
        Nat.mod_eq_of_lt hc,List.map_cons]
    · rw [if_neg (fun h => hc ((highByte_eq_zero c).mp h)),ih (by omega),
        List.filter_cons_of_neg (by simpa using hc)]

theorem map_toNat_cstring (s : List UInt8) :
    (cstring s).map UInt8.toNat = (s.map UInt8.toNat).takeWhile (· ≠ 0) := by
  induction s with
  | nil => rfl
  | cons c s ih =>
    by_cases hc : c = 0
    · simp [cstring,hc]
    · have hn : c.toNat ≠ 0 := fun h => hc (UInt8.toNat_inj.mp h)
      have hcons : cstring (c::s) = c::cstring s := by simp [cstring,hc]
      rw [hcons,List.map_cons,List.map_cons,List.takeWhile_cons_of_pos (by simpa using hn),ih]

theorem cmdText_eq {text : SmsText} (h : text.characters.length ≤ 175) :
    ∃ cmd, cmdText text.encodeType text.contentStr = some cmd ∧ (0 : UInt8) ∉ cmd ∧
      cmd.map UInt8.toNat = visible text.characters := by
  cases text with
  | ascii s =>
    have hs : s.length ≤ 175 := by simpa [SmsText.characters] using h
    refine ⟨cstring s,?_,zero_notMem_cstring s,?_⟩
    · show some (cstring (s.take 175)) = _
      rw [List.take_of_length_le hs]
    · have hall : ∀ n ∈ s.map UInt8.toNat, decide (n < 256) = true := by
        intro n hn
        obtain ⟨c,-,rfl⟩ := List.mem_map.mp hn
        exact decide_eq_true c.toNat_lt
      rw [map_toNat_cstring,visible,SmsText.characters,List.filter_eq_self.mpr hall]
  | ucs2 s =>
    have hs : s.length ≤ 175 := by simpa [SmsText.characters] using h
    refine ⟨_,rfl,zero_notMem_cstring _,?_⟩
    have hfilter : ∀ t : List UInt16,
        ((t.filter (·.toNat < 256)).map fun c => UInt8.ofNat c.toNat).map UInt8.toNat =
          (t.map UInt16.toNat).filter (· < 256) := by
      intro t
      induction t with
      | nil => rfl
      | cons c t ih =>
        by_cases hc : c.toNat < 256
        · rw [List.filter_cons_of_pos (by simpa using hc),List.map_cons,List.map_cons,
            List.map_cons,List.filter_cons_of_pos (by simpa using hc),ih,UInt8.toNat_ofNat',
            Nat.mod_eq_of_lt hc]
        · rw [List.filter_cons_of_neg (by simpa using hc),List.map_cons,
            List.filter_cons_of_neg (by simpa using hc),ih]
    rw [map_toNat_cstring,unicodeCmd_eq hs,hfilter,visible,SmsText.characters]

/-! ### Texts -/

theorem map_toNat_inj {s t : List UInt8} : s.map UInt8.toNat = t.map UInt8.toNat ↔ s = t :=
  (List.map_injective_iff.mpr fun _ _ => UInt8.toNat_inj.mp).eq_iff

theorem isGetLocation_map {s : List UInt8} (h : ∀ c ∈ s, c.toNat < 128) :
    IsGetLocation (s.map UInt8.toNat) ↔ (trimWhitespace s).map tolower = lit "get location" := by
  constructor
  · rintro ⟨t,hst,-,ht⟩
    rwa [map_toNat_inj.mp hst]
  · intro hs
    exact ⟨s,rfl,h,hs⟩

theorem startsBlank_map {s : List UInt8} (h : ∀ c ∈ s, c.toNat < 128) :
    StartsBlank (s.map UInt8.toNat) ↔ ∃ c ∈ s.head?, isspace c = true := by
  cases s with
  | nil => simp [StartsBlank]
  | cons c s =>
    have hc := h c (by simp)
    simp only [StartsBlank,List.map_cons,List.cons.injEq,List.head?_cons,Option.mem_def,
      Option.some.injEq,exists_eq_left',isspace_iff]
    constructor
    · rintro ⟨d,rest,⟨rfl,-⟩,hd⟩
      exact hd.imp_right Or.inl
    · intro hblank
      exact ⟨_,_,⟨rfl,rfl⟩,hblank.imp_right fun hd => hd.resolve_right (by omega)⟩

theorem isspace_of_command {word : List UInt8} (h : word.map tolower = lit "get location") :
    ∀ c ∈ word, isspace c = true → tolower c = 32 := by
  intro c hc hblank
  have hmem : tolower c ∈ lit "get location" := by
    rw [← h]
    exact List.mem_map_of_mem hc
  have hblank' : isspace (tolower c) = true := by rwa [tolower_of_isspace hblank]
  have hletters : ∀ b ∈ lit "get location", isspace b = true → b = 32 := by decide +kernel
  exact hletters _ hmem hblank'

theorem trimWhitespace_command {word : List UInt8} (h : word.map tolower = lit "get location") :
    trimWhitespace word = word ∧ ∀ c ∈ word.head?, isspace c = false := by
  have hend : ∀ c ∈ word, tolower c ≠ 32 → isspace c = false := fun c hc hne =>
    Bool.eq_false_iff.2 fun hblank => hne (isspace_of_command h c hc hblank)
  have hhead : ∀ c ∈ word.head?, isspace c = false := by
    intro c hc
    have hfirst := congrArg List.head? h
    rw [List.head?_map,Option.mem_def.1 hc] at hfirst
    refine hend c (List.mem_of_mem_head? hc) ?_
    rw [Option.some.inj hfirst]
    decide
  refine ⟨trimWhitespace_of_ends hhead fun c hc => ?_,hhead⟩
  have hlast := congrArg List.getLast? h
  rw [List.getLast?_map,Option.mem_def.1 hc] at hlast
  refine hend c (List.mem_of_getLast? hc) ?_
  rw [Option.some.inj hlast]
  decide

theorem isAnswered_map (s : List UInt8) :
    IsAnswered (s.map UInt8.toNat) ↔ (trimWhitespace s).map tolower = lit "get location" ∧
      ∀ c ∈ s.head?, isspace c = false := by
  constructor
  · rintro ⟨word,ws,hs,hword,hws⟩
    obtain rfl := map_toNat_inj.mp hs
    obtain ⟨htrim,hhead⟩ := trimWhitespace_command hword
    have hne : word ≠ [] := by
      rintro rfl
      exact absurd hword (by decide)
    rw [trimWhitespace_append_right hws,htrim,List.head?_append_of_ne_nil _ hne]
    exact ⟨hword,hhead⟩
  · rintro ⟨htrim,hhead⟩
    obtain ⟨ws,ws',hws,hws',hs⟩ := exists_blanks_trimWhitespace s
    have hnil : ws = [] := by
      cases ws with
      | nil => rfl
      | cons c ws =>
        have hc := hhead c (by rw [hs]; rfl)
        rw [hws c (by simp)] at hc
        cases hc
    rw [hnil,List.nil_append] at hs
    exact ⟨trimWhitespace s,ws',by rw [← hs],htrim,hws'⟩

theorem ascii_of_isGetLocation {text : List ℕ} (h : IsGetLocation text) :
    ∀ c ∈ text, c ≠ 0 ∧ c < 128 := by
  obtain ⟨s,rfl,hascii,hs⟩ := h
  obtain ⟨ws,ws',hws,hws',hsplit⟩ := exists_blanks_trimWhitespace s
  have hnul : (0 : UInt8) ∉ s := by
    intro hmem
    rw [hsplit,List.mem_append,List.mem_append] at hmem
    rcases hmem with (hmem | hmem) | hmem
    · exact absurd (hws 0 hmem) (by decide)
    · have hlower := List.mem_map_of_mem (f := tolower) hmem
      rw [hs] at hlower
      exact absurd hlower (by decide)
    · exact absurd (hws' 0 hmem) (by decide)
  intro n hn
  obtain ⟨c,hc,rfl⟩ := List.mem_map.mp hn
  refine ⟨fun h0 => ?_,hascii c hc⟩
  obtain rfl : c = 0 := UInt8.toNat_inj.mp h0
  exact hnul hc

theorem visible_eq_self {text : List ℕ} (h : ∀ c ∈ text, c ≠ 0 ∧ c < 128) : visible text = text := by
  have hfilter : text.filter (· < 256) = text :=
    List.filter_eq_self.mpr fun c hc => decide_eq_true ((h c hc).2.trans (by decide))
  rw [visible,hfilter]
  exact List.takeWhile_eq_self_iff.mpr fun c hc => decide_eq_true (h c hc).1

/-- In ASCII the answered texts are the commands without a blank in front. -/
theorem isAnswered_ascii {text : List ℕ} (h : ∀ c ∈ text, c ≠ 0 ∧ c < 128) :
    IsAnswered text ↔ IsGetLocation text ∧ ¬ StartsBlank text := by
  obtain ⟨s,rfl⟩ : ∃ s : List UInt8, text = s.map UInt8.toNat := by
    refine ⟨text.map UInt8.ofNat,?_⟩
    rw [List.map_map]
    refine ((List.map_congr_left fun c hc => ?_).trans (List.map_id text)).symm
    exact Nat.mod_eq_of_lt ((h c hc).2.trans (by decide))
  have hascii : ∀ c ∈ s, c.toNat < 128 := fun c hc => (h _ (List.mem_map_of_mem hc)).2
  rw [isAnswered_map,isGetLocation_map hascii,startsBlank_map hascii]
  simp

/-- What the program recognises is the visible text, without blanks in front. -/
theorem recognised_eq_iff (text : List ℕ) :
    (IsAnswered (visible text) ↔ IsGetLocation text) ↔ ¬ Misread text := by
  unfold Misread
  by_cases hclean : ∀ c ∈ text, c ≠ 0 ∧ c < 128
  · have hno : ¬ ∃ c ∈ text, c = 0 ∨ 128 ≤ c := by
      rintro ⟨c,hc,h | h⟩
      · exact (hclean c hc).1 h
      · exact absurd (hclean c hc).2 (by omega)
    rw [visible_eq_self hclean,isAnswered_ascii hclean]
    simp only [hno,false_and,or_false]
    by_cases hget : IsGetLocation text
    · simp [hget]
    · simp [hget]
  · have hno : ¬ IsGetLocation text := fun h => hclean (ascii_of_isGetLocation h)
    have hhidden : ∃ c ∈ text, c = 0 ∨ 128 ≤ c := by
      push Not at hclean
      obtain ⟨c,hc,h⟩ := hclean
      refine ⟨c,hc,?_⟩
      by_cases h0 : c = 0
      · exact .inl h0
      · exact .inr (h h0)
    simp only [hno,hhidden,false_and,false_or,true_and,iff_false]

/-! ### The reply -/

theorem numberRun_number {phoneNumber : List UInt8} (h : NumberForm phoneNumber)
    (rest : List UInt8) : numberRun (phoneNumber++34::rest) = phoneNumber := by
  have hrun : ∀ digits : List UInt8, (∀ c ∈ digits, isdigit c = true) →
      (digits++34::rest).takeWhile isdigit = digits := by
    intro digits hall
    rw [List.takeWhile_append_of_pos hall,List.takeWhile_cons_of_neg (by decide),List.append_nil]
  obtain ⟨digits,hne,hall,rfl | rfl⟩ := h
  · cases phoneNumber with
    | nil => exact absurd rfl hne
    | cons c digits =>
      rw [List.cons_append,numberRun,if_pos (.inl (hall c (by simp))),
        hrun digits fun d hd => hall d (by simp [hd])]
  · rw [List.cons_append,numberRun,if_pos (.inr rfl),hrun digits hall]

theorem collected_number {headerStr phoneNumber : List UInt8}
    (h : HoldsNumber headerStr phoneNumber) :
    ∃ collected, phoneNumberLoop (cstring headerStr) [] false = some collected ∧
      collected ≠ [] := by
  obtain ⟨hform,pre,rest,hheader,hpre,-⟩ := h
  have hne : phoneNumber ≠ [] := by
    obtain ⟨digits,hdigits,-,rfl | rfl⟩ := hform
    · exact hdigits
    · simp
  have hrun := numberRun_number hform rest
  rw [hheader,phoneNumberLoop_outside hpre,phoneNumberLoop_quote,
    phoneNumberLoop_run (by rw [hrun]),hrun]
  by_cases hlong : 21 < phoneNumber.length
  · rw [if_pos hlong]
    refine ⟨_,rfl,?_⟩
    intro hnil
    have hl := congrArg List.length hnil
    rw [List.length_take,List.length_nil] at hl
    omega
  · rw [if_neg hlong,endOfRun,if_pos (.inr rfl)]
    exact ⟨_,rfl,hne⟩

theorem replies_iff (print6f : FloatVal → List UInt8) (data : GpsTrackerData)
    {headerStr phoneNumber : List UInt8} (hh : HoldsNumber headerStr phoneNumber)
    {text : SmsText} (hlen : text.characters.length ≤ 175) :
    (∃ recipient, smsReceivedCallback print6f data text.encodeType headerStr text.contentStr =
        [sendLocationSms print6f data recipient]) ↔ IsAnswered (visible text.characters) := by
  obtain ⟨cmd,hcmd,h0,hvisible⟩ := cmdText_eq hlen
  obtain ⟨collected,hloop,hne⟩ := collected_number hh
  rw [← hvisible,isAnswered_map,← trimInPlace_eq_command h0]
  simp only [smsReceivedCallback,hcmd,hloop,if_neg hne]
  split_ifs with heq
  · exact iff_of_true ⟨collected,rfl⟩ heq
  · exact iff_of_false (by simp) heq

/-- A message is answered exactly when it is the command if and only if it is not misread. -/
theorem recognised_iff (print6f : FloatVal → List UInt8) (data : GpsTrackerData)
    {headerStr phoneNumber : List UInt8} (hh : HoldsNumber headerStr phoneNumber)
    (text : SmsText) (hlen : text.characters.length ≤ 175) :
    ((∃ recipient, smsReceivedCallback print6f data text.encodeType headerStr text.contentStr =
        [sendLocationSms print6f data recipient]) ↔ IsGetLocation text.characters) ↔
      ¬ Misread text.characters := by
  rw [replies_iff print6f data hh hlen]
  exact recognised_eq_iff text.characters

theorem holdsNumber_sample : HoldsNumber (lit "\"+123\",\"\"") (lit "+123") :=
  ⟨⟨lit "123",by decide,List.all_eq_true.mp (by decide),.inr rfl⟩,[],lit ",\"\"",by decide,
    by decide,by decide⟩

/-- The command with a blank behind it, and with the byte 160. -/
theorem recognised_iff_sample :
    (((∃ recipient, smsReceivedCallback (fun _ => []) trackerDataInit .ascii
        (lit "\"+123\",\"\"") (lit "Get Location ") =
          [sendLocationSms (fun _ => []) trackerDataInit recipient]) ↔
      IsGetLocation ((lit "Get Location ").map UInt8.toNat)) ↔ ¬ Misread ((lit "Get Location ").map UInt8.toNat)) ∧
    (((∃ recipient, smsReceivedCallback (fun _ => []) trackerDataInit .ascii
        (lit "\"+123\",\"\"") (lit "Get Location"++[160]) =
          [sendLocationSms (fun _ => []) trackerDataInit recipient]) ↔
      IsGetLocation ((lit "Get Location"++[160]).map UInt8.toNat)) ↔
      ¬ Misread ((lit "Get Location"++[160]).map UInt8.toNat)) :=
  ⟨recognised_iff (fun _ => []) trackerDataInit holdsNumber_sample
      (.ascii (lit "Get Location ")) (by decide +kernel),
    recognised_iff (fun _ => []) trackerDataInit holdsNumber_sample
      (.ascii (lit "Get Location"++[160])) (by decide +kernel)⟩

/-- A blank in front of the command. -/
theorem leading_blank_missed :
    ¬ ∀ (print6f : FloatVal → List UInt8) (data : GpsTrackerData)
      (headerStr phoneNumber : List UInt8), HoldsNumber headerStr phoneNumber →
      ∀ text : SmsText, text.characters.length ≤ 175 →
        ((∃ recipient, smsReceivedCallback print6f data text.encodeType headerStr
            text.contentStr = [sendLocationSms print6f data recipient]) ↔
          IsGetLocation text.characters) := by
  intro h
  have hiff := h (fun _ => []) trackerDataInit _ _ holdsNumber_sample
    (.ascii (lit " get location")) (by decide)
  rw [replies_iff (fun _ => []) trackerDataInit holdsNumber_sample (by decide)] at hiff
  have hget : IsGetLocation (SmsText.ascii (lit " get location")).characters :=
    (isGetLocation_map (by decide +kernel)).mpr (by decide +kernel)
  have hascii : ∀ c ∈ (SmsText.ascii (lit " get location")).characters, c ≠ 0 ∧ c < 128 := by
    decide
  rw [visible_eq_self hascii,isAnswered_ascii hascii] at hiff
  exact (hiff.mpr hget).2 ⟨32,_,rfl,.inl rfl⟩

end SmsRecognition
end A9GTracker
