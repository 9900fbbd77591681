import Mathlib.Data.List.Basic
import Mathlib.Data.List.DropRight
import Mathlib.Tactic.Common
import A9GTracker.GpsParse

/-! Which texts `GPS_Parse` passes to `ParseOneNmea`. Its cursor lags behind the end of the
last sentence by all the bytes it has skipped so far, so a sentence is passed again exactly
when one of its last bytes, as many as have been skipped, is a `$`. -/
namespace A9GTracker
namespace SentenceSplitting

open CString GpsParse Search

/-- The texts the loop of `GPS_Parse` passes on, in order. -/
def passedTexts : ℕ → List UInt8 → List (List UInt8)
  | 0, _ => []
  | n+1, nmeas =>
    match strstr nmeas (lit "$") with
    | none => []
    | some index1 =>
      match strstr (nmeas.drop index1) (lit "\r\n") with
      | none => []
      | some length =>
        (nmeas.drop index1).take (length+2)::passedTexts n (nmeas.drop (length+2))

theorem gpsParseLoop_eq_foldl (n : ℕ) (st : ParseState) (nmeas : List UInt8) (retFlag : Bool) :
    (gpsParseLoop n st nmeas retFlag).1 =
      (passedTexts n nmeas).foldl (fun st text => (parseOneNmea st text st.flag).1) st := by
  induction n generalizing st nmeas retFlag with
  | zero => rfl
  | succ n ih =>
    simp only [gpsParseLoop,passedTexts]
    cases hd : strstr nmeas (lit "$") with
    | none => simp only [List.foldl_nil]
    | some index1 =>
      cases hc : strstr (nmeas.drop index1) (lit "\r\n") with
      | none => simp only [hc,List.foldl_nil]
      | some length =>
        simp only [hc,List.foldl_cons]
        exact ih _ _ _

def passed (text : List UInt8) : List (List UInt8) := passedTexts text.length text

theorem gpsParse_eq_foldl (st : ParseState) (nmeas : List UInt8) :
    (gpsParse st nmeas).1 =
      let st' := (passed nmeas).foldl (fun st text => (parseOneNmea st text st.flag).1) st
      { st' with flag := (st'.flag+1) % 256 } := by
  simp only [gpsParse,gpsParseLoop_eq_foldl,passed]

/-- Offset and length of the first text from a `$` through a line end. -/
def firstSentence (text : List UInt8) : Option (ℕ × ℕ) :=
  match find (lit "$") text with
  | none => none
  | some gap => (find (lit "\r\n") (text.drop gap)).map fun length => (gap,length+2)

/-- The sentences found in rounds, each with the number of bytes in front of it. The cursor
of the next round is `advance gap length` bytes further on. -/
def rounds (advance : ℕ → ℕ → ℕ) : ℕ → List UInt8 → List (ℕ × List UInt8)
  | 0, _ => []
  | n+1, text =>
    match firstSentence text with
    | none => []
    | some (gap,length) =>
      (gap,(text.drop gap).take length)::rounds advance n (text.drop (advance gap length))

def sentences (text : List UInt8) : List (ℕ × List UInt8) :=
  rounds (fun gap length => gap+length) text.length text

/-- No sentence has a `$` among its last bytes, as many as precede it outside sentences;
`junk` of these are already counted. -/
def CleanTails : ℕ → List (ℕ × List UInt8) → Prop
  | _, [] => True
  | junk, (gap,sentence)::rest =>
    36 ∉ sentence.rtake (junk+gap) ∧ CleanTails (junk+gap) rest

/-! ### The first sentence -/

abbrev crlf : List UInt8 := lit "\r\n"

theorem lit_dollar : lit "$" = [36] := rfl

def EndsLine (u : List UInt8) : Prop := ∃ v, u <:+ v++crlf

theorem EndsLine.drop {u : List UInt8} (h : EndsLine u) (n : ℕ) : EndsLine (u.drop n) := by
  obtain ⟨v,hv⟩ := h
  exact ⟨v,(List.drop_suffix n u).trans hv⟩

/-- What a first sentence looks like. -/
structure Sentence (text : List UInt8) (gap sentence rest : List UInt8) : Prop where
  text_eq : text = gap++sentence++rest
  gap_clean : 36 ∉ gap
  dollar_mem : 36 ∈ sentence
  crlf_suffix : crlf <:+ sentence
  two_le : 2 ≤ sentence.length

theorem firstSentence_eq_some {text : List UInt8} {g l : ℕ}
    (h : firstSentence text = some (g,l)) :
    ∃ gap sentence rest, Sentence text gap sentence rest ∧ gap.length = g ∧
      sentence.length = l := by
  simp only [firstSentence,lit_dollar] at h
  cases hd : find [36] text with
  | none => simp [hd] at h
  | some i =>
    simp only [hd,Option.map_eq_some_iff,Prod.mk.injEq] at h
    obtain ⟨k,hc,rfl,rfl⟩ := h
    obtain ⟨gap,tail,rfl,rfl,hgap⟩ := find_singleton_eq_some hd
    rw [List.drop_left] at hc
    obtain ⟨a,b,hab,hal⟩ := (find_spec hc).1.eq_append (by decide)
    refine ⟨gap,a++crlf,b,⟨?_,hgap,?_,List.suffix_append a crlf,?_⟩,rfl,?_⟩
    · simp only [hab,List.append_assoc,crlf]
    · have hhead : (a++crlf++b).head? = some 36 := by rw [← hab]; rfl
      cases a with
      | nil => simp [lit] at hhead
      | cons x a =>
        simp only [List.cons_append,List.head?_cons,Option.some.injEq] at hhead
        simp [hhead]
    · simp [lit]
    · rw [List.length_append,hal]
      rfl

theorem firstSentence_append {u : List UInt8} (h : 36 ∉ u) (rest : List UInt8) :
    firstSentence (u++rest) = (firstSentence rest).map fun p => (u.length+p.1,p.2) := by
  have hno : ∀ i < u.length, ¬ Occurs (lit "$") (u++rest) i := by
    intro i hi ho
    have hat : (u++rest)[i+0]? = some 36 := ho.getElem? (j := 0) (by decide)
    rw [Nat.add_zero,List.getElem?_append_left hi] at hat
    exact h (List.mem_of_getElem? hat)
  simp only [firstSentence,find_append_of_not_occurs hno]
  cases find (lit "$") rest with
  | none => rfl
  | some g =>
    have hdrop : (u++rest).drop (u.length+g) = rest.drop g := by
      rw [← List.drop_drop,List.drop_left]
    simp only [Option.map_some,Nat.add_comm g,hdrop,Option.map_map]
    rfl

/-- A `$` in a text that ends a line starts a sentence that lies inside the text. -/
theorem firstSentence_of_mem {u : List UInt8} (h : 36 ∈ u) (hu : EndsLine u)
    (rest : List UInt8) : ∃ g l, firstSentence (u++rest) = some (g,l) ∧ 2 ≤ l ∧ l ≤ u.length := by
  obtain ⟨a,b,rfl,ha⟩ := List.eq_append_cons_of_mem h
  obtain ⟨v,hv⟩ := hu
  have hsuf : 36::b <:+ v++crlf := (List.suffix_append a _).trans hv
  have hcr : crlf <:+ 36::b := by
    have hle : crlf.length ≤ (36::b).length := by
      rcases b with _ | ⟨x,b⟩
      · obtain ⟨w,hw⟩ := hsuf
        have hlast := congrArg List.getLast? hw
        simp [lit] at hlast
      · simp [lit]
    exact List.suffix_of_suffix_length_le (List.suffix_append v crlf) hsuf hle
  obtain ⟨w,hw⟩ := hcr
  have hocc : Occurs crlf (36::b++rest) w.length := by
    rw [← hw,List.append_assoc]
    exact ⟨rest,by simp⟩
  have hlen : w.length+2 = (36::b).length := by
    rw [← hw,List.length_append]
    rfl
  cases hc : find crlf (36::b++rest) with
  | none => exact absurd hocc (find_none hc _)
  | some k =>
    have hk : k ≤ w.length := by
      by_contra hgt
      exact (find_spec hc).2 _ (by omega) hocc
    refine ⟨a.length,k+2,?_,by omega,by rw [List.length_append]; omega⟩
    have hd : find [36] (a++36::b++rest) = some a.length := by
      rw [List.append_assoc]
      exact find_singleton_append ha _
    have hdrop : (a++36::b++rest).drop a.length = 36::b++rest := by
      rw [List.append_assoc,List.drop_left]
    simp only [firstSentence,lit_dollar,hd,hdrop,hc,Option.map_some]

/-! ### Rounds -/

theorem passedTexts_eq_rounds (n : ℕ) (text : List UInt8) :
    passedTexts n text = (rounds (fun _ length => length) n text).map Prod.snd := by
  induction n generalizing text with
  | zero => rfl
  | succ n ih =>
    simp only [passedTexts,rounds,firstSentence,strstr]
    cases find (lit "$") text with
    | none => rfl
    | some gap =>
      simp only
      cases find (lit "\r\n") (text.drop gap) with
      | none => rfl
      | some length => simp only [Option.map_some,List.map_cons,ih]

section
variable {advance : ℕ → ℕ → ℕ}

theorem rounds_fuel (hadv : ∀ gap length, length ≤ advance gap length) (text : List UInt8)
    {n : ℕ} (h : text.length ≤ n) :
    rounds advance n text = rounds advance text.length text := by
  induction n using Nat.strong_induction_on generalizing text with
  | _ n ih =>
    cases n with
    | zero => rw [Nat.le_zero.mp h]
    | succ n =>
      cases text with
      | nil => rfl
      | cons x text =>
        rw [List.length_cons,rounds,rounds]
        cases hf : firstSentence (x::text) with
        | none => rfl
        | some p =>
          obtain ⟨gap,sentence,rest,hs,_,hl⟩ := firstSentence_eq_some hf
          have htwo := hs.two_le
          have hle := hadv p.1 p.2
          have hlt : ((x::text).drop (advance p.1 p.2)).length ≤ text.length := by
            simp only [List.length_drop,List.length_cons]
            omega
          simp only [List.length_cons] at h
          have h1 := ih n (by omega) ((x::text).drop (advance p.1 p.2)) (by omega)
          have h2 := ih text.length (by omega) ((x::text).drop (advance p.1 p.2)) hlt
          simp only [h1,h2]

theorem rounds_none {text : List UInt8} (h : firstSentence text = none) :
    rounds advance text.length text = [] := by
  cases text with
  | nil => rfl
  | cons x text => simp only [List.length_cons,rounds,h]

theorem rounds_some (hadv : ∀ gap length, length ≤ advance gap length) {text : List UInt8}
    {g l : ℕ} (h : firstSentence text = some (g,l)) :
    rounds advance text.length text = (g,(text.drop g).take l)::
      rounds advance (text.drop (advance g l)).length (text.drop (advance g l)) := by
  obtain ⟨gap,sentence,rest,hs,_,hl⟩ := firstSentence_eq_some h
  have htwo := hs.two_le
  have hle := hadv g l
  cases text with
  | nil =>
    have hnil := congrArg List.length hs.text_eq
    simp only [List.length_nil,List.length_append] at hnil
    omega
  | cons x text =>
    rw [List.length_cons,rounds,h]
    have hlt : ((x::text).drop (advance g l)).length ≤ text.length := by
      simp only [List.length_drop,List.length_cons]
      omega
    simp only [rounds_fuel hadv _ hlt]

end

/-! ### How often a sentence is passed -/

theorem passed_none {text : List UInt8} (h : firstSentence text = none) : passed text = [] := by
  rw [passed,passedTexts_eq_rounds,rounds_none h]
  rfl

theorem passed_some {text : List UInt8} {g l : ℕ} (h : firstSentence text = some (g,l)) :
    passed text = (text.drop g).take l::passed (text.drop l) := by
  rw [passed,passedTexts_eq_rounds,rounds_some (fun _ _ => le_rfl) h,List.map_cons,passed,
    passedTexts_eq_rounds]

theorem sentences_none {text : List UInt8} (h : firstSentence text = none) :
    sentences text = [] :=
  rounds_none h

theorem sentences_some {text : List UInt8} {g l : ℕ} (h : firstSentence text = some (g,l)) :
    sentences text = (g,(text.drop g).take l)::sentences (text.drop (g+l)) :=
  rounds_some (fun _ _ => Nat.le_add_left _ _) h

/-- The last bytes of the text through the end of the sentence, as many as precede the
sentence. -/
def leftover (u gap sentence : List UInt8) : List UInt8 :=
  (u++gap++sentence).drop sentence.length

/-- Both sides after the first sentence of `rest`, the cursor standing `u` before it. -/
theorem passed_append {u rest gap sentence rest' : List UInt8} (hu : 36 ∉ u)
    (hf : firstSentence rest = some (gap.length,sentence.length))
    (hs : Sentence rest gap sentence rest') :
    passed (u++rest) = sentence::passed (leftover u gap sentence++rest') ∧
      sentences rest = (gap.length,sentence)::sentences rest' := by
  have htake : (rest.drop gap.length).take sentence.length = sentence := by
    rw [hs.text_eq,List.append_assoc,List.drop_left,List.take_left]
  constructor
  · have hf' := firstSentence_append hu rest
    rw [hf] at hf'
    rw [passed_some hf']
    congr 1
    · rw [← List.drop_drop,List.drop_left,htake]
    · have hle : sentence.length ≤ (u++gap++sentence).length := by
        simp only [List.length_append]
        omega
      rw [hs.text_eq,leftover,← List.drop_append_of_le_length hle]
      simp only [List.append_assoc]
  · rw [sentences_some hf,htake]
    congr 2
    rw [← List.drop_drop]
    nth_rewrite 1 [hs.text_eq]
    rw [List.append_assoc,List.drop_left,List.drop_left]

theorem leftover_endsLine {u gap sentence : List UInt8} (h : crlf <:+ sentence) :
    EndsLine (leftover u gap sentence) := by
  obtain ⟨v,rfl⟩ := h
  refine EndsLine.drop ⟨u++gap++v,?_⟩ _
  rw [List.append_assoc (u++gap)]

/-- A line end in front of the cursor's target costs at least one text per sentence, and one
more when there is a `$` left in front of it. -/
theorem sentences_length_le {u : List UInt8} (hu : EndsLine u) (rest : List UInt8) :
    (sentences rest).length+(if 36 ∈ u then 1 else 0) ≤ (passed (u++rest)).length := by
  induction hm : (u++rest).length using Nat.strong_induction_on generalizing u rest with
  | _ m ih =>
    by_cases hd : 36 ∈ u
    · obtain ⟨g,l,hf,htwo,hl⟩ := firstSentence_of_mem hd hu rest
      have hdrop : (u++rest).drop l = u.drop l++rest := List.drop_append_of_le_length hl
      have hlt : (u.drop l++rest).length < m := by
        rw [← hm,← hdrop,List.length_drop]
        simp only [List.length_append] at hm ⊢
        omega
      have hih := ih _ hlt (hu.drop l) rest rfl
      rw [if_pos hd,passed_some hf,hdrop,List.length_cons]
      omega
    · rw [if_neg hd]
      cases hf : firstSentence rest with
      | none => simp [sentences_none hf]
      | some p =>
        obtain ⟨gap,sentence,rest',hs,hg,hl⟩ := firstSentence_eq_some hf
        obtain ⟨hp,hsent⟩ := passed_append hd (by rw [hf,hg,hl]) hs
        have htwo := hs.two_le
        have hlt : (leftover u gap sentence++rest').length < m := by
          rw [← hm,hs.text_eq]
          simp only [leftover,List.length_append,List.length_drop]
          omega
        have hih := ih _ hlt (leftover_endsLine hs.crlf_suffix) rest' rfl
        rw [hp,hsent,List.length_cons,List.length_cons]
        omega

/-- The bytes the cursor lags behind hold a `$` when the end of the sentence does. -/
theorem mem_leftover {u gap sentence : List UInt8} (hs : 36 ∈ sentence) :
    36 ∈ leftover u gap sentence ↔ 36 ∈ sentence.rtake (u.length+gap.length) := by
  rw [leftover,List.rtake]
  by_cases hle : (u++gap).length ≤ sentence.length
  · have hle' : u.length+gap.length ≤ sentence.length := by simpa using hle
    have hdrop : (u++gap++sentence).drop sentence.length =
        sentence.drop (sentence.length-(u.length+gap.length)) := by
      have hsum : sentence.length = (u++gap).length+(sentence.length-(u.length+gap.length)) := by
        rw [List.length_append]
        omega
      conv_lhs => rw [hsum,← List.drop_drop,List.drop_left]
    rw [hdrop]
  · -- the sentence lies behind the cursor as a whole, its `$` included
    have hlt : sentence.length ≤ (u++gap).length := by omega
    have hzero : sentence.length-(u.length+gap.length) = 0 := by
      rw [List.length_append] at hlt
      omega
    rw [List.drop_append_of_le_length hlt,hzero,List.drop_zero]
    exact iff_of_true (List.mem_append_right _ hs) hs

theorem passed_eq_iff {u : List UInt8} (hu : 36 ∉ u) (rest : List UInt8) :
    passed (u++rest) = (sentences rest).map Prod.snd ↔ CleanTails u.length (sentences rest) := by
  induction hm : rest.length using Nat.strong_induction_on generalizing u rest with
  | _ m ih =>
    cases hf : firstSentence rest with
    | none =>
      have hf' := firstSentence_append hu rest
      rw [hf] at hf'
      simp [sentences_none hf,passed_none hf',CleanTails]
    | some p =>
      obtain ⟨gap,sentence,rest',hs,hg,hl⟩ := firstSentence_eq_some hf
      obtain ⟨hp,hsent⟩ := passed_append hu (by rw [hf,hg,hl]) hs
      have htwo := hs.two_le
      have hmem : 36 ∈ leftover u gap sentence ↔ 36 ∈ sentence.rtake (u.length+gap.length) :=
        mem_leftover hs.dollar_mem
      rw [hp,hsent]
      simp only [List.map_cons,List.cons.injEq,true_and,CleanTails]
      by_cases hd : 36 ∈ leftover u gap sentence
      · have hends : EndsLine (leftover u gap sentence) := leftover_endsLine hs.crlf_suffix
        have hlen := sentences_length_le hends rest'
        rw [if_pos hd] at hlen
        refine iff_of_false ?_ fun h => h.1 (hmem.mp hd)
        intro he
        have := congrArg List.length he
        rw [List.length_map] at this
        omega
      · have hlag : (leftover u gap sentence).length = u.length+gap.length := by
          simp only [leftover,List.length_drop,List.length_append]
          omega
        have hlt : rest'.length < m := by
          rw [← hm,hs.text_eq]
          simp only [List.length_append]
          omega
        rw [ih _ hlt hd rest' rfl,hlag]
        simp [hmem.not.mp hd]

/-- `GPS_Parse` passes every sentence on exactly once if and only if no sentence has a `$`
among its last bytes, as many as the bytes outside sentences that precede it. -/
theorem passed_eq_sentences_iff (text : List UInt8) :
    passed text = (sentences text).map Prod.snd ↔ CleanTails 0 (sentences text) :=
  passed_eq_iff (u := []) (by simp) text

/-- A frame that starts in the middle of a sentence. -/
theorem sentence_passed_twice : ¬ ∀ text : List UInt8, (0 : UInt8) ∉ text →
    passed text = (sentences text).map Prod.snd := by
  intro h
  exact absurd (h (lit "*5C\r\n$A\r\n") (by decide)) (by decide)

example : passed (lit "*5C\r\n$A\r\n") = [lit "$A\r\n",lit "$A\r\n"] := by decide

end SentenceSplitting
end A9GTracker
