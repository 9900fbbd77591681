import Mathlib.Data.List.Basic
import Mathlib.Data.List.Count
import Mathlib.Tactic.Common
import A9GTracker.Runs
import A9GTracker.SentenceSplitting

/-! The slots of the GSV and GSA sentences. A frame is recognised by the number of its call
modulo 256, so the slots do not start again in a frame that comes a multiple of 256 calls after
the last one with a sentence. -/
namespace A9GTracker
namespace SlotRestart

open CString Minmea GpsParse SentenceSplitting

/-! ### One sentence -/

def parseText (st : ParseState) (text : List UInt8) : ParseState := (parseOneNmea st text st.flag).1

def isGsv (text : List UInt8) : Bool := minmeaSentenceId text false = .gsv

def isGsa (text : List UInt8) : Bool := minmeaSentenceId text false = .gsa

theorem parseSelected_slots (st : ParseState) (text : List UInt8) :
    (parseSelected st text).1.flag = st.flag ∧ (parseSelected st text).1.flagOld = st.flagOld ∧
    (parseSelected st text).1.gsvCount =
      st.gsvCount+(if isGsv text ∧ st.gsvCount < 20 then 1 else 0) ∧
    (parseSelected st text).1.gsaCount =
      st.gsaCount+(if isGsa text ∧ st.gsaCount < 2 then 1 else 0) ∧
    (parseSelected st text).1.info.gsv =
      if h : isGsv text = true ∧ st.gsvCount < 20 then
        Function.update st.info.gsv ⟨st.gsvCount,h.2⟩
          (minmeaParseGsv (st.info.gsv ⟨st.gsvCount,h.2⟩) text).1
      else st.info.gsv := by
  cases hid : minmeaSentenceId text false with
  | gsv =>
    by_cases hslot : st.gsvCount < 20
    · simp [parseSelected,isGsv,isGsa,hid,hslot]
    · simp [parseSelected,isGsv,isGsa,hid,hslot]
  | gsa =>
    by_cases hslot : st.gsaCount < 2
    · simp [parseSelected,isGsv,isGsa,hid,hslot]
    · simp [parseSelected,isGsv,isGsa,hid,hslot]
  | _ => simp [parseSelected,isGsv,isGsa,hid]

def restarted (st : ParseState) : ParseState := restartCounts st st.flag

theorem restarted_of_eq {st : ParseState} (h : st.flag = st.flagOld) : restarted st = st := by
  simp [restarted,restartCounts,h]

theorem restarted_of_ne {st : ParseState} (h : st.flag ≠ st.flagOld) :
    (restarted st).gsvCount = 0 ∧ (restarted st).gsaCount = 0 := by
  simp [restarted,restartCounts,h]

theorem restarted_frame (st : ParseState) :
    (restarted st).flag = st.flag ∧ (restarted st).flagOld = st.flag ∧
      (restarted st).info = st.info := by
  unfold restarted restartCounts
  split_ifs with h
  · exact ⟨rfl,rfl,rfl⟩
  · exact ⟨rfl,(not_not.1 h).symm,rfl⟩

theorem parseText_eq (st : ParseState) (text : List UInt8) :
    parseText st text = (parseSelected (restarted st) text).1 := rfl

theorem parseText_flags (st : ParseState) (text : List UInt8) :
    (parseText st text).flag = st.flag ∧ (parseText st text).flagOld = st.flag := by
  obtain ⟨hflag,hold,-⟩ := parseSelected_slots (restarted st) text
  obtain ⟨hflag',hold',-⟩ := restarted_frame st
  exact ⟨hflag.trans hflag',hold.trans hold'⟩

structure InRange (st : ParseState) : Prop where
  gsv : st.gsvCount ≤ 20
  gsa : st.gsaCount ≤ 2

theorem InRange.parseText {st : ParseState} (h : InRange st) (text : List UInt8) :
    InRange (parseText st text) := by
  have hrestarted : InRange (restarted st) := by
    unfold restarted restartCounts
    split_ifs
    · exact ⟨Nat.zero_le _,Nat.zero_le _⟩
    · exact h
  obtain ⟨-,-,hgsv,hgsa,-⟩ := parseSelected_slots (restarted st) text
  have hbounds := And.intro hrestarted.gsv hrestarted.gsa
  constructor
  · rw [parseText_eq,hgsv]
    split_ifs <;> omega
  · rw [parseText_eq,hgsa]
    split_ifs <;> omega

/-! ### One frame -/

def afterTexts (st : ParseState) (texts : List (List UInt8)) : ParseState :=
  Runs.run parseText st texts

theorem gpsParse_eq (st : ParseState) (frame : List UInt8) :
    (gpsParse st frame).1 =
      { afterTexts st (passed frame) with
        flag := ((afterTexts st (passed frame)).flag+1) % 256 } :=
  gpsParse_eq_foldl st frame

theorem afterTexts_concat (st : ParseState) (texts : List (List UInt8)) (text : List UInt8) :
    afterTexts st (texts++[text]) = parseText (afterTexts st texts) text := by
  rw [afterTexts,Runs.run_append]
  rfl

theorem afterTexts_flags (st : ParseState) (texts : List (List UInt8)) :
    (afterTexts st texts).flag = st.flag ∧
      (texts ≠ [] → (afterTexts st texts).flagOld = st.flag) := by
  induction texts using List.reverseRecOn with
  | nil => exact ⟨rfl,fun h => absurd rfl h⟩
  | append_singleton texts text ih =>
    obtain ⟨hflag,hold⟩ := parseText_flags (afterTexts st texts) text
    rw [afterTexts_concat,hflag,hold,ih.1]
    exact ⟨rfl,fun _ => rfl⟩

theorem InRange.afterTexts {st : ParseState} (h : InRange st) (texts : List (List UInt8)) :
    InRange (afterTexts st texts) :=
  Runs.run_invariant (P := fun _ _ => True) InRange (fun _ text hst _ => hst.parseText text) h
    (Runs.everySteps_of_forall fun _ _ => trivial)

/-- In a frame that starts with empty slots the counters are those of its sentences. -/
theorem counts_afterTexts {st : ParseState}
    (h : (restarted st).gsvCount = 0 ∧ (restarted st).gsaCount = 0) (texts : List (List UInt8)) :
    (restarted (afterTexts st texts)).gsvCount = min (texts.countP isGsv) 20 ∧
      (restarted (afterTexts st texts)).gsaCount = min (texts.countP isGsa) 2 := by
  induction texts using List.reverseRecOn with
  | nil => simpa [afterTexts] using h
  | append_singleton texts text ih =>
    obtain ⟨hflag,hold⟩ := parseText_flags (afterTexts st texts) text
    obtain ⟨-,-,hgsv,hgsa,-⟩ := parseSelected_slots (restarted (afterTexts st texts)) text
    rw [afterTexts_concat,restarted_of_eq (hflag.trans hold.symm),parseText_eq,hgsv,hgsa,ih.1,
      ih.2,List.countP_append,List.countP_append,List.countP_singleton,List.countP_singleton]
    constructor
    · cases isGsv text with
      | false => simp
      | true =>
        simp only [true_and,if_true]
        split_ifs <;> omega
    · cases isGsa text with
      | false => simp
      | true =>
        simp only [true_and,if_true]
        split_ifs <;> omega

/-- The slots of one call: empty at its first sentence, never overrun, and filled in the order
of the sentences. -/
structure FrameOk (st : ParseState) (frame : List UInt8) : Prop where
  restart : passed frame ≠ [] → (restarted st).gsvCount = 0 ∧ (restarted st).gsaCount = 0
  range : ∀ texts, texts <+: passed frame → InRange (afterTexts st texts)
  slots : ∀ texts text rest, passed frame = texts++text::rest → isGsv text = true →
    ∀ h : texts.countP isGsv < 20,
    (parseText (afterTexts st texts) text).info.gsv =
      Function.update (afterTexts st texts).info.gsv ⟨texts.countP isGsv,h⟩
        (minmeaParseGsv ((afterTexts st texts).info.gsv ⟨texts.countP isGsv,h⟩) text).1

theorem frameOk_iff {st : ParseState} (hrange : InRange st) (frame : List UInt8) :
    FrameOk st frame ↔
      (passed frame ≠ [] → (restarted st).gsvCount = 0 ∧ (restarted st).gsaCount = 0) := by
  refine ⟨FrameOk.restart,fun hrestart => ⟨hrestart,fun texts _ => hrange.afterTexts texts,?_⟩⟩
  intro texts text rest hpassed hgsv hslot
  have hcount := (counts_afterTexts (hrestart (by rw [hpassed]; simp)) texts).1
  rw [Nat.min_eq_left hslot.le] at hcount
  obtain ⟨-,-,-,-,hinfo⟩ := parseSelected_slots (restarted (afterTexts st texts)) text
  rw [parseText_eq,hinfo,dif_pos ⟨hgsv,by rw [hcount]; exact hslot⟩,(restarted_frame _).2.2]
  simp only [hcount]

/-! ### All calls -/

/-- The state before the `n`-th call of `GPS_Parse`, of which `frames n` is the argument. -/
def calls (frames : ℕ → List UInt8) : ℕ → ParseState
  | 0 => parseInit
  | n+1 => (gpsParse (calls frames n) (frames n)).1

def Stores (frame : List UInt8) : Prop := ∃ text ∈ passed frame, isGsv text = true ∨ isGsa text = true

variable (frames : ℕ → List UInt8)

theorem calls_flag (n : ℕ) : (calls frames n).flag = n % 256 := by
  induction n with
  | zero => rfl
  | succ n ih =>
    rw [calls,gpsParse_eq]
    change ((afterTexts (calls frames n) (passed (frames n))).flag+1) % 256 = _
    rw [(afterTexts_flags _ _).1,ih,Nat.mod_add_mod]

theorem calls_inRange (n : ℕ) : InRange (calls frames n) := by
  induction n with
  | zero => exact ⟨Nat.zero_le _,Nat.zero_le _⟩
  | succ n ih =>
    have hafter := ih.afterTexts (passed (frames n))
    rw [calls,gpsParse_eq]
    exact ⟨hafter.gsv,hafter.gsa⟩

structure LastFrame (i n : ℕ) : Prop where
  before : i < n
  sentence : passed (frames i) ≠ []
  empty : ∀ k, i < k → k < n → passed (frames k) = []

structure Keeps (i : ℕ) (st : ParseState) : Prop where
  flagOld : st.flagOld = i % 256
  gsv : st.gsvCount = min ((passed (frames i)).countP isGsv) 20
  gsa : st.gsaCount = min ((passed (frames i)).countP isGsa) 2

variable {frames}

theorem LastFrame.unique {i j n : ℕ} (hi : LastFrame frames i n) (hj : LastFrame frames j n) :
    i = j := by
  rcases lt_trichotomy i j with h | h | h
  · exact absurd (hi.empty j h hj.before) hj.sentence
  · exact h
  · exact absurd (hj.empty i h hi.before) hi.sentence

theorem calls_keeps {n : ℕ} (h : ∀ m < n, FrameOk (calls frames m) (frames m)) :
    (calls frames n).gsvCount = 0 ∧ (calls frames n).gsaCount = 0 ∧
        (∀ m < n, passed (frames m) = []) ∨
      ∃ i, LastFrame frames i n ∧ Keeps frames i (calls frames n) := by
  induction n with
  | zero => exact Or.inl ⟨rfl,rfl,fun m hm => absurd hm (Nat.not_lt_zero m)⟩
  | succ n ih =>
    by_cases hpassed : passed (frames n) = []
    · have hcall : (gpsParse (calls frames n) (frames n)).1 =
          { calls frames n with flag := ((calls frames n).flag+1) % 256 } := by
        rw [gpsParse_eq,hpassed]
        rfl
      rw [calls,hcall]
      rcases ih fun m hm => h m (by omega) with ⟨hgsv,hgsa,hempty⟩ | ⟨i,hlast,hkeeps⟩
      · refine Or.inl ⟨hgsv,hgsa,fun m hm => ?_⟩
        rcases Nat.lt_succ_iff_lt_or_eq.1 hm with hm | rfl
        · exact hempty m hm
        · exact hpassed
      · refine Or.inr ⟨i,⟨hlast.before.trans (Nat.lt_succ_self n),hlast.sentence,fun k hik hk => ?_⟩,
          ⟨hkeeps.flagOld,hkeeps.gsv,hkeeps.gsa⟩⟩
        rcases Nat.lt_succ_iff_lt_or_eq.1 hk with hk | rfl
        · exact hlast.empty k hik hk
        · exact hpassed
    · refine Or.inr ⟨n,⟨Nat.lt_succ_self n,hpassed,fun k hik hk => by omega⟩,?_⟩
      have hcounts := counts_afterTexts ((h n (Nat.lt_succ_self n)).restart hpassed) (passed (frames n))
      obtain ⟨hflag,hold⟩ := afterTexts_flags (calls frames n) (passed (frames n))
      have hsame := hflag.trans (hold hpassed).symm
      rw [restarted_of_eq hsame] at hcounts
      rw [calls,gpsParse_eq]
      exact ⟨(hold hpassed).trans (calls_flag frames n),hcounts.1,hcounts.2⟩

theorem counts_eq_zero_iff {i : ℕ} {st : ParseState} (h : Keeps frames i st) :
    st.gsvCount = 0 ∧ st.gsaCount = 0 ↔ ¬ Stores (frames i) := by
  have hgsv : st.gsvCount = 0 ↔ (passed (frames i)).countP isGsv = 0 := by
    rw [h.gsv]
    omega
  have hgsa : st.gsaCount = 0 ↔ (passed (frames i)).countP isGsa = 0 := by
    rw [h.gsa]
    omega
  rw [hgsv,hgsa,List.countP_eq_zero,List.countP_eq_zero]
  constructor
  · rintro ⟨hno,hno'⟩ ⟨text,hmem,htext | htext⟩
    · exact hno text hmem htext
    · exact hno' text hmem htext
  · intro hno
    exact ⟨fun text hmem htext => hno ⟨text,hmem,Or.inl htext⟩,
      fun text hmem htext => hno ⟨text,hmem,Or.inr htext⟩⟩

/-- A call restarts the slots unless it comes a multiple of 256 calls after the last frame with
a sentence, and that one has filled a slot. -/
theorem restart_iff {n : ℕ} (h : ∀ m < n, FrameOk (calls frames m) (frames m)) :
    (restarted (calls frames n)).gsvCount = 0 ∧ (restarted (calls frames n)).gsaCount = 0 ↔
      ∀ i, LastFrame frames i n → Stores (frames i) → ¬ 256 ∣ n-i := by
  rcases calls_keeps h with ⟨hgsv,hgsa,hempty⟩ | ⟨i,hlast,hkeeps⟩
  · refine ⟨fun _ i hi => absurd (hempty i hi.before) hi.sentence,fun _ => ?_⟩
    by_cases hflag : (calls frames n).flag = (calls frames n).flagOld
    · rw [restarted_of_eq hflag]
      exact ⟨hgsv,hgsa⟩
    · exact restarted_of_ne hflag
  · have hbefore := hlast.before
    have hdivides : (calls frames n).flag = (calls frames n).flagOld ↔ 256 ∣ n-i := by
      rw [calls_flag,hkeeps.flagOld]
      omega
    constructor
    · intro hzero j hj hstores hdvd
      obtain rfl := hlast.unique hj
      rw [restarted_of_eq (hdivides.2 hdvd),counts_eq_zero_iff hkeeps] at hzero
      exact hzero hstores
    · intro hclear
      by_cases hflag : (calls frames n).flag = (calls frames n).flagOld
      · rw [restarted_of_eq hflag,counts_eq_zero_iff hkeeps]
        exact fun hstores => hclear i hlast hstores (hdivides.1 hflag)
      · exact restarted_of_ne hflag

/-- The slots are right in the first `n` calls exactly when no frame with a sentence comes a
multiple of 256 calls after the last one before it, where that one has filled a slot. -/
theorem slots_restart_iff (frames : ℕ → List UInt8) (n : ℕ) :
    (∀ m < n, FrameOk (calls frames m) (frames m)) ↔
      ∀ i m, m < n → LastFrame frames i m → passed (frames m) ≠ [] → Stores (frames i) →
        ¬ 256 ∣ m-i := by
  induction n with
  | zero => simp
  | succ n ih =>
    constructor
    · intro h i m hm hlast hpassed
      exact (restart_iff fun k hk => h k (by omega)).1 ((h m hm).restart hpassed) i hlast
    · intro hclear
      have hprev := ih.2 fun i m hm => hclear i m (by omega)
      intro m hm
      rcases Nat.lt_succ_iff_lt_or_eq.1 hm with hm | rfl
      · exact hprev m hm
      · refine (frameOk_iff (calls_inRange frames m) (frames m)).2 fun hpassed => ?_
        exact (restart_iff hprev).2 fun i hlast => hclear i m hm hlast hpassed

/-- A GSV sentence, and the same again 256 calls later. -/
def gsvText : List UInt8 := lit "$GPGSV,1,1,01,19,46,346,13\r\n"

def rareFrames (n : ℕ) : List UInt8 := if n % 256 = 0 then gsvText else []

theorem gsv_not_restarted :
    ¬ ∀ (frames : ℕ → List UInt8) (n : ℕ), FrameOk (calls frames n) (frames n) := by
  intro h
  have hpassed : passed gsvText = [gsvText] := by decide +kernel
  have hstores : Stores (rareFrames 0) := by
    refine ⟨gsvText,?_,Or.inl (by decide +kernel)⟩
    rw [rareFrames,if_pos (by decide),hpassed,List.mem_singleton]
  have hsentence : ∀ n, n % 256 = 0 → passed (rareFrames n) ≠ [] := by
    intro n hn
    rw [rareFrames,if_pos hn,hpassed]
    exact List.cons_ne_nil _ _
  have hlast : LastFrame rareFrames 0 256 := by
    refine ⟨by decide,hsentence 0 (by decide),fun k hlow hhigh => ?_⟩
    rw [rareFrames,if_neg (by omega)]
    rfl
  have hrestart := (h rareFrames 256).restart (hsentence 256 (by decide))
  exact (restart_iff fun m _ => h rareFrames m).1 hrestart 0 hlast hstores (by decide)

end SlotRestart
end A9GTracker
