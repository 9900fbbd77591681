import Mathlib.Data.List.Infix
import Mathlib.Data.List.Nodup
import Mathlib.Tactic.Common

/-! Searching a list for a pattern: the first occurrence, and the one-pass matcher
that falls back to the first symbol of the pattern on a mismatch. -/
namespace A9GTracker
namespace Search

variable {α : Type}

def Occurs (p xs : List α) (i : ℕ) : Prop := p <+: xs.drop i

theorem occurs_zero {p xs : List α} : Occurs p xs 0 ↔ p <+: xs := by
  simp [Occurs]

theorem occurs_cons_succ {p xs : List α} {x : α} {i : ℕ} :
    Occurs p (x::xs) (i+1) ↔ Occurs p xs i := by
  simp [Occurs]

theorem occurs_drop {p xs : List α} {n i : ℕ} :
    Occurs p (xs.drop n) i ↔ Occurs p xs (n+i) := by
  simp [Occurs, List.drop_drop]

theorem Occurs.add_length_le {p xs : List α} {i : ℕ} (hp : p ≠ []) (h : Occurs p xs i) :
    i+p.length ≤ xs.length := by
  have hl := h.length_le
  have hpos := List.length_pos_iff.mpr hp
  simp only [List.length_drop] at hl
  omega

theorem Occurs.getElem? {p xs : List α} {i j : ℕ} (h : Occurs p xs i) (hj : j < p.length) :
    xs[i+j]? = p[j]? := by
  obtain ⟨t, ht⟩ := h
  have he : (xs.drop i)[j]? = (p++t)[j]? := by rw [ht]
  rwa [List.getElem?_drop, List.getElem?_append_left hj] at he

theorem Occurs.extend {p xs ys : List α} {i : ℕ} (h : xs <+: ys) (ho : Occurs p xs i) :
    Occurs p ys i :=
  List.IsPrefix.trans ho (h.drop i)

theorem Occurs.eq_append {p xs : List α} {i : ℕ} (hp : p ≠ []) (h : Occurs p xs i) :
    ∃ a b, xs = a++p++b ∧ a.length = i := by
  have hl := h.add_length_le hp
  obtain ⟨b,hb⟩ := h
  refine ⟨xs.take i,b,?_,by simp; omega⟩
  rw [List.append_assoc,hb,List.take_append_drop]

/-- Where a match is under way, no earlier start is possible inside it. -/
theorem not_occurs_take {p ys : List α} (hp : p.Nodup) {k i : ℕ} (hk : k < p.length)
    (h0 : 0 < i) (hi : i < k) : ¬ Occurs p (p.take k++ys) i := by
  intro ho
  have hat := ho.getElem? (j := 0) (by omega)
  rw [Nat.add_zero, List.getElem?_append_left (by simp; omega), List.getElem?_take_of_lt hi] at hat
  rw [List.getElem?_eq_getElem (by omega), List.getElem?_eq_getElem (by omega)] at hat
  have he := (hp.getElem_inj_iff).mp (Option.some.inj hat)
  omega

theorem not_occurs_take_zero {p ys : List α} {y : α} {k : ℕ} (hk : k < p.length)
    (hy : p[k]? ≠ some y) : ¬ Occurs p (p.take k++y::ys) 0 := by
  intro ho
  have hat := ho.getElem? (j := k) hk
  have hlen : (p.take k).length = k := by simp; omega
  rw [Nat.zero_add, List.getElem?_append_right (by omega)] at hat
  simp only [hlen, Nat.sub_self, List.getElem?_cons_zero] at hat
  exact hy hat.symm

theorem not_occurs_take_self {p ys : List α} {y : α} {k : ℕ} (hk : k < p.length)
    (hy : p[0]? ≠ some y) : ¬ Occurs p (p.take k++y::ys) k := by
  intro ho
  have hat := ho.getElem? (j := 0) (by omega)
  have hlen : (p.take k).length = k := by simp; omega
  rw [Nat.add_zero, List.getElem?_append_right (by omega)] at hat
  simp only [hlen, Nat.sub_self, List.getElem?_cons_zero] at hat
  exact hy hat.symm

theorem take_append_of_match {p ys : List α} {y : α} {k : ℕ} (hk : k < p.length)
    (hy : p[k]? = some y) : p.take k++y::ys = p.take (k+1)++ys := by
  rw [List.getElem?_eq_getElem hk] at hy
  rw [List.append_cons, ← Option.some.inj hy, List.take_append_getElem hk]

variable [DecidableEq α]

instance (p xs : List α) (i : ℕ) : Decidable (Occurs p xs i) :=
  inferInstanceAs (Decidable (p <+: xs.drop i))

def find (p : List α) : List α → Option ℕ
  | [] => if p = [] then some 0 else none
  | x::xs => if p <+: x::xs then some 0 else (find p xs).map (·+1)

theorem find_spec {p xs : List α} {i : ℕ} (h : find p xs = some i) :
    Occurs p xs i ∧ ∀ j < i, ¬ Occurs p xs j := by
  induction xs generalizing i with
  | nil =>
    simp only [find] at h
    split_ifs at h with hp
    obtain rfl := Option.some.inj h
    simp [Occurs, hp]
  | cons x xs ih =>
    simp only [find] at h
    split_ifs at h with hp
    · obtain rfl := Option.some.inj h
      exact ⟨occurs_zero.mpr hp, by simp⟩
    · obtain ⟨k, hk, rfl⟩ := Option.map_eq_some_iff.mp h
      obtain ⟨ho, hmin⟩ := ih hk
      refine ⟨occurs_cons_succ.mpr ho, ?_⟩
      intro j hj
      cases j with
      | zero => exact fun h0 => hp (occurs_zero.mp h0)
      | succ j => exact fun hs => hmin j (by omega) (occurs_cons_succ.mp hs)

theorem find_none {p xs : List α} (h : find p xs = none) (i : ℕ) : ¬ Occurs p xs i := by
  induction xs generalizing i with
  | nil =>
    simp only [find] at h
    split_ifs at h with hp
    simpa [Occurs] using hp
  | cons x xs ih =>
    simp only [find] at h
    split_ifs at h with hp
    have hn := Option.map_eq_none_iff.mp h
    cases i with
    | zero => exact fun h0 => hp (occurs_zero.mp h0)
    | succ i => exact fun hs => ih hn i (occurs_cons_succ.mp hs)

theorem find_eq_some_of_first {p xs : List α} {i : ℕ} (ho : Occurs p xs i)
    (hmin : ∀ j < i, ¬ Occurs p xs j) : find p xs = some i := by
  cases hf : find p xs with
  | none => exact absurd ho (find_none hf i)
  | some k =>
    obtain ⟨hk, hkmin⟩ := find_spec hf
    have h1 : ¬ k < i := fun hlt => hmin k hlt hk
    have h2 : ¬ i < k := fun hlt => hkmin i hlt ho
    congr 1
    omega

theorem find_append_of_not_occurs {p xs ys : List α}
    (h : ∀ i < xs.length, ¬ Occurs p (xs++ys) i) :
    find p (xs++ys) = (find p ys).map (·+xs.length) := by
  induction xs with
  | nil => simp
  | cons x xs ih =>
    have h0 : ¬ p <+: x::(xs++ys) := fun hp => h 0 (by simp) (occurs_zero.mpr hp)
    have ht : ∀ i < xs.length, ¬ Occurs p (xs++ys) i := by
      intro i hi ho
      exact h (i+1) (by simpa using hi) (occurs_cons_succ.mpr ho)
    simp only [List.cons_append, find, h0, if_false, ih ht, Option.map_map, List.length_cons]
    congr 1

theorem find_append_of_some {p xs : List α} {i : ℕ} (hp : p ≠ []) (h : find p xs = some i)
    (ys : List α) : find p (xs++ys) = some i := by
  obtain ⟨ho,hmin⟩ := find_spec h
  have hl := ho.add_length_le hp
  have hdrop : ∀ j ≤ i, (xs++ys).drop j = xs.drop j++ys := fun j hj =>
    List.drop_append_of_le_length (by omega)
  apply find_eq_some_of_first
  · rw [Occurs,hdrop i le_rfl]
    exact ho.trans (List.prefix_append _ _)
  · intro j hj hoj
    refine hmin j hj ?_
    rw [Occurs,hdrop j hj.le] at hoj
    exact List.prefix_of_prefix_length_le hoj (List.prefix_append _ _)
      (by rw [List.length_drop]; omega)

/-- A pattern without repeated symbols does not reach from clean symbols into its own
occurrence. -/
theorem find_append_of_begins {p pre ys : List α} (hp : p.Nodup) (hne : p ≠ [])
    (hclean : ∀ i, ¬ Occurs p pre i) (hy : p <+: ys) : find p (pre++ys) = some pre.length := by
  have hpos := List.length_pos_iff.mpr hne
  apply find_eq_some_of_first
  · rwa [Occurs,List.drop_left]
  · intro i hi ho
    by_cases hfit : i+p.length ≤ pre.length
    · refine hclean i ?_
      rw [Occurs,List.drop_append_of_le_length hi.le] at ho
      exact List.prefix_of_prefix_length_le ho (List.prefix_append _ _)
        (by rw [List.length_drop]; omega)
    · -- the symbol behind `pre` would stand in the pattern twice
      have hat := ho.getElem? (j := pre.length-i) (by omega)
      have hy0 := (show Occurs p (pre++ys) pre.length by rwa [Occurs,List.drop_left]).getElem?
        (j := 0) hpos
      rw [show i+(pre.length-i) = pre.length+0 by omega,hy0] at hat
      rw [List.getElem?_eq_getElem hpos,List.getElem?_eq_getElem (by omega)] at hat
      have he := (hp.getElem_inj_iff).mp (Option.some.inj hat)
      omega

/-! ### Searching for one symbol -/

/-- What is found in a beginning of the text is not found earlier in the text. -/
theorem find_le_of_extend {p xs ys : List α} {i j : ℕ} (h : xs <+: ys) (hj : find p xs = some j)
    (hi : find p ys = some i) : i ≤ j := by
  by_contra hlt
  exact (find_spec hi).2 j (by omega) ((find_spec hj).1.extend h)

theorem find_singleton_eq_none {c : α} {xs : List α} : find [c] xs = none ↔ c ∉ xs := by
  induction xs with
  | nil => simp [find]
  | cons x xs ih =>
    simp only [find,List.cons_prefix_cons,List.nil_prefix,and_true,List.mem_cons,not_or]
    by_cases hx : c = x
    · simp [hx]
    · simp [hx,ih]

theorem find_singleton_append {c : α} {a : List α} (h : c ∉ a) (b : List α) :
    find [c] (a++c::b) = some a.length := by
  induction a with
  | nil => simp [find]
  | cons x a ih =>
    simp only [List.mem_cons,not_or] at h
    simp only [List.cons_append,find,List.cons_prefix_cons,h.1,false_and,if_false,ih h.2]
    rfl

theorem append_cons_inj {c : α} {a a' b b' : List α} (ha : c ∉ a) (ha' : c ∉ a')
    (h : a++c::b = a'++c::b') : a = a' ∧ b = b' := by
  have h1 := find_singleton_append ha b
  have h2 := find_singleton_append ha' b'
  rw [h,h2] at h1
  have hl : a.length = a'.length := (Option.some.inj h1).symm
  obtain ⟨he,ht⟩ := List.append_inj h hl
  exact ⟨he,(List.cons.inj ht).2⟩

theorem find_singleton_eq_some {c : α} {xs : List α} {i : ℕ} (h : find [c] xs = some i) :
    ∃ a b, xs = a++c::b ∧ a.length = i ∧ c ∉ a := by
  have hmem : c ∈ xs := by
    by_contra hno
    simp [find_singleton_eq_none.mpr hno] at h
  obtain ⟨a,b,rfl,ha⟩ := List.eq_append_cons_of_mem hmem
  rw [find_singleton_append ha] at h
  exact ⟨a,b,rfl,Option.some.inj h,ha⟩

/-! ### The one-pass matcher -/

/-- One pass over the list with `k` symbols of the pattern matched so far. After a
mismatch the same symbol is compared once more, with the first one of the pattern.
The result is the start of the match, counted from the first matched symbol. -/
def scan (p : List α) : List α → ℕ → Option ℕ
  | [], _ => none
  | y::ys, k =>
    if p[k]? = some y then
      if k+1 = p.length then some 0 else scan p ys (k+1)
    else if p[0]? = some y then
      if 1 = p.length then some k else (scan p ys 1).map (·+k)
    else (scan p ys 0).map (·+(k+1))

/-- Mismatch on the first symbol of the pattern: the match restarts there. -/
theorem find_restart {p ys : List α} (hp : p.Nodup) {y : α} {k : ℕ} (hk : k < p.length)
    (hy : p[k]? ≠ some y) : find p (p.take k++y::ys) = (find p (y::ys)).map (·+k) := by
  have hlen : (p.take k).length = k := by simp; omega
  have hno : ∀ i < (p.take k).length, ¬ Occurs p (p.take k++y::ys) i := by
    intro i hi
    rw [hlen] at hi
    rcases Nat.eq_zero_or_pos i with rfl | hpos
    · exact not_occurs_take_zero hk hy
    · exact not_occurs_take hp hk hpos hi
  rw [find_append_of_not_occurs hno, hlen]

theorem find_reset {p ys : List α} (hp : p.Nodup) {y : α} {k : ℕ} (hk : k < p.length)
    (hy : p[k]? ≠ some y) (h0 : p[0]? ≠ some y) :
    find p (p.take k++y::ys) = (find p ys).map (·+(k+1)) := by
  have hno : ¬ p <+: y::ys := fun h =>
    not_occurs_take_self (k := 0) (by omega) h0 (occurs_zero.mpr h)
  rw [find_restart hp hk hy, find, if_neg hno, Option.map_map]
  congr 1
  funext i
  simp only [Function.comp_apply]
  omega

/-- For a pattern without repeated symbols the one-pass matcher is exact. -/
theorem scan_eq_find {p : List α} (hp : p.Nodup) (ys : List α) (k : ℕ) (hk : k < p.length) :
    scan p ys k = find p (p.take k++ys) := by
  induction ys generalizing k with
  | nil =>
    rw [scan, List.append_nil]
    cases hf : find p (p.take k) with
    | none => rfl
    | some i =>
      have hl := (find_spec hf).1.add_length_le (List.ne_nil_of_length_pos (by omega))
      simp only [List.length_take] at hl
      omega
  | cons y ys ih =>
    simp only [scan]
    split_ifs with hy hlast h0 hone
    · rw [take_append_of_match hk hy, hlast, List.take_length]
      exact (find_eq_some_of_first (occurs_zero.mpr (List.prefix_append _ _)) (by simp)).symm
    · rw [ih (k+1) (by omega), take_append_of_match hk hy]
    · -- a pattern of one symbol: `k` is 0, and the symbol both is and is not the first one
      have hk0 : k = 0 := by omega
      subst hk0
      exact absurd h0 hy
    · rw [ih 1 (by omega), find_restart hp hk hy]
      have h1 : p.take 0++y::ys = p.take 1++ys := take_append_of_match (by omega) h0
      rw [List.take_zero, List.nil_append] at h1
      rw [h1]
    · rw [ih 0 (by omega), find_reset hp hk hy h0, List.take_zero, List.nil_append]

end Search
end A9GTracker
