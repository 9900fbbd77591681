import Mathlib.Data.List.Basic
import Mathlib.Data.List.GetD
import Mathlib.Data.List.Range
import Mathlib.Order.Lattice
import Mathlib.Tactic.Common

/-! Selection sort by swaps: each round brings the largest key of the rest to its front. -/
namespace A9GTracker
namespace Selection

variable {α κ : Type} [LinearOrder κ] (key : α → κ) (d : α)

/-- The first position of the largest key from `i` on. -/
def largestFrom (l : List α) (i : ℕ) : ℕ :=
  (List.range' (i+1) (l.length-(i+1))).foldl
    (fun maxj j => if key (l.getD j d) > key (l.getD maxj d) then j else maxj) i

def swap (l : List α) (i j : ℕ) : List α := (l.set i (l.getD j d)).set j (l.getD i d)

def select (l : List α) (i : ℕ) : List α :=
  let maxj := largestFrom key d l i
  if maxj ≠ i then swap d l i maxj else l

def selectionSort (l : List α) : List α := (List.range (l.length-1)).foldl (select key d) l

/-! ### Swaps -/

section swap
variable {l : List α} {i j : ℕ}

omit [LinearOrder κ] in
@[simp] theorem length_swap : (swap d l i j).length = l.length := by
  simp [swap]

theorem swap_perm (hi : i < l.length) (hj : j < l.length) : (swap d l i j).Perm l := by
  simp only [swap,List.getD_eq_getElem _ _ hi,List.getD_eq_getElem _ _ hj]
  exact List.set_set_perm hi hj

theorem getD_swap (hi : i < l.length) (hj : j < l.length) (k : ℕ) :
    (swap d l i j).getD k d = l.getD (if k = j then i else if k = i then j else k) d := by
  rcases eq_or_ne k j with rfl | hkj
  · rw [if_pos rfl,swap,List.getD_eq_getElem?_getD,List.getElem?_set_self (by simpa using hj)]
    rfl
  · rw [if_neg hkj,swap,List.getD_eq_getElem?_getD,List.getElem?_set_ne hkj.symm]
    rcases eq_or_ne k i with rfl | hki
    · rw [if_pos rfl,List.getElem?_set_self hi]
      rfl
    · rw [if_neg hki,List.getElem?_set_ne hki.symm,List.getD_eq_getElem?_getD]

end swap

/-! ### One round -/

/-- The position holds the largest key of the positions from `i` to `n`. -/
structure Largest (l : List α) (i n m : ℕ) : Prop where
  ge : i ≤ m
  lt : m < n
  key_le : ∀ k, i ≤ k → k < n → key (l.getD k d) ≤ key (l.getD m d)

theorem largestFrom_spec {l : List α} {i : ℕ} (hi : i < l.length) :
    Largest key d l i l.length (largestFrom key d l i) := by
  have hloop : ∀ n, Largest key d l i (i+1+n) ((List.range' (i+1) n).foldl
      (fun maxj j => if key (l.getD j d) > key (l.getD maxj d) then j else maxj) i) := by
    intro n
    induction n with
    | zero =>
      refine ⟨le_rfl,Nat.lt_succ_self i,fun k hk hkn => ?_⟩
      obtain rfl : k = i := by omega
      exact le_rfl
    | succ n ih =>
      rw [List.range'_1_concat,List.foldl_append,List.foldl_cons,List.foldl_nil]
      generalize (List.range' (i+1) n).foldl _ i = maxj at ih
      split_ifs with hlt
      · refine ⟨by omega,by omega,fun k hk hkn => ?_⟩
        rcases Nat.lt_succ_iff_lt_or_eq.1 hkn with hold | rfl
        · exact (ih.key_le k hk hold).trans hlt.le
        · exact le_rfl
      · refine ⟨ih.ge,by have := ih.lt; omega,fun k hk hkn => ?_⟩
        rcases Nat.lt_succ_iff_lt_or_eq.1 hkn with hold | rfl
        · exact ih.key_le k hk hold
        · exact not_lt.1 hlt
  have hall := hloop (l.length-(i+1))
  rwa [Nat.add_sub_of_le hi] at hall

/-- The first `n` positions are settled: each holds the largest key from there on. -/
structure Settled (l₀ l : List α) (n : ℕ) : Prop where
  perm : l.Perm l₀
  key_le : ∀ i j, i < n → i < j → j < l.length → key (l.getD j d) ≤ key (l.getD i d)

theorem settled_select {l₀ l : List α} {n : ℕ} (h : Settled key d l₀ l n) (hn : n < l.length) :
    Settled key d l₀ (select key d l n) (n+1) := by
  have hmax := largestFrom_spec key d hn
  unfold select
  generalize largestFrom key d l n = m at hmax
  have hswap : Settled key d l₀ (swap d l n m) (n+1) := by
    refine ⟨(swap_perm d hn hmax.lt).trans h.perm,fun i j hi hij hj => ?_⟩
    rw [length_swap] at hj
    rw [getD_swap d hn hmax.lt,getD_swap d hn hmax.lt]
    have hge := hmax.ge
    have hlt := hmax.lt
    rcases Nat.lt_succ_iff_lt_or_eq.1 hi with hold | rfl
    · rw [if_neg (show i ≠ m by omega),if_neg (show i ≠ n by omega)]
      exact h.key_le i _ hold (by split_ifs <;> omega) (by split_ifs <;> omega)
    · have hfirst : (if i = m then i else if i = i then m else i) = m := by
        split_ifs with heq hself
        · exact heq
        · rfl
        · exact absurd rfl hself
      rw [hfirst]
      exact hmax.key_le _ (by split_ifs <;> omega) (by split_ifs <;> omega)
  have hself : swap d l n n = l := by
    simp only [swap,List.getD_eq_getElem _ _ hn,List.set_getElem_self]
  dsimp only
  split_ifs with heq
  · exact hswap
  · obtain rfl : m = n := not_not.1 heq
    rwa [hself] at hswap

/-! ### The sort -/

theorem settled_rounds (l : List α) {n : ℕ} (hn : n ≤ l.length-1) :
    Settled key d l ((List.range n).foldl (select key d) l) n := by
  induction n with
  | zero => exact ⟨List.Perm.refl l,fun i j hi => absurd hi (Nat.not_lt_zero i)⟩
  | succ n ih =>
    rw [List.range_succ,List.foldl_append,List.foldl_cons,List.foldl_nil]
    have hsettled := ih (by omega)
    refine settled_select key d hsettled ?_
    rw [hsettled.perm.length_eq]
    omega

theorem selectionSort_perm (l : List α) : (selectionSort key d l).Perm l :=
  (settled_rounds key d l le_rfl).perm

/-- The keys do not rise. -/
theorem selectionSort_pairwise (l : List α) :
    (selectionSort key d l).Pairwise fun x y => key y ≤ key x := by
  have hsettled : Settled key d l (selectionSort key d l) (l.length-1) :=
    settled_rounds key d l le_rfl
  refine List.pairwise_iff_getElem.2 fun i j hi hj hij => ?_
  have hlen := hsettled.perm.length_eq
  have hle := hsettled.key_le i j (by omega) hij hj
  rwa [List.getD_eq_getElem _ _ hj,List.getD_eq_getElem _ _ hi] at hle

variable {key}

/-- In a list whose keys do not rise the first match has the largest key of all matches. -/
theorem key_le_of_find? {l : List α} (h : l.Pairwise fun x y => key y ≤ key x) {p : α → Bool}
    {x : α} (hx : l.find? p = some x) : ∀ y ∈ l, p y = true → key y ≤ key x := by
  obtain ⟨-,before,after,rfl,hbefore⟩ := List.find?_eq_some_iff_append.1 hx
  intro y hy hp
  rcases List.mem_append.1 hy with hy | hy
  · have hnot := hbefore y hy
    rw [hp] at hnot
    exact absurd hnot (by decide)
  · rcases List.mem_cons.1 hy with rfl | hy
    · exact le_rfl
    · exact (List.pairwise_cons.1 (List.pairwise_append.1 h).2.1).1 y hy

end Selection
end A9GTracker
