import Mathlib.Data.List.Basic
import Mathlib.Data.List.GetD
import Mathlib.Tactic.Common

/-! Computations on a piece of memory, together with the positions they look at. -/
namespace A9GTracker

/-- A result and the positions that were read for it. -/
structure Look (α : Type) where
  value : α
  positions : List ℕ

namespace Look

variable {α β : Type}

instance : Monad Look where
  pure a := ⟨a,[]⟩
  bind x f := ⟨(f x.value).value,x.positions++(f x.value).positions⟩

abbrev cell (mem : List α) (i : ℕ) (default : α) : Look α := ⟨mem.getD i default,[i]⟩

/-- A result for which the first `n` cells are read. -/
abbrev first (n : ℕ) (a : α) : Look α := ⟨a,List.range n⟩

/-- The same computation on the memory from `k` on. -/
abbrev shift (k : ℕ) (x : Look α) : Look α := ⟨x.value,x.positions.map (k+·)⟩

/-- Nothing is read from position `n` on. -/
def Within (n : ℕ) (x : Look α) : Prop := ∀ i ∈ x.positions, i < n

instance (n : ℕ) (x : Look α) : Decidable (Within n x) :=
  inferInstanceAs (Decidable (∀ i ∈ x.positions, i < n))

/-! ### Values -/

@[simp] theorem value_pure (a : α) : (pure a : Look α).value = a := rfl

@[simp] theorem value_bind (x : Look α) (f : α → Look β) :
    (x >>= f).value = (f x.value).value := rfl

@[simp ↓] theorem value_ite (c : Prop) [Decidable c] (x y : Look α) :
    (if c then x else y).value = if c then x.value else y.value := apply_ite value c x y

@[simp] theorem shift_zero (x : Look α) : shift 0 x = x := by
  simp [shift]

theorem value_foldlM_cell (mem : List α) (default : α) (f : β → α → β) (is : List ℕ) (b : β) :
    (is.foldlM (fun b i => do return f b (← cell mem i default)) b : Look β).value =
      is.foldl (fun b i => f b (mem.getD i default)) b := by
  induction is generalizing b with
  | nil => rfl
  | cons i is ih => exact ih _

/-! ### Bounds -/

variable {n : ℕ}

@[simp] theorem within_pure (a : α) : Within n (pure a : Look α) := by
  intro i hi
  cases hi

@[simp] theorem within_bind {x : Look α} {f : α → Look β} :
    Within n (x >>= f) ↔ Within n x ∧ Within n (f x.value) := List.forall_mem_append

@[simp ↓] theorem within_ite {c : Prop} [Decidable c] {x y : Look α} :
    Within n (if c then x else y) ↔ if c then Within n x else Within n y := by
  split_ifs <;> rfl

@[simp] theorem within_cell {mem : List α} {i : ℕ} {default : α} :
    Within n (cell mem i default) ↔ i < n := List.forall_mem_singleton

@[simp] theorem within_first {k : ℕ} {a : α} : Within n (first k a) ↔ k ≤ n := by
  constructor
  · intro h
    cases k with
    | zero => exact Nat.zero_le n
    | succ k => exact h k (List.mem_range.2 (Nat.lt_succ_self k))
  · intro h i hi
    exact Nat.lt_of_lt_of_le (List.mem_range.1 hi) h

theorem within_shift {k : ℕ} (hk : k ≤ n) {x : Look α} :
    Within n (shift k x) ↔ Within (n-k) x := by
  constructor
  · intro h i hi
    have hlt := h (k+i) (List.mem_map_of_mem hi)
    omega
  · intro h i hi
    obtain ⟨j,hj,rfl⟩ := List.mem_map.1 hi
    have hlt := h j hj
    omega

theorem within_foldlM_cell {mem : List α} {default : α} {f : β → α → β} {is : List ℕ} {b : β} :
    Within n (is.foldlM (fun b i => do return f b (← cell mem i default)) b : Look β) ↔
      ∀ i ∈ is, i < n := by
  induction is generalizing b with
  | nil => exact iff_of_true (within_pure b) (by simp)
  | cons i is ih =>
    rw [List.foldlM_cons,within_bind,ih,List.forall_mem_cons]
    simp

end Look
end A9GTracker
