import Mathlib.Data.List.Basic
import Mathlib.Data.Nat.Basic
import Mathlib.Tactic.Common

/-! Cutting a list into pieces from its front. -/
namespace A9GTracker
namespace Chop

variable {α : Type}

/-- The pieces in order; `cut` says how long the next one is, 0 that there is none. -/
def chop (cut : List α → ℕ) : ℕ → List α → List (List α)
  | 0, _ => []
  | n+1, xs => if cut xs = 0 then [] else xs.take (cut xs)::chop cut n (xs.drop (cut xs))

variable {cut : List α → ℕ}

theorem chop_fuel (h : ∀ xs, cut xs ≤ xs.length) {n : ℕ} {xs : List α} (hn : xs.length ≤ n) :
    chop cut n xs = chop cut xs.length xs := by
  induction n using Nat.strong_induction_on generalizing xs with
  | _ n ih =>
    cases n with
    | zero => rw [Nat.le_zero.mp hn]
    | succ n =>
      cases hxs : xs.length with
      | zero =>
        have hcut : cut xs = 0 := Nat.le_zero.mp (hxs ▸ h xs)
        simp [chop,hcut]
      | succ k =>
        by_cases hc : cut xs = 0
        · simp [chop,hc]
        · have hl : (xs.drop (cut xs)).length ≤ k := by
            rw [List.length_drop]
            omega
          rw [chop,chop,if_neg hc,if_neg hc,ih n (by omega) (by omega),ih k (by omega) hl]

theorem chop_stop (xs : List α) (hc : cut xs = 0) : chop cut xs.length xs = [] := by
  cases xs with
  | nil => rfl
  | cons x xs => simp [chop,hc]

theorem chop_next (h : ∀ xs, cut xs ≤ xs.length) {xs : List α} (hc : cut xs ≠ 0) :
    chop cut xs.length xs =
      xs.take (cut xs)::chop cut (xs.drop (cut xs)).length (xs.drop (cut xs)) := by
  have hle := h xs
  cases hxs : xs.length with
  | zero => omega
  | succ k =>
    have hl : (xs.drop (cut xs)).length ≤ k := by
      rw [List.length_drop]
      omega
    rw [chop,if_neg hc,chop_fuel h hl]

/-- Where a piece that is there stays as it is when more follows, so do all pieces, and the rest
is cut together with what follows. -/
theorem chop_append (h : ∀ xs, cut xs ≤ xs.length)
    (hstable : ∀ xs ys, cut xs ≠ 0 → cut (xs++ys) = cut xs) {xs rest : List α}
    (hxs : (chop cut xs.length xs).flatten++rest = xs) (ys : List α) :
    chop cut (xs++ys).length (xs++ys) =
      chop cut xs.length xs++chop cut (rest++ys).length (rest++ys) := by
  induction hn : xs.length using Nat.strong_induction_on generalizing xs with
  | _ n ih =>
    subst hn
    have hle := h xs
    by_cases hc : cut xs = 0
    · rw [chop_stop xs hc] at hxs ⊢
      rw [← hxs]
      rfl
    · have hcut := hstable xs ys hc
      have hc' : cut (xs++ys) ≠ 0 := by rwa [hcut]
      rw [chop_next h hc] at hxs ⊢
      have hrest : (chop cut (xs.drop (cut xs)).length (xs.drop (cut xs))).flatten++rest =
          xs.drop (cut xs) := by
        rw [List.flatten_cons,List.append_assoc] at hxs
        refine List.append_cancel_left (?_ : xs.take (cut xs)++_ = xs.take (cut xs)++_)
        rw [hxs,List.take_append_drop]
      have hlt : (xs.drop (cut xs)).length < xs.length := by
        rw [List.length_drop]
        omega
      rw [chop_next h hc',hcut,List.take_append_of_le_length hle,
        List.drop_append_of_le_length hle,ih _ hlt hrest rfl,List.cons_append]

/-- Pieces that are recognised whatever follows them are the pieces of their concatenation. -/
theorem chop_flatten (h : ∀ xs, cut xs ≤ xs.length) {pieces : List (List α)}
    (hpieces : ∀ p ∈ pieces, p ≠ [] ∧ ∀ ys, cut (p++ys) = p.length) (rest : List α) :
    chop cut (pieces.flatten++rest).length (pieces.flatten++rest) =
      pieces++chop cut rest.length rest := by
  induction pieces with
  | nil => rfl
  | cons p pieces ih =>
    obtain ⟨hne,hcut⟩ := hpieces p (by simp)
    have hpos := List.length_pos_iff.2 hne
    have hfirst : cut (p++(pieces.flatten++rest)) = p.length := hcut _
    have htail := ih fun q hq => hpieces q (by simp [hq])
    rw [List.flatten_cons,List.append_assoc,chop_next h (by rw [hfirst]; omega),hfirst,
      List.take_left,List.drop_left,htail,List.cons_append]

/-- A beginning of their concatenation has the first of them as its pieces, if none of them is
recognised before it is complete. -/
theorem chop_take (h : ∀ xs, cut xs ≤ xs.length) {pieces : List (List α)}
    (hpieces : ∀ p ∈ pieces, p ≠ [] ∧ (∀ ys, cut (p++ys) = p.length) ∧
      ∀ n < p.length, cut (p.take n) = 0) (n : ℕ) :
    chop cut (pieces.flatten.take n).length (pieces.flatten.take n) <+: pieces := by
  induction pieces generalizing n with
  | nil => simp [chop]
  | cons p pieces ih =>
    obtain ⟨hne,hcut,hpart⟩ := hpieces p (by simp)
    have hpos := List.length_pos_iff.2 hne
    rw [List.flatten_cons,List.take_append]
    by_cases hn : n < p.length
    · have hzero : n-p.length = 0 := by omega
      rw [hzero,List.take_zero,List.append_nil,chop_stop _ (hpart n hn)]
      exact List.nil_prefix
    · have hfirst : cut (p++pieces.flatten.take (n-p.length)) = p.length := hcut _
      have htail := ih (fun q hq => hpieces q (by simp [hq])) (n-p.length)
      rw [List.take_of_length_le (by omega),chop_next h (by rw [hfirst]; omega),hfirst,
        List.take_left,List.drop_left]
      exact List.prefix_cons_inj p |>.2 htail

end Chop
end A9GTracker
