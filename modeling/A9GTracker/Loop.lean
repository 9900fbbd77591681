import Mathlib.Data.Nat.Basic
import Mathlib.Tactic.Common

/-! Loops without a syntactic bound, run on fuel. A body either asks for another
round or leaves the loop with a result; halting means that some fuel suffices. -/
namespace A9GTracker
namespace Loop

inductive Step (σ ρ : Type)
  | next (s : σ)
  | done (r : ρ)

variable {σ ρ : Type}

/-- One unit of fuel pays for one execution of the body. -/
def run (body : σ → Step σ ρ) : ℕ → σ → Option ρ
  | 0, _ => none
  | n+1, s =>
    match body s with
    | .next s' => run body n s'
    | .done r => some r

def Halts (body : σ → Step σ ρ) (s : σ) : Prop := ∃ n r, run body n s = some r

theorem run_next {body : σ → Step σ ρ} {s s' : σ} (h : body s = .next s') (n : ℕ) :
    run body (n+1) s = run body n s' := by
  simp [run, h]

theorem run_done {body : σ → Step σ ρ} {s : σ} {r : ρ} (h : body s = .done r) (n : ℕ) :
    run body (n+1) s = some r := by
  simp [run, h]

theorem run_succ_of_some {body : σ → Step σ ρ} {n : ℕ} {s : σ} {r : ρ}
    (h : run body n s = some r) : run body (n+1) s = some r := by
  induction n generalizing s with
  | zero => simp [run] at h
  | succ n ih =>
    cases hb : body s with
    | next s' =>
      rw [run_next hb] at h ⊢
      exact ih h
    | done r' =>
      rw [run_done hb] at h ⊢
      exact h

/-- More fuel never changes a result. -/
theorem run_mono {body : σ → Step σ ρ} {n m : ℕ} {s : σ} {r : ρ} (hnm : n ≤ m)
    (h : run body n s = some r) : run body m s = some r := by
  induction hnm with
  | refl => exact h
  | step _ ih => exact run_succ_of_some ih

theorem run_unique {body : σ → Step σ ρ} {n m : ℕ} {s : σ} {r r' : ρ} (h : run body n s = some r)
    (h' : run body m s = some r') : r = r' := by
  have hleft := run_mono (le_max_left n m) h
  have hright := run_mono (le_max_right n m) h'
  exact Option.some.inj (hleft.symm.trans hright)

/-- Total correctness: the invariant is kept by every further round, each of which
lowers the measure, and the last round establishes the postcondition. -/
theorem run_total {body : σ → Step σ ρ} (I : σ → Prop) (Q : ρ → Prop) (μ : σ → ℕ)
    (hnext : ∀ s s', I s → body s = .next s' → I s' ∧ μ s' < μ s)
    (hdone : ∀ s r, I s → body s = .done r → Q r) (s : σ) (hs : I s) :
    ∃ r, run body (μ s+1) s = some r ∧ Q r := by
  induction hm : μ s using Nat.strong_induction_on generalizing s with
  | _ m ih =>
    cases hb : body s with
    | next s' =>
      obtain ⟨hI, hlt⟩ := hnext s s' hs hb
      rw [hm] at hlt
      obtain ⟨r, hr, hq⟩ := ih (μ s') hlt s' hI rfl
      refine ⟨r, ?_, hq⟩
      rw [run_next hb]
      exact run_mono hlt hr
    | done r => exact ⟨r, run_done hb m, hdone s r hs hb⟩

/-- Partial correctness: whatever the loop returns satisfies the postcondition. -/
theorem run_partial {body : σ → Step σ ρ} (I : σ → Prop) (Q : ρ → Prop)
    (hnext : ∀ s s', I s → body s = .next s' → I s')
    (hdone : ∀ s r, I s → body s = .done r → Q r) {n : ℕ} {s : σ} {r : ρ}
    (hs : I s) (h : run body n s = some r) : Q r := by
  induction n generalizing s with
  | zero => simp [run] at h
  | succ n ih =>
    cases hb : body s with
    | next s' =>
      rw [run_next hb] at h
      exact ih (hnext s s' hs hb) h
    | done r' =>
      rw [run_done hb] at h
      obtain rfl := Option.some.inj h
      exact hdone s r' hs hb

/-- Divergence: an invariant from which the body always asks for another round. -/
theorem run_diverges {body : σ → Step σ ρ} (I : σ → Prop)
    (hnext : ∀ s, I s → ∃ s', body s = .next s' ∧ I s') (s : σ) (hs : I s) : ¬ Halts body s := by
  rintro ⟨n, r, h⟩
  induction n generalizing s with
  | zero => simp [run] at h
  | succ n ih =>
    obtain ⟨s', hb, hI⟩ := hnext s hs
    rw [run_next hb] at h
    exact ih s' hI h

section map
variable {σ' ρ' : Type}

def Step.map (f : σ → σ') (g : ρ → ρ') : Step σ ρ → Step σ' ρ'
  | .next s => .next (f s)
  | .done r => .done (g r)

/-- A body that does on images what another one does has the image of its result. -/
theorem run_map {body : σ → Step σ ρ} {body' : σ' → Step σ' ρ'} {f : σ → σ'} {g : ρ → ρ'}
    (h : ∀ s, body' (f s) = (body s).map f g) (n : ℕ) (s : σ) :
    run body' n (f s) = (run body n s).map g := by
  induction n generalizing s with
  | zero => rfl
  | succ n ih =>
    cases hb : body s with
    | next s' =>
      have hb' : body' (f s) = .next (f s') := by rw [h,hb]; rfl
      rw [run_next hb,run_next hb',ih]
    | done r =>
      have hb' : body' (f s) = .done (g r) := by rw [h,hb]; rfl
      rw [run_done hb,run_done hb']
      rfl

end map

/-- The states at the head of the loop, the first one included. -/
inductive Visits (body : σ → Step σ ρ) : σ → σ → Prop
  | refl (s : σ) : Visits body s s
  | next {s t t' : σ} : Visits body s t → body t = .next t' → Visits body s t'

theorem Visits.invariant {body : σ → Step σ ρ} {I : σ → Prop}
    (hnext : ∀ s s', I s → body s = .next s' → I s') {s t : σ} (h : Visits body s t)
    (hs : I s) : I t := by
  induction h with
  | refl => exact hs
  | next _ hb ih => exact hnext _ _ ih hb

end Loop
end A9GTracker
