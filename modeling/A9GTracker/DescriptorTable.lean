import Mathlib.Data.List.Basic
import Mathlib.Tactic.Common

/-! Calls that open and close descriptors, and which of them leave nothing open. -/
namespace A9GTracker
namespace DescriptorTable

variable {ι : Type} [DecidableEq ι]

/-- A call that succeeded in opening a descriptor, or one that closes it. -/
inductive FdCall (ι : Type)
  | opened (fd : ι)
  | closed (fd : ι)
  deriving DecidableEq

/-- The open descriptors behind some calls; closing what is not open is an error. -/
def openAfter : List ι → List (FdCall ι) → Option (List ι)
  | fds, [] => some fds
  | fds, .opened fd::calls => openAfter (fd::fds) calls
  | fds, .closed fd::calls => if fd ∈ fds then openAfter (fds.erase fd) calls else none

/-- All descriptors that were opened are closed again, and no other ones. -/
def Balanced (calls : List (FdCall ι)) : Prop := openAfter [] calls = some []

instance (calls : List (FdCall ι)) : Decidable (Balanced calls) :=
  inferInstanceAs (Decidable (openAfter [] calls = some []))

@[simp] theorem balanced_nil : Balanced ([] : List (FdCall ι)) := rfl

@[simp] theorem balanced_pair (fd : ι) : Balanced [.opened fd,.closed fd] := by
  simp [Balanced,openAfter]

theorem count_openAfter {fds fds' : List ι} {calls : List (FdCall ι)}
    (h : openAfter fds calls = some fds') (fd : ι) :
    fds.count fd+calls.count (.opened fd) = fds'.count fd+calls.count (.closed fd) := by
  induction calls generalizing fds with
  | nil =>
    obtain rfl := Option.some.inj h
    simp
  | cons call calls ih =>
    cases call with
    | opened fd' =>
      have hrest := ih h
      by_cases heq : fd' = fd
      · subst heq
        have hother : FdCall.opened fd' ≠ .closed fd' := by simp
        simp only [List.count_cons_self,List.count_cons_of_ne hother] at hrest ⊢
        omega
      · rw [List.count_cons_of_ne heq] at hrest
        rw [List.count_cons_of_ne (by simpa using heq),List.count_cons_of_ne (by simp)]
        exact hrest
    | closed fd' =>
      rw [openAfter] at h
      split_ifs at h with hmem
      have hrest := ih h
      have hpos := List.count_pos_iff.2 hmem
      by_cases heq : fd' = fd
      · subst heq
        rw [List.count_erase_self] at hrest
        rw [List.count_cons_self,List.count_cons_of_ne (by simp)]
        omega
      · rw [List.count_erase_of_ne (Ne.symm heq)] at hrest
        rw [List.count_cons_of_ne (by simp),List.count_cons_of_ne (by simpa using heq)]
        exact hrest

/-- Every descriptor is closed as often as it was opened. -/
theorem Balanced.count_eq {calls : List (FdCall ι)} (h : Balanced calls) (fd : ι) :
    calls.count (.closed fd) = calls.count (.opened fd) := by
  have hcount := count_openAfter h fd
  simp only [List.count_nil] at hcount
  omega

@[simp] theorem not_balanced_single (fd : ι) : ¬ Balanced [.opened fd] := by
  intro h
  have hcount := h.count_eq fd
  simp at hcount

end DescriptorTable
end A9GTracker
