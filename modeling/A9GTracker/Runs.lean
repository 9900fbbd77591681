import Mathlib.Data.List.Basic
import Mathlib.Tactic.Common

/-! Runs of a machine that takes one event after another, machines that answer alike, and stores
that are updated field by field. -/
namespace A9GTracker
namespace Runs

variable {σ ε : Type}

def run (step : σ → ε → σ) (s : σ) (es : List ε) : σ := es.foldl step s

@[simp] theorem run_nil (step : σ → ε → σ) (s : σ) : run step s [] = s := rfl

@[simp] theorem run_cons (step : σ → ε → σ) (s : σ) (e : ε) (es : List ε) :
    run step s (e::es) = run step (step s e) es := rfl

theorem run_append (step : σ → ε → σ) (s : σ) (es es' : List ε) :
    run step s (es++es') = run step (run step s es) es' :=
  List.foldl_append

/-- A condition on the state before a step and its event, at every step of a run. -/
def EverySteps (P : σ → ε → Prop) (step : σ → ε → σ) : σ → List ε → Prop
  | _, [] => True
  | s, e::es => P s e ∧ EverySteps P step (step s e) es

/-- An invariant that survives every step the condition admits survives the run. -/
theorem run_invariant {step : σ → ε → σ} {P : σ → ε → Prop} (I : σ → Prop)
    (hstep : ∀ s e, I s → P s e → I (step s e)) {s : σ} {es : List ε} (hs : I s)
    (hes : EverySteps P step s es) : I (run step s es) := by
  induction es generalizing s with
  | nil => exact hs
  | cons e es ih => exact ih (hstep s e hs hes.1) hes.2

theorem everySteps_iff {P : σ → ε → Prop} {step : σ → ε → σ} {s : σ} {es : List ε} :
    EverySteps P step s es ↔ ∀ pre e post, es = pre++e::post → P (run step s pre) e := by
  constructor
  · intro h pre e post hes
    subst hes
    induction pre generalizing s with
    | nil => exact h.1
    | cons e' pre ih => exact ih h.2
  · intro h
    induction es generalizing s with
    | nil => trivial
    | cons e es ih =>
      refine ⟨h [] e es rfl,ih fun pre e' post hes => ?_⟩
      exact h (e::pre) e' post (by rw [hes]; rfl)

theorem EverySteps.imp_of_mem {P Q : σ → ε → Prop} {step : σ → ε → σ} {s : σ} {es : List ε}
    (himp : ∀ s, ∀ e ∈ es, P s e → Q s e) (h : EverySteps P step s es) :
    EverySteps Q step s es := by
  induction es generalizing s with
  | nil => trivial
  | cons e es ih =>
    exact ⟨himp s e (by simp) h.1,ih (fun s' e' he' => himp s' e' (by simp [he'])) h.2⟩

theorem everySteps_of_forall {P : ε → Prop} {step : σ → ε → σ} {s : σ} {es : List ε}
    (h : ∀ e ∈ es, P e) : EverySteps (fun _ e => P e) step s es := by
  induction es generalizing s with
  | nil => trivial
  | cons e es ih => exact ⟨h e (by simp), ih fun e' he' => h e' (by simp [he'])⟩

/-! ### Machines that cannot take every event in every state -/

/-- One state comes from another by events of one kind. -/
inductive Reaches (step : σ → ε → Option σ) (allowed : ε → Prop) (s : σ) : σ → Prop
  | refl : Reaches step allowed s s
  | tail {t u : σ} {e : ε} (h : Reaches step allowed s t) (he : allowed e)
      (hs : step t e = some u) : Reaches step allowed s u

theorem Reaches.trans {step : σ → ε → Option σ} {allowed : ε → Prop} {s t u : σ}
    (h : Reaches step allowed s t) (h' : Reaches step allowed t u) : Reaches step allowed s u := by
  induction h' with
  | refl => exact h
  | tail _ he hs ih => exact ih.tail he hs

theorem Reaches.invariant {step : σ → ε → Option σ} {allowed : ε → Prop} {I : σ → Prop}
    (hstep : ∀ s s' e, I s → allowed e → step s e = some s' → I s') {s t : σ}
    (h : Reaches step allowed s t) (hs : I s) : I t := by
  induction h with
  | refl => exact hs
  | tail _ he hs ih => exact hstep _ _ _ ih he hs

def runAll (step : σ → ε → Option σ) (s : σ) : List ε → Option σ
  | [] => some s
  | e::es => (step s e).bind fun s' => runAll step s' es

theorem runAll_append {step : σ → ε → Option σ} {s t : σ} {es : List ε}
    (h : runAll step s es = some t) (es' : List ε) :
    runAll step s (es++es') = runAll step t es' := by
  induction es generalizing s with
  | nil =>
    cases h
    rfl
  | cons e es ih =>
    rw [runAll,Option.bind_eq_some_iff] at h
    obtain ⟨s',hs',hrest⟩ := h
    rw [List.cons_append,runAll,hs']
    exact ih hrest

theorem reaches_of_runAll {step : σ → ε → Option σ} {s t : σ} {es : List ε}
    (h : runAll step s es = some t) : Reaches step (fun _ => True) s t := by
  induction es generalizing s with
  | nil =>
    cases h
    exact .refl
  | cons e es ih =>
    rw [runAll,Option.bind_eq_some_iff] at h
    obtain ⟨s',hs',hrest⟩ := h
    exact (Reaches.refl.tail trivial hs').trans (ih hrest)

theorem reaches_of_rank {step : σ → ε → Option σ} {allowed : ε → Prop} {I goal : σ → Prop}
    (rank : σ → ℕ) (hprogress : ∀ s, I s → goal s ∨
      ∃ e s', allowed e ∧ step s e = some s' ∧ I s' ∧ rank s' < rank s) {s : σ} (hs : I s) :
    ∃ t, Reaches step allowed s t ∧ I t ∧ goal t := by
  induction hn : rank s using Nat.strongRecOn generalizing s with
  | _ n ih =>
    subst hn
    rcases hprogress s hs with hgoal | ⟨e,s',he,hstep,hs',hlt⟩
    · exact ⟨s,.refl,hs,hgoal⟩
    · obtain ⟨t,ht,hIt,hgoal⟩ := ih _ hlt hs' rfl
      exact ⟨t,(Reaches.refl.tail he hstep).trans ht,hIt,hgoal⟩

end Runs

/-! Machines that answer each event. A relation kept by every step makes two machines
indistinguishable by their answers. -/
namespace Simulation

variable {σ τ ε ω : Type}

def final (step : σ → ε → σ × ω) (s : σ) (es : List ε) : σ :=
  es.foldl (fun s e => (step s e).1) s

def answers (step : σ → ε → σ × ω) : σ → List ε → List ω
  | _, [] => []
  | s, e::es => (step s e).2::answers step (step s e).1 es

/-- Both machines give the same answer and stay related. -/
def Simulates (R : σ → τ → Prop) (step : σ → ε → σ × ω) (step' : τ → ε → τ × ω) : Prop :=
  ∀ s t e, R s t → (step s e).2 = (step' t e).2 ∧ R (step s e).1 (step' t e).1

theorem Simulates.answers_eq {R : σ → τ → Prop} {step : σ → ε → σ × ω} {step' : τ → ε → τ × ω}
    (h : Simulates R step step') {s : σ} {t : τ} (hr : R s t) (es : List ε) :
    answers step s es = answers step' t es := by
  induction es generalizing s t with
  | nil => rfl
  | cons e es ih =>
    obtain ⟨ha,hn⟩ := h s t e hr
    simp only [answers,ha,ih hn]

theorem Simulates.final_related {R : σ → τ → Prop} {step : σ → ε → σ × ω}
    {step' : τ → ε → τ × ω} (h : Simulates R step step') {s : σ} {t : τ} (hr : R s t)
    (es : List ε) : R (final step s es) (final step' t es) := by
  induction es generalizing s t with
  | nil => exact hr
  | cons e es ih => exact ih (h s t e hr).2

end Simulation

/-! Updates of one field of a store: the last one that assigns the field decides. -/
namespace Assignments

variable {σ υ α : Type} (get : σ → α) {apply : σ → υ → σ} (assigns : υ → Option α)

/-- The field after a sequence of updates is the last assigned value, or the old one. -/
theorem get_foldl (h : ∀ s u, get (apply s u) = (assigns u).getD (get s)) (us : List υ) (s : σ) :
    get (us.foldl apply s) = ((us.filterMap assigns).getLast?).getD (get s) := by
  induction us generalizing s with
  | nil => rfl
  | cons u us ih =>
    rw [List.foldl_cons,ih,h]
    cases hu : assigns u with
    | none => simp [hu]
    | some a => cases hl : us.filterMap assigns <;> simp [hu,hl,List.getLast?_cons]

/-- A property of the old value and of every assigned one holds of the result. -/
theorem get_foldl_mem (h : ∀ s u, get (apply s u) = (assigns u).getD (get s)) (us : List υ) (s : σ) :
    get (us.foldl apply s) = get s ∨ ∃ u ∈ us, assigns u = some (get (us.foldl apply s)) := by
  rw [get_foldl get assigns h]
  cases hl : (us.filterMap assigns).getLast? with
  | none => exact Or.inl rfl
  | some a =>
    obtain ⟨u,hu,ha⟩ := List.mem_filterMap.1 (List.mem_of_getLast? hl)
    exact Or.inr ⟨u,hu,ha⟩

end Assignments
end A9GTracker
