import Mathlib.Data.List.Basic
import Mathlib.Data.List.Induction
import Mathlib.Tactic.Common

/-! Traces of requests and acknowledgements. A granted request stays outstanding until an
acknowledgement, and requests overlap when one is made while another is outstanding. -/
namespace A9GTracker
namespace Exclusion

variable {α : Type} {granted request ack : α → Prop} {tr : List α}

/-- Some granted request of the trace has no acknowledgement after it. -/
def Outstanding (granted ack : α → Prop) (tr : List α) : Prop :=
  ∃ pre a post, tr = pre++a::post ∧ granted a ∧ ∀ c ∈ post, ¬ ack c

/-- Between a granted request and any later request stands an acknowledgement. -/
def NoOverlap (granted request ack : α → Prop) (tr : List α) : Prop :=
  ∀ pre a mid b post, tr = pre++a::(mid++b::post) → granted a → request b → ∃ c ∈ mid, ack c

/-- A split of a trace with a last action is at that action or before it. -/
theorem concat_split {b d : α} {pre post : List α} (h : tr++[b] = pre++d::post) :
    (tr = pre ∧ b = d ∧ post = []) ∨ ∃ post', post = post'++[b] ∧ tr = pre++d::post' := by
  rcases List.eq_nil_or_concat post with rfl | ⟨post',e,rfl⟩
  · obtain ⟨htr,hb⟩ := List.append_inj' h rfl
    exact Or.inl ⟨htr,List.singleton_inj.1 hb,rfl⟩
  · have h' : tr++[b] = (pre++d::post')++[e] := by simpa using h
    obtain ⟨htr,hb⟩ := List.append_inj' h' rfl
    obtain rfl := List.singleton_inj.1 hb
    exact Or.inr ⟨post',by simp,htr⟩

theorem not_outstanding_nil : ¬ Outstanding granted ack [] := by
  rintro ⟨pre,a,post,h,-⟩
  simp at h

theorem noOverlap_nil : NoOverlap granted request ack [] := by
  intro pre a mid b post h
  simp at h

theorem outstanding_concat {b : α} :
    Outstanding granted ack (tr++[b]) ↔ granted b ∨ (Outstanding granted ack tr ∧ ¬ ack b) := by
  constructor
  · rintro ⟨pre,a,post,h,ha,hpost⟩
    obtain ⟨-,rfl,-⟩ | ⟨post',rfl,htr⟩ := concat_split h
    · exact Or.inl ha
    · exact Or.inr ⟨⟨pre,a,post',htr,ha,fun c hc => hpost c (by simp [hc])⟩,hpost b (by simp)⟩
  · rintro (hb | ⟨⟨pre,a,post,rfl,ha,hpost⟩,hb⟩)
    · exact ⟨tr,b,[],rfl,hb,by simp⟩
    · refine ⟨pre,a,post++[b],by simp,ha,fun c hc => ?_⟩
      rcases List.mem_append.1 hc with hc | hc
      · exact hpost c hc
      · exact List.mem_singleton.1 hc ▸ hb

theorem noOverlap_concat {b : α} :
    NoOverlap granted request ack (tr++[b]) ↔
      NoOverlap granted request ack tr ∧ (request b → ¬ Outstanding granted ack tr) := by
  constructor
  · intro h
    refine ⟨fun pre a mid d post htr => ?_,?_⟩
    · exact h pre a mid d (post++[b]) (by simp [htr])
    · rintro hb ⟨pre,a,post,rfl,ha,hpost⟩
      obtain ⟨c,hc,hack⟩ := h pre a post b [] (by simp) ha hb
      exact hpost c hc hack
  · rintro ⟨h,hlast⟩ pre a mid d post htr ha hd
    rw [← List.cons_append,← List.append_assoc] at htr
    obtain ⟨hfirst,rfl,-⟩ | ⟨post',-,hrest⟩ := concat_split htr
    · by_contra hno
      exact hlast hd ⟨pre,a,mid,hfirst,ha,fun c hc hack => hno ⟨c,hc,hack⟩⟩
    · exact h pre a mid d post' (by simpa using hrest) ha hd

/-- Actions that are neither requests nor acknowledgements change nothing. -/
theorem outstanding_append_of_quiet {q : List α} (hgrant : ∀ b, granted b → request b)
    (hq : ∀ b ∈ q, ¬ request b ∧ ¬ ack b) :
    Outstanding granted ack (tr++q) ↔ Outstanding granted ack tr := by
  induction q using List.reverseRecOn with
  | nil => simp
  | append_singleton q b ih =>
    have hb := hq b (by simp)
    have hnot : ¬ granted b := fun h => hb.1 (hgrant b h)
    rw [← List.append_assoc,outstanding_concat,ih fun c hc => hq c (by simp [hc])]
    simp [hnot,hb.2]

theorem noOverlap_append_of_quiet {q : List α} (hq : ∀ b ∈ q, ¬ request b ∧ ¬ ack b) :
    NoOverlap granted request ack (tr++q) ↔ NoOverlap granted request ack tr := by
  induction q using List.reverseRecOn with
  | nil => simp
  | append_singleton q b ih =>
    rw [← List.append_assoc,noOverlap_concat,ih fun c hc => hq c (by simp [hc])]
    simp [(hq b (by simp)).1]

end Exclusion
end A9GTracker
