import Mathlib.Data.List.Basic
import Mathlib.Tactic.Common

/-! Lines of a text: the pieces that end in a separator, and what follows the last
separator when that is not empty. -/
namespace A9GTracker
namespace Lines

variable {α : Type} [DecidableEq α] {sep : α}

def lines (sep : α) : List α → List (List α)
  | [] => []
  | c::s =>
    if c = sep then []::lines sep s
    else
      match lines sep s with
      | [] => [[c]]
      | l::ls => (c::l)::ls

@[simp] theorem lines_nil : lines sep [] = [] := rfl

theorem lines_eq_nil {s : List α} : lines sep s = [] ↔ s = [] := by
  cases s with
  | nil => simp
  | cons c s =>
    rw [lines]
    split_ifs
    · simp
    · cases lines sep s <;> simp

theorem lines_append_sep {a : List α} (h : sep ∉ a) (b : List α) :
    lines sep (a++sep::b) = a::lines sep b := by
  induction a with
  | nil => simp [lines]
  | cons c a ih =>
    have hc : c ≠ sep := fun heq => h (by simp [heq])
    rw [List.cons_append,lines,if_neg hc,ih fun hmem => h (by simp [hmem])]

theorem induction_on_lines (sep : α) {P : List α → Prop} (s : List α) (hlast : ∀ a, sep ∉ a → P a)
    (hline : ∀ a b, sep ∉ a → P b → P (a++sep::b)) : P s := by
  induction hn : s.length using Nat.strongRecOn generalizing s with
  | _ n ih =>
    by_cases hmem : sep ∈ s
    · obtain ⟨a,b,rfl,ha⟩ := List.eq_append_cons_of_mem hmem
      have hlt : b.length < n := by
        simp only [List.length_append,List.length_cons] at hn
        omega
      exact hline a b ha (ih b.length hlt b rfl)
    · exact hlast s hmem

theorem lines_of_notMem {a : List α} (h : sep ∉ a) (ha : a ≠ []) : lines sep a = [a] := by
  induction a with
  | nil => exact absurd rfl ha
  | cons c a ih =>
    have hc : c ≠ sep := fun heq => h (by simp [heq])
    rw [lines,if_neg hc]
    by_cases hnil : a = []
    · simp [hnil]
    · rw [ih (fun hmem => h (by simp [hmem])) hnil]

theorem lines_tail_append_of_notMem {a : List α} (h : sep ∉ a) (b : List α) :
    (lines sep (a++b)).tail = (lines sep b).tail := by
  induction b using induction_on_lines sep with
  | hlast b hb =>
    have hab : sep ∉ a++b := by simp [h,hb]
    rcases eq_or_ne (a++b) [] with hnil | hnil
    · simp_all
    · rw [lines_of_notMem hab hnil]
      rcases eq_or_ne b [] with rfl | hb'
      · rfl
      · rw [lines_of_notMem hb hb']
        rfl
  | hline b c hb _ =>
    have hab : sep ∉ a++b := by simp [h,hb]
    rw [← List.append_assoc,lines_append_sep hab,lines_append_sep hb]
    rfl

/-- The first line is at least as long as a piece without separator at the front. -/
theorem lines_append_of_notMem {a : List α} (h : sep ∉ a) (ha : a ≠ []) (b : List α) :
    ∃ l, lines sep (a++b) = l::(lines sep b).tail ∧ a.length ≤ l.length := by
  rw [← lines_tail_append_of_notMem h b]
  induction b using induction_on_lines sep with
  | hlast b hb =>
    have hab : sep ∉ a++b := by simp [h,hb]
    rw [lines_of_notMem hab (by simp [ha])]
    exact ⟨a++b,rfl,by simp⟩
  | hline b c hb _ =>
    have hab : sep ∉ a++b := by simp [h,hb]
    rw [← List.append_assoc,lines_append_sep hab]
    exact ⟨a++b,rfl,by simp⟩

theorem lines_append_of_terminated (a b : List α) :
    lines sep (a++sep::b) = lines sep (a++[sep])++lines sep b := by
  induction a using induction_on_lines sep with
  | hlast a ha => simp [lines_append_sep ha]
  | hline a c ha ih =>
    rw [List.append_assoc,List.append_assoc,List.cons_append,List.cons_append,lines_append_sep ha,
      lines_append_sep ha,ih,List.cons_append]

/-- Texts that all end in a separator keep their lines when they are put together. -/
theorem lines_flatten {ts : List (List α)} (h : ∀ t ∈ ts, ∃ a, t = a++[sep]) :
    lines sep ts.flatten = ts.flatMap (lines sep) := by
  induction ts with
  | nil => rfl
  | cons t ts ih =>
    obtain ⟨a,rfl⟩ := h t (by simp)
    rw [List.flatten_cons,List.append_assoc,List.singleton_append,lines_append_of_terminated,
      ih fun t' ht' => h t' (by simp [ht'])]
    rfl

theorem lines_append_of_cons {a b l : List α} {ls : List (List α)} (h : sep ∉ a)
    (hb : lines sep b = l::ls) : lines sep (a++b) = (a++l)::ls := by
  induction a with
  | nil => exact hb
  | cons c a ih =>
    have hc : c ≠ sep := fun heq => h (by simp [heq])
    rw [List.cons_append,lines,if_neg hc,ih fun hmem => h (by simp [hmem])]
    rfl

theorem notMem_of_mem_lines {s l : List α} (h : l ∈ lines sep s) : sep ∉ l := by
  induction s using induction_on_lines sep with
  | hlast a ha =>
    rcases eq_or_ne a [] with rfl | hnil
    · simp at h
    · rw [lines_of_notMem ha hnil,List.mem_singleton] at h
      exact h ▸ ha
  | hline a b ha ih =>
    rw [lines_append_sep ha,List.mem_cons] at h
    rcases h with rfl | h
    · exact ha
    · exact ih h

theorem infix_of_mem_lines {s l : List α} (h : l ∈ lines sep s) : l <:+: s := by
  induction s using induction_on_lines sep with
  | hlast a ha =>
    rcases eq_or_ne a [] with rfl | hnil
    · simp at h
    · rw [lines_of_notMem ha hnil,List.mem_singleton] at h
      exact h ▸ List.infix_rfl
  | hline a b ha ih =>
    rw [lines_append_sep ha,List.mem_cons] at h
    rcases h with rfl | h
    · exact (List.prefix_append l (sep::b)).isInfix
    · exact (ih h).trans ((List.suffix_cons sep b).trans (List.suffix_append a (sep::b))).isInfix

end Lines
end A9GTracker
