import Mathlib.Data.List.Basic
import Mathlib.Data.List.Count
import Mathlib.Data.List.Dedup
import Mathlib.Data.List.Nodup
import Mathlib.Order.Basic
import Mathlib.Tactic.Common
import A9GTracker.Loop

/-! Items handed over one after another, each tried again until it is taken, up to a limit of
refusals in a row. -/
namespace A9GTracker
namespace Retry

variable {α : Type}

/-! ### Attempts -/

/-- The items from number `k` on, each tried the given number of times. -/
def attempts (item : ℕ → α) : ℕ → List ℕ → List α
  | _, [] => []
  | k, n::tries => List.replicate n (item k)++attempts item (k+1) tries

theorem attempts_append (item : ℕ → α) (k : ℕ) (tries tries' : List ℕ) :
    attempts item k (tries++tries') =
      attempts item k tries++attempts item (k+tries.length) tries' := by
  induction tries generalizing k with
  | nil => rfl
  | cons n tries ih =>
    rw [List.cons_append,attempts,attempts,ih,List.append_assoc,List.length_cons,Nat.add_assoc,
      Nat.add_comm 1]

theorem attempts_concat (item : ℕ → α) (tries : List ℕ) (n : ℕ) :
    attempts item 0 (tries++[n]) =
      attempts item 0 tries++List.replicate n (item tries.length) := by
  rw [attempts_append,Nat.zero_add,attempts,attempts,List.append_nil]

theorem mem_attempts {item : ℕ → α} {k : ℕ} {tries : List ℕ} (hpos : ∀ n ∈ tries, 1 ≤ n) {x : α} :
    x ∈ attempts item k tries ↔ ∃ i < tries.length, item (k+i) = x := by
  induction tries generalizing k with
  | nil => simp [attempts]
  | cons n tries ih =>
    have hn := hpos n (by simp)
    rw [attempts,List.mem_append,List.mem_replicate,ih fun m hm => hpos m (by simp [hm])]
    constructor
    · rintro (⟨-,rfl⟩ | ⟨i,hi,rfl⟩)
      · exact ⟨0,by simp,rfl⟩
      · exact ⟨i+1,by simpa using hi,by rw [Nat.add_right_comm,Nat.add_assoc]⟩
    · rintro ⟨i,hi,rfl⟩
      cases i with
      | zero => exact Or.inl ⟨by omega,rfl⟩
      | succ i => exact Or.inr ⟨i,by simpa using hi,by rw [Nat.add_right_comm,Nat.add_assoc]⟩

def Distinct (item : ℕ → α) (k n : ℕ) : Prop := ∀ i < n, ∀ j < n, item (k+i) = item (k+j) → i = j

theorem Distinct.tail {item : ℕ → α} {k n : ℕ} (h : Distinct item k (n+1)) :
    Distinct item (k+1) n := by
  intro i hi j hj hij
  have heq := h (i+1) (by omega) (j+1) (by omega) (by
    simpa only [Nat.add_assoc,Nat.add_comm 1] using hij)
  omega

theorem Distinct.notMem {item : ℕ → α} {k : ℕ} {n : ℕ} {tries : List ℕ}
    (h : Distinct item k (n::tries).length) (hpos : ∀ m ∈ tries, 1 ≤ m) :
    item k ∉ attempts item (k+1) tries := by
  rw [mem_attempts hpos]
  rintro ⟨i,hi,heq⟩
  have hzero := h (i+1) (by simpa using hi) 0 (by simp) (by
    simpa only [Nat.add_zero,Nat.add_assoc,Nat.add_comm 1] using heq)
  omega

theorem count_attempts_le [BEq α] [LawfulBEq α] {item : ℕ → α} {k m : ℕ} {tries : List ℕ}
    (htries : ∀ n ∈ tries, 1 ≤ n ∧ n ≤ m) (hdistinct : Distinct item k tries.length) (x : α) :
    (attempts item k tries).count x ≤ m := by
  induction tries generalizing k with
  | nil => simp [attempts]
  | cons n tries ih =>
    have htries' : ∀ j ∈ tries, 1 ≤ j ∧ j ≤ m := fun j hj => htries j (by simp [hj])
    have hnot := hdistinct.notMem fun j hj => (htries' j hj).1
    rw [attempts,List.count_append,List.count_replicate]
    by_cases hx : item k = x
    · subst hx
      rw [List.count_eq_zero.2 hnot]
      simpa using (htries n (by simp)).2
    · rw [if_neg (by simpa using hx),Nat.zero_add]
      exact ih htries' hdistinct.tail

variable [DecidableEq α]

theorem dedup_attempts {item : ℕ → α} {k : ℕ} {tries : List ℕ} (hpos : ∀ n ∈ tries, 1 ≤ n)
    (hdistinct : Distinct item k tries.length) :
    (attempts item k tries).dedup = (List.range tries.length).map fun i => item (k+i) := by
  induction tries generalizing k with
  | nil => rfl
  | cons n tries ih =>
    have hpos' : ∀ m ∈ tries, 1 ≤ m := fun m hm => hpos m (by simp [hm])
    have hnot := hdistinct.notMem hpos'
    have hn := hpos n (by simp)
    have hblock : ∀ m l, item k ∉ l →
        (List.replicate (m+1) (item k)++l).dedup = item k::l.dedup := by
      intro m l hl
      induction m with
      | zero => exact List.dedup_cons_of_notMem hl
      | succ m ihm =>
        rw [List.replicate_succ,List.cons_append,List.dedup_cons_of_mem (by simp),ihm]
    obtain ⟨m,rfl⟩ := Nat.exists_eq_add_of_le' hn
    rw [attempts,hblock m _ hnot,ih hpos' hdistinct.tail,List.length_cons,
      List.range_succ_eq_map,List.map_cons,List.map_map]
    simp only [Nat.add_zero,List.cons.injEq,true_and]
    refine List.map_congr_left fun i _ => ?_
    simp only [Function.comp_apply,Nat.succ_eq_add_one]
    rw [Nat.add_assoc,Nat.add_comm 1]

/-! ### The loop -/

omit [DecidableEq α]

structure RetryState (α : Type) where
  index : ℕ
  fails : ℕ
  sent : List α

structure RetryResult (α : Type) where
  ok : Bool
  sent : List α

/-- One attempt. The loop ends when item `last` is taken, or with more than `limit` refusals in
a row; the `t`-th attempt of all is taken when `answers t` says so. -/
def retryBody (item : ℕ → α) (last limit : ℕ) (answers : ℕ → Bool) (st : RetryState α) :
    Loop.Step (RetryState α) (RetryResult α) :=
  let sent := st.sent++[item st.index]
  if answers st.sent.length then
    if last ≤ st.index then .done ⟨true,sent⟩ else .next ⟨st.index+1,0,sent⟩
  else if st.fails+1 > limit then .done ⟨false,sent⟩
  else .next ⟨st.index,st.fails+1,sent⟩

/-- How many of the first `t` answers take an item. -/
def taken (answers : ℕ → Bool) (t : ℕ) : ℕ := (List.range t).countP answers

/-- More than `limit` refusals from the `t`-th answer on. -/
def RefusedAt (limit : ℕ) (answers : ℕ → Bool) (t : ℕ) : Prop := ∀ j ≤ limit, answers (t+j) = false

theorem taken_succ (answers : ℕ → Bool) (t : ℕ) :
    taken answers (t+1) = taken answers t+(if answers t then 1 else 0) := by
  rw [taken,taken,List.range_succ,List.countP_append,List.countP_singleton]

theorem taken_mono (answers : ℕ → Bool) {s t : ℕ} (h : s ≤ t) : taken answers s ≤ taken answers t := by
  induction h with
  | refl => exact le_rfl
  | step _ ih =>
    rw [taken_succ]
    exact Nat.le_add_right_of_le ih

theorem taken_refused {limit : ℕ} {answers : ℕ → Bool} {t : ℕ} (h : RefusedAt limit answers t) :
    ∀ j ≤ limit+1, taken answers (t+j) = taken answers t := by
  intro j hj
  induction j with
  | zero => rfl
  | succ j ih =>
    rw [← Nat.add_assoc,taken_succ,h j (by omega),ih (by omega)]
    rfl

section
variable (item : ℕ → α) (last limit : ℕ) (answers : ℕ → Bool)

/-- What the log says at the head of the loop. -/
structure Trying (tries : List ℕ) (st : RetryState α) : Prop where
  index : tries.length = st.index
  index_le : st.index ≤ last
  tried : ∀ n ∈ tries, 1 ≤ n ∧ n ≤ limit+1
  fails : st.fails ≤ limit
  sent : st.sent = attempts item 0 tries++List.replicate st.fails (item st.index)
  taken : taken answers st.sent.length = st.index
  fails_le : st.fails ≤ st.sent.length
  trailing : ∀ j, st.sent.length-st.fails ≤ j → j < st.sent.length → answers j = false
  before : st.fails = st.sent.length ∨ answers (st.sent.length-st.fails-1) = true
  going : ∀ t, RefusedAt limit answers t → st.sent.length < t+limit+1

/-- What it says in the end. -/
structure Outcome (r : RetryResult α) : Prop where
  tries : ∃ tries, r.sent = attempts item 0 tries ∧ (∀ n ∈ tries, 1 ≤ n ∧ n ≤ limit+1) ∧
    tries.length ≤ last+1 ∧
    (r.ok = true → tries.length = last+1 ∧ Retry.taken answers r.sent.length = last+1) ∧
    (r.ok = false → ∃ t, t+limit+1 = r.sent.length ∧ RefusedAt limit answers t ∧
      Retry.taken answers t+1 = tries.length)
  refused : ∀ t, RefusedAt limit answers t → r.sent.length ≤ t+limit+1

theorem trying_start : Trying item last limit answers [] ⟨0,0,[]⟩ where
  index := rfl
  index_le := Nat.zero_le _
  tried := by simp
  fails := Nat.zero_le _
  sent := rfl
  taken := rfl
  fails_le := le_rfl
  trailing := by simp
  before := Or.inl rfl
  going := fun t _ => by simp

variable {item last limit answers} {tries : List ℕ} {st : RetryState α}

theorem Trying.sent_concat (h : Trying item last limit answers tries st) :
    st.sent++[item st.index] = attempts item 0 (tries++[st.fails+1]) ∧
      st.sent++[item st.index] =
        attempts item 0 tries++List.replicate (st.fails+1) (item st.index) := by
  rw [attempts_concat,h.index,h.sent,List.replicate_succ',← List.append_assoc]
  exact ⟨rfl,rfl⟩

theorem Trying.tried_concat (h : Trying item last limit answers tries st) :
    ∀ n ∈ tries++[st.fails+1], 1 ≤ n ∧ n ≤ limit+1 := by
  intro n hn
  rw [List.mem_append,List.mem_singleton] at hn
  rcases hn with hn | rfl
  · exact h.tried n hn
  · exact ⟨Nat.le_add_left _ _,Nat.succ_le_succ h.fails⟩

theorem Trying.taken_next (h : Trying item last limit answers tries st)
    (hanswer : answers st.sent.length = true) (hindex : st.index ≠ last) :
    Trying item last limit answers (tries++[st.fails+1])
      ⟨st.index+1,0,st.sent++[item st.index]⟩ where
  index := by rw [List.length_append,h.index]; rfl
  index_le := Nat.lt_of_le_of_ne h.index_le hindex
  tried := h.tried_concat
  fails := Nat.zero_le _
  sent := by rw [h.sent_concat.1]; simp
  taken := by
    rw [List.length_append,List.length_singleton,taken_succ,h.taken,if_pos hanswer]
  fails_le := Nat.zero_le _
  trailing := fun j hlow hhigh => by simp only at hlow hhigh; omega
  before := by
    rw [List.length_append,List.length_singleton]
    exact Or.inr hanswer
  going := fun t ht => by
    have hlt := h.going t ht
    rw [List.length_append,List.length_singleton]
    by_contra hnot
    have hlast := ht limit le_rfl
    rw [(by omega : t+limit = st.sent.length),hanswer] at hlast
    cases hlast

theorem Trying.refused_next (h : Trying item last limit answers tries st)
    (hanswer : answers st.sent.length = false) (hfails : st.fails+1 ≤ limit) :
    Trying item last limit answers tries ⟨st.index,st.fails+1,st.sent++[item st.index]⟩ where
  index := h.index
  index_le := h.index_le
  tried := h.tried
  fails := hfails
  sent := h.sent_concat.2
  taken := by
    rw [List.length_append,List.length_singleton,taken_succ,h.taken,hanswer]
    rfl
  fails_le := by
    rw [List.length_append,List.length_singleton]
    exact Nat.succ_le_succ h.fails_le
  trailing := fun j hlow hhigh => by
    rw [List.length_append,List.length_singleton] at hlow hhigh
    rcases Nat.lt_succ_iff_lt_or_eq.1 hhigh with hlt | rfl
    · exact h.trailing j (by simp only at hlow; omega) hlt
    · exact hanswer
  before := by
    rw [List.length_append,List.length_singleton]
    rcases h.before with heq | htrue
    · exact Or.inl (congrArg Nat.succ heq)
    · refine Or.inr ?_
      rw [Nat.add_sub_add_right]
      exact htrue
  going := fun t ht => by
    have hlt := h.going t ht
    have hle := h.fails_le
    rw [List.length_append,List.length_singleton]
    by_contra hnot
    rcases h.before with heq | htrue
    · omega
    · -- the answer in front of the refusals would be one of them
      have hfalse := ht (st.sent.length-st.fails-1-t) (by omega)
      rw [(by omega : t+(st.sent.length-st.fails-1-t) = st.sent.length-st.fails-1),htrue] at hfalse
      cases hfalse

theorem Trying.taken_done (h : Trying item last limit answers tries st)
    (hanswer : answers st.sent.length = true) (hindex : st.index = last) :
    Outcome item last limit answers ⟨true,st.sent++[item st.index]⟩ where
  tries := by
    have hlength : (tries++[st.fails+1]).length = last+1 := by
      rw [List.length_append,h.index,hindex]
      rfl
    refine ⟨_,h.sent_concat.1,h.tried_concat,hlength.le,fun _ => ⟨hlength,?_⟩,fun hok => by cases hok⟩
    rw [List.length_append,List.length_singleton,taken_succ,h.taken,if_pos hanswer,hindex]
  refused := fun t ht => by
    have hlt := h.going t ht
    rw [List.length_append,List.length_singleton]
    omega

theorem Trying.refused_done (h : Trying item last limit answers tries st)
    (hanswer : answers st.sent.length = false) (hfails : st.fails+1 > limit) :
    Outcome item last limit answers ⟨false,st.sent++[item st.index]⟩ where
  tries := by
    have hlimit : st.fails = limit := by
      have hle := h.fails
      omega
    have hle := h.fails_le
    have hlength : (tries++[st.fails+1]).length = st.index+1 := by
      rw [List.length_append,h.index]
      rfl
    have hrefused : RefusedAt limit answers (st.sent.length-limit) := by
      intro j hj
      rcases hj.lt_or_eq with hlt | rfl
      · exact h.trailing _ (by omega) (by omega)
      · rw [Nat.sub_add_cancel (by omega)]
        exact hanswer
    have htaken := taken_refused hrefused limit (by omega)
    rw [Nat.sub_add_cancel (by omega),h.taken] at htaken
    refine ⟨_,h.sent_concat.1,h.tried_concat,?_,fun hok => absurd hok Bool.false_ne_true,fun _ =>
      ⟨st.sent.length-limit,?_,hrefused,?_⟩⟩
    · rw [hlength]
      exact Nat.succ_le_succ h.index_le
    · rw [List.length_append,List.length_singleton]
      omega
    · rw [hlength,← htaken]
  refused := fun t ht => by
    have hlt := h.going t ht
    rw [List.length_append,List.length_singleton]
    omega

end

theorem run_retryBody (item : ℕ → α) (last limit : ℕ) (answers : ℕ → Bool) :
    ∃ fuel r, Loop.run (retryBody item last limit answers) fuel ⟨0,0,[]⟩ = some r ∧
      Outcome item last limit answers r := by
  have hnext : ∀ st st', (∃ tries, Trying item last limit answers tries st) →
      retryBody item last limit answers st = .next st' →
      (∃ tries, Trying item last limit answers tries st') ∧
        (last-st'.index)*(limit+1)+(limit-st'.fails) <
          (last-st.index)*(limit+1)+(limit-st.fails) := by
    rintro st st' ⟨tries,h⟩ hb
    have hle := h.index_le
    have hfails := h.fails
    simp only [retryBody] at hb
    split_ifs at hb with hanswer hindex hlimit
    · cases hb
      refine ⟨⟨_,h.taken_next hanswer fun heq => hindex heq.ge⟩,?_⟩
      obtain ⟨d,hd⟩ := Nat.exists_eq_add_of_lt (not_le.1 hindex)
      have hleft : last-st.index = d+1 := by omega
      have hright : last-(st.index+1) = d := by omega
      simp only [hleft,hright,Nat.add_mul]
      omega
    · cases hb
      refine ⟨⟨_,h.refused_next (by simpa using hanswer) (by omega)⟩,?_⟩
      simp only
      omega
  have hdone : ∀ st r, (∃ tries, Trying item last limit answers tries st) →
      retryBody item last limit answers st = .done r → Outcome item last limit answers r := by
    rintro st r ⟨tries,h⟩ hb
    simp only [retryBody] at hb
    split_ifs at hb with hanswer hindex hlimit
    · cases hb
      exact h.taken_done hanswer (le_antisymm h.index_le hindex)
    · cases hb
      exact h.refused_done (by simpa using hanswer) hlimit
  obtain ⟨r,hrun,hr⟩ := Loop.run_total _ _ (fun st => (last-st.index)*(limit+1)+(limit-st.fails))
    hnext hdone ⟨0,0,[]⟩ ⟨[],trying_start item last limit answers⟩
  exact ⟨_,r,hrun,hr⟩

end Retry
end A9GTracker
