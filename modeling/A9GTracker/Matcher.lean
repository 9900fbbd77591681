import A9GTracker.Search

/-! When the one-pass matcher finds the first occurrence. It never goes back, so it misses an
occurrence that starts inside a beginning of the pattern which it follows in vain. -/
namespace A9GTracker
namespace Search

variable {α : Type}

/-- The first `n` symbols can be cut into symbols other than the first one of the pattern and
beginnings of the pattern that the next symbol does not continue. -/
inductive PassesOver (p : List α) : List α → ℕ → Prop
  | nothing (xs : List α) : PassesOver p xs 0
  | symbol {y : α} {ys : List α} {n : ℕ} (hy : p[0]? ≠ some y) (h : PassesOver p ys n) :
      PassesOver p (y::ys) (n+1)
  | beginning {k : ℕ} {y : α} {ys : List α} {n : ℕ} (hk : 0 < k) (hlt : k < p.length)
      (hy : p[k]? ≠ some y) (h : PassesOver p (y::ys) n) :
      PassesOver p (p.take k++y::ys) (n+k)

variable [DecidableEq α] {p : List α}

theorem scan_take (k m : ℕ) (hk : k+m < p.length) (zs : List α) :
    scan p ((p.drop k).take m++zs) k = scan p zs (k+m) := by
  induction m generalizing k with
  | zero => rfl
  | succ m ih =>
    have hlt : k < p.length := by omega
    rw [List.drop_eq_getElem_cons hlt,List.take_succ_cons,List.cons_append,scan,
      if_pos (List.getElem?_eq_getElem hlt),if_neg (by omega),ih (k+1) (by omega)]
    congr 1
    omega

theorem scan_beginning {k : ℕ} {y : α} (hk : 0 < k) (hlt : k < p.length) (hy : p[k]? ≠ some y)
    (ys : List α) : scan p (p.take k++y::ys) 0 = (scan p (y::ys) 0).map (·+k) := by
  have htake := scan_take (p := p) 0 k (by omega) (y::ys)
  rw [List.drop_zero,Nat.zero_add] at htake
  rw [htake,scan,if_neg hy,scan]
  by_cases h0 : p[0]? = some y
  · rw [if_pos h0,if_pos h0,if_neg (by omega),if_neg (by omega)]
  · rw [if_neg h0,if_neg h0,if_neg h0,Option.map_map]
    congr 1
    funext i
    simp only [Function.comp_apply]
    omega

theorem scan_of_passesOver {xs : List α} {n : ℕ} (h : PassesOver p xs n) :
    scan p xs 0 = (scan p (xs.drop n) 0).map (·+n) := by
  induction h with
  | nothing xs => simp
  | symbol hy h ih =>
    rw [scan,if_neg hy,if_neg hy,ih,List.drop_succ_cons,Option.map_map]
    congr 1
  | @beginning k y ys n hk hlt hy h ih =>
    have hlen : (p.take k).length = k := by
      rw [List.length_take]
      omega
    rw [scan_beginning hk hlt hy,ih,Option.map_map,Nat.add_comm n k,← List.drop_drop,
      List.drop_left' hlen]
    congr 1
    funext i
    simp only [Function.comp_apply]
    omega

theorem scan_of_begins {xs : List α} (hp : p ≠ []) (h : p <+: xs) : scan p xs 0 = some 0 := by
  obtain ⟨zs,rfl⟩ := h
  have hpos := List.length_pos_iff.2 hp
  have hlast : p.length-1 < p.length := by omega
  have hsplit : p = p.take (p.length-1)++[p[p.length-1]] := by
    rw [List.take_append_getElem hlast,Nat.sub_add_cancel hpos,List.take_length]
  have htake := scan_take (p := p) 0 (p.length-1) (by omega) ([p[p.length-1]]++zs)
  rw [List.drop_zero,Nat.zero_add,← List.append_assoc,← hsplit] at htake
  rw [htake,List.singleton_append,scan,if_pos (List.getElem?_eq_getElem hlast),
    if_pos (Nat.sub_add_cancel hpos)]

/-- What the matcher finds is an occurrence behind symbols that are passed over. -/
theorem passesOver_of_scan {ys : List α} {k i : ℕ} (hk : k < p.length)
    (h : scan p ys k = some i) :
    PassesOver p (p.take k++ys) i ∧ Occurs p (p.take k++ys) i := by
  induction ys generalizing k i with
  | nil => simp [scan] at h
  | cons y ys ih =>
    have hlen : (p.take k).length = k := by
      rw [List.length_take]
      omega
    rw [scan] at h
    split_ifs at h with hy hlast h0 hone
    · obtain rfl := Option.some.inj h
      refine ⟨.nothing _,occurs_zero.2 ?_⟩
      rw [take_append_of_match hk hy,hlast,List.take_length]
      exact List.prefix_append p ys
    · rw [take_append_of_match hk hy]
      exact ih (by omega) h
    · -- with a single symbol nothing is matched that could fail
      obtain rfl : k = 0 := by omega
      exact absurd h0 hy
    · obtain ⟨j,hj,rfl⟩ := Option.map_eq_some_iff.1 h
      obtain ⟨hpass,hoccurs⟩ := ih (by omega) hj
      have hfirst : p.take 1++ys = y::ys := (take_append_of_match (by omega) h0).symm
      rw [hfirst] at hpass hoccurs
      rcases Nat.eq_zero_or_pos k with rfl | hpos
      · exact absurd h0 hy
      · refine ⟨.beginning hpos hk hy hpass,?_⟩
        rwa [Occurs,Nat.add_comm,← List.drop_drop,List.drop_left' hlen]
    · obtain ⟨j,hj,rfl⟩ := Option.map_eq_some_iff.1 h
      obtain ⟨hpass,hoccurs⟩ := ih (by omega) hj
      rw [List.take_zero,List.nil_append] at hpass hoccurs
      have hstep := PassesOver.symbol h0 hpass
      have hnext : Occurs p (y::ys) (j+1) := occurs_cons_succ.2 hoccurs
      rcases Nat.eq_zero_or_pos k with rfl | hpos
      · exact ⟨hstep,hnext⟩
      · rw [show j+(k+1) = j+1+k by omega]
        refine ⟨.beginning hpos hk hy hstep,?_⟩
        rwa [Occurs,Nat.add_comm,← List.drop_drop,List.drop_left' hlen]

/-- The matcher finds the first occurrence exactly when it passes over what stands in front
of it. -/
theorem scan_eq_find_iff (hp : p ≠ []) (xs : List α) :
    scan p xs 0 = find p xs ↔ ∀ i, find p xs = some i → PassesOver p xs i := by
  have hpos := List.length_pos_iff.2 hp
  constructor
  · intro heq i hi
    rw [← heq] at hi
    exact (passesOver_of_scan hpos hi).1
  · intro hpass
    cases hfind : find p xs with
    | some i =>
      have hbegins : scan p (xs.drop i) 0 = some 0 := scan_of_begins hp (find_spec hfind).1
      rw [scan_of_passesOver (hpass i hfind),hbegins,Option.map_some,Nat.zero_add]
    | none =>
      cases hscan : scan p xs 0 with
      | none => rfl
      | some i => exact absurd (passesOver_of_scan hpos hscan).2 (find_none hfind i)

end Search
end A9GTracker
