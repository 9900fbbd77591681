import Mathlib.Data.List.Basic
import Mathlib.Data.List.TakeWhile
import Mathlib.Tactic.Common

/-! Reading `application/x-www-form-urlencoded`: fields between `&`, a name and a value
around the first `=`, and in both `+` for a blank and `%` with two hex digits for a byte. -/
namespace A9GTracker
namespace FormUrlencoded

def hexDigit (c : UInt8) : Option UInt8 :=
  if 48 ≤ c ∧ c ≤ 57 then some (c-48)
  else if 65 ≤ c ∧ c ≤ 70 then some (c-55)
  else if 97 ≤ c ∧ c ≤ 102 then some (c-87)
  else none

/-- The byte behind a `%`. -/
def escaped : List UInt8 → Option UInt8
  | a::b::_ =>
    match hexDigit a, hexDigit b with
    | some x, some y => some (16*x+y)
    | _, _ => none
  | _ => none

def decode : List UInt8 → List UInt8
  | [] => []
  | [c] => [if c = 43 then 32 else c]
  | [c,d] => (if c = 43 then 32 else c)::decode [d]
  | c::d::e::s =>
    if c = 37 ∧ (escaped [d,e]).isSome then ((escaped [d,e]).getD 0)::decode s
    else (if c = 43 then 32 else c)::decode (d::e::s)

def readField (piece : List UInt8) : List UInt8 × List UInt8 :=
  (decode (piece.takeWhile (· ≠ 61)),decode ((piece.dropWhile (· ≠ 61)).drop 1))

/-- Empty pieces are skipped. -/
def parseForm (body : List UInt8) : List (List UInt8 × List UInt8) :=
  ((body.splitOn 38).filter (· ≠ [])).map readField

def Plain (s : List UInt8) : Prop :=
  43 ∉ s ∧ ∀ u v, s = u++37::v → escaped v = none

theorem escaped_cons_cons (d e : UInt8) (s : List UInt8) : escaped (d::e::s) = escaped [d,e] := rfl

theorem plain_cons (c : UInt8) (s : List UInt8) :
    Plain (c::s) ↔ c ≠ 43 ∧ (c = 37 → escaped s = none) ∧ Plain s := by
  constructor
  · rintro ⟨hplus,hesc⟩
    simp only [List.mem_cons,not_or] at hplus
    refine ⟨fun h => hplus.1 h.symm,?_,hplus.2,?_⟩
    · rintro rfl
      exact hesc [] s rfl
    · rintro u v rfl
      exact hesc (c::u) v rfl
  · rintro ⟨hc,hfirst,hplus,hesc⟩
    refine ⟨by simp [hplus,Ne.symm hc],?_⟩
    intro u v huv
    cases u with
    | nil =>
      obtain ⟨rfl,rfl⟩ := List.cons.inj huv
      exact hfirst rfl
    | cons x u =>
      obtain ⟨rfl,rfl⟩ := List.cons.inj huv
      exact hesc u v rfl

theorem plain_nil : Plain [] := ⟨by simp,fun u v h => by simp at h⟩

theorem decode_length_le (s : List UInt8) : (decode s).length ≤ s.length := by
  induction s using decode.induct with
  | case1 => simp [decode]
  | case2 c => simp [decode]
  | case3 c d ih =>
    simp only [decode,List.length_cons] at ih ⊢
    omega
  | case4 c d e s hesc ih =>
    rw [decode,if_pos hesc,List.length_cons]
    simp only [List.length_cons]
    omega
  | case5 c d e s hesc ih =>
    rw [decode,if_neg hesc]
    simp only [List.length_cons] at ih ⊢
    omega

theorem decode_cons_eq {c : UInt8} {s : List UInt8} (h : ¬ (c = 37 ∧ (escaped s).isSome)) :
    decode (c::s) = (if c = 43 then 32 else c)::decode s := by
  cases s with
  | nil => rfl
  | cons d s =>
    cases s with
    | nil => rfl
    | cons e s => rw [decode,if_neg (by rwa [← escaped_cons_cons d e s])]

theorem decode_eq_self_iff (s : List UInt8) : decode s = s ↔ Plain s := by
  induction s with
  | nil => exact iff_of_true rfl plain_nil
  | cons c s ih =>
    rw [plain_cons]
    by_cases hesc : c = 37 ∧ (escaped s).isSome
    · refine iff_of_false ?_ ?_
      · obtain ⟨rfl,hsome⟩ := hesc
        match s, hsome with
        | d::e::s, hsome =>
          intro heq
          have hl := congrArg List.length heq
          rw [decode,if_pos ⟨rfl,hsome⟩] at hl
          have hle := decode_length_le s
          simp only [List.length_cons] at hl
          omega
      · rintro ⟨-,hnone,-⟩
        rw [hnone hesc.1] at hesc
        exact absurd hesc.2 (by simp)
    · rw [decode_cons_eq hesc,List.cons.injEq,ih]
      by_cases hplus : c = 43
      · subst hplus
        simp
      · have hnone : c = 37 → escaped s = none := by
          intro hc
          have hno : ¬ (escaped s).isSome := fun h => hesc ⟨hc,h⟩
          simpa using hno
        rw [if_neg hplus]
        exact ⟨fun h => ⟨hplus,hnone,h.2⟩,fun h => ⟨rfl,h.2.2⟩⟩

theorem parseForm_intercalate {pieces : List (List UInt8)} (h : ∀ p ∈ pieces, 38 ∉ p)
    (hne : pieces ≠ []) :
    parseForm ([38].intercalate pieces) = (pieces.filter (· ≠ [])).map readField := by
  rw [parseForm,List.splitOn_intercalate 38 h hne]

theorem parseForm_append {piece : List UInt8} (h : 38 ∉ piece) (hne : piece ≠ [])
    (rest : List UInt8) : parseForm (piece++38::rest) = readField piece::parseForm rest := by
  rw [parseForm,List.splitOn_append_cons_self_of_not_mem h,List.filter_cons_of_pos (by simpa using hne)]
  rfl

theorem ne_equals {name : List UInt8} (h : 61 ∉ name) : ∀ x ∈ name, decide (x ≠ 61) = true := by
  intro x hx
  have hne : x ≠ 61 := fun heq => h (heq ▸ hx)
  simpa using hne

theorem readField_append {name : List UInt8} (h : 61 ∉ name) (value : List UInt8) :
    readField (name++61::value) = (decode name,decode value) := by
  rw [readField,List.takeWhile_append_of_pos (ne_equals h),
    List.dropWhile_append_of_pos (ne_equals h)]
  simp

theorem readField_of_notMem {name : List UInt8} (h : 61 ∉ name) :
    (readField name).1 = decode name := by
  rw [readField,List.takeWhile_eq_self_iff.mpr (ne_equals h)]

/-! ### Forms that are cut off -/

theorem takeWhile_prefix_mono {xs ys : List UInt8} (h : xs <+: ys) (f : UInt8 → Bool) :
    xs.takeWhile f <+: ys.takeWhile f := by
  obtain ⟨t,rfl⟩ := h
  rw [List.takeWhile_append]
  split_ifs
  · exact (List.takeWhile_prefix f).trans (List.prefix_append _ _)
  · exact List.prefix_refl _

/-- All pieces but the last are pieces of the whole text, the last one may be cut. -/
theorem splitOn_of_cut {xs ys : List UInt8} (h : xs <+: ys) (c : UInt8) :
    ∃ front cut piece rest, xs.splitOn c = front++[cut] ∧ ys.splitOn c = front++piece::rest ∧
      cut <+: piece := by
  induction xs generalizing ys with
  | nil =>
    obtain ⟨piece,rest,hys⟩ := List.exists_cons_of_ne_nil (List.splitOn_ne_nil c ys)
    exact ⟨[],[],piece,rest,rfl,hys,List.nil_prefix⟩
  | cons x xs ih =>
    obtain ⟨t,rfl⟩ := h
    obtain ⟨front,cut,piece,rest,hxs,hys,hcut⟩ := ih (List.prefix_append xs t)
    rw [List.cons_append,List.splitOn_cons_eq_if_modifyHead,List.splitOn_cons_eq_if_modifyHead,
      hxs,hys]
    by_cases hx : (x == c) = true
    · rw [if_pos hx,if_pos hx]
      exact ⟨[]::front,cut,piece,rest,rfl,rfl,hcut⟩
    · rw [if_neg hx,if_neg hx]
      cases front with
      | nil => exact ⟨[],x::cut,x::piece,rest,rfl,rfl,List.cons_prefix_cons.mpr ⟨rfl,hcut⟩⟩
      | cons first front => exact ⟨(x::first)::front,cut,piece,rest,rfl,rfl,hcut⟩

/-- The names in a form that is cut off begin like names of the whole form. -/
theorem parseForm_of_cut {xs : List UInt8} {pieces : List (List UInt8)}
    (h : ∀ p ∈ pieces, 38 ∉ p) (hne : pieces ≠ []) (hxs : xs <+: [38].intercalate pieces)
    {name value : List UInt8} (hmem : (name,value) ∈ parseForm xs) :
    ∃ p ∈ pieces, ∃ s, s <+: p.takeWhile (· ≠ 61) ∧ decode s = name := by
  obtain ⟨front,cut,piece,rest,hsplit,hwhole,hcut⟩ := splitOn_of_cut hxs 38
  rw [List.splitOn_intercalate 38 h hne] at hwhole
  obtain ⟨q,hq,hfield⟩ := List.mem_map.mp hmem
  rw [hsplit] at hq
  have hname : decode (q.takeWhile (· ≠ 61)) = name := congrArg Prod.fst hfield
  rw [hwhole]
  rcases List.mem_append.mp (List.mem_of_mem_filter hq) with hq | hq
  · exact ⟨q,by simp [hq],_,List.prefix_refl _,hname⟩
  · obtain rfl := List.mem_singleton.mp hq
    exact ⟨piece,by simp,_,takeWhile_prefix_mono hcut _,hname⟩

end FormUrlencoded
end A9GTracker
