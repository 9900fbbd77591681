import Mathlib.Data.List.Basic
import Mathlib.Data.List.DropRight
import Mathlib.Tactic.Common
import A9GTracker.CString

/-! The string helpers of `app/src/utils.c` and the `strtol` of the SDK
(`libs/utils/src/stdlib.c`), which every caller uses in base 10. -/
namespace A9GTracker
namespace Utils

open CString

/-- `str_case_cmp`; the terminator of the shorter string takes part in the comparison. -/
def strCaseCmp : List UInt8 → List UInt8 → ℤ
  | [], [] => 0
  | [], b::_ => -(tolower b).toNat
  | a::_, [] => (tolower a).toNat
  | a::s1, b::s2 =>
    if tolower a ≠ tolower b then ((tolower a).toNat : ℤ)-(tolower b).toNat
    else strCaseCmp s1 s2

/-- `trim_whitespace`. The guard that stops the trailing loop at the first character never
decides: that character is no white space here. -/
def trimWhitespace (str : List UInt8) : List UInt8 :=
  let str := str.dropWhile isspace
  if str = [] then str else str.rdropWhile isspace

theorem tolower_of_isspace {c : UInt8} (h : isspace c = true) : tolower c = c := by
  refine if_neg fun hup => ?_
  rw [isspace_iff] at h
  rw [isupper_iff] at hup
  omega

theorem tolower_eq_zero {c : UInt8} (h : tolower c = 0) : c = 0 := by
  unfold tolower at h
  split_ifs at h with hup
  · have hsum := congrArg UInt8.toNat h
    rw [isupper_iff] at hup
    simp only [UInt8.toNat_add] at hsum
    have hmod : (c.toNat+32) % 256 = 0 := hsum
    omega
  · exact h

theorem strCaseCmp_eq_zero {s t : List UInt8} (hs : (0 : UInt8) ∉ s) (ht : (0 : UInt8) ∉ t) :
    strCaseCmp s t = 0 ↔ s.map tolower = t.map tolower := by
  induction s generalizing t with
  | nil =>
    cases t with
    | nil => simp [strCaseCmp]
    | cons b t =>
      have hb : tolower b ≠ 0 := fun h => ht (by simp [tolower_eq_zero h])
      have hb' : (tolower b).toNat ≠ 0 := fun h => hb (UInt8.toNat_inj.mp h)
      simp [strCaseCmp,hb']
  | cons a s ih =>
    cases t with
    | nil =>
      have ha : tolower a ≠ 0 := fun h => hs (by simp [tolower_eq_zero h])
      have ha' : (tolower a).toNat ≠ 0 := fun h => ha (UInt8.toNat_inj.mp h)
      simp [strCaseCmp,ha']
    | cons b t =>
      simp only [List.mem_cons,not_or] at hs ht
      rw [strCaseCmp,List.map_cons,List.map_cons,List.cons.injEq]
      by_cases heq : tolower a = tolower b
      · rw [if_neg (by simp [heq]),ih hs.2 ht.2]
        simp [heq]
      · rw [if_pos heq]
        refine iff_of_false ?_ (fun h => heq h.1)
        intro h
        exact heq (UInt8.toNat_inj.mp (by omega))

def AllBlank (s : List UInt8) : Prop := ∀ c ∈ s, isspace c = true

theorem trimWhitespace_eq (s : List UInt8) :
    trimWhitespace s = (s.dropWhile isspace).rdropWhile isspace := by
  simp only [trimWhitespace]
  split_ifs with h <;> simp [h]

theorem trimWhitespace_append_left {ws : List UInt8} (h : AllBlank ws) (s : List UInt8) :
    trimWhitespace (ws++s) = trimWhitespace s := by
  rw [trimWhitespace_eq,trimWhitespace_eq,List.dropWhile_append_of_pos h]

theorem trimWhitespace_cons {c : UInt8} (h : isspace c = true) (s : List UInt8) :
    trimWhitespace (c::s) = trimWhitespace s := by
  rw [trimWhitespace_eq,trimWhitespace_eq,List.dropWhile_cons_of_pos h]

theorem trimWhitespace_concat {c : UInt8} (h : isspace c = true) (s : List UInt8) :
    trimWhitespace (s++[c]) = trimWhitespace s := by
  rw [trimWhitespace_eq,trimWhitespace_eq,List.dropWhile_append]
  split_ifs with hnil
  · simp [List.isEmpty_iff.1 hnil,h]
  · rw [List.rdropWhile_concat_pos _ _ _ h]

theorem trimWhitespace_append_right {ws : List UInt8} (h : AllBlank ws) (s : List UInt8) :
    trimWhitespace (s++ws) = trimWhitespace s := by
  induction ws generalizing s with
  | nil => simp
  | cons c ws ih =>
    rw [List.append_cons,ih fun c' hc' => h c' (by simp [hc']),trimWhitespace_concat (h c (by simp))]

theorem exists_blanks_trimWhitespace (s : List UInt8) :
    ∃ ws ws', AllBlank ws ∧ AllBlank ws' ∧ s = ws++trimWhitespace s++ws' := by
  refine ⟨s.takeWhile isspace,(s.dropWhile isspace).rtakeWhile isspace,
    fun c hc => List.mem_takeWhile_imp hc,fun c hc => List.mem_rtakeWhile_imp hc,?_⟩
  rw [trimWhitespace_eq,List.append_assoc,List.rdropWhile_append_rtakeWhile,
    List.takeWhile_append_dropWhile]

theorem mem_of_mem_trimWhitespace {s : List UInt8} {c : UInt8} (h : c ∈ trimWhitespace s) :
    c ∈ s := by
  obtain ⟨ws,ws',-,-,hs⟩ := exists_blanks_trimWhitespace s
  rw [hs]
  simp [h]

@[simp] theorem trimWhitespace_trimWhitespace (s : List UInt8) :
    trimWhitespace (trimWhitespace s) = trimWhitespace s := by
  obtain ⟨ws,ws',hws,hws',hs⟩ := exists_blanks_trimWhitespace s
  conv_rhs => rw [hs,trimWhitespace_append_right hws',trimWhitespace_append_left hws]

theorem trimWhitespace_eq_nil {s : List UInt8} : trimWhitespace s = [] ↔ AllBlank s := by
  constructor
  · intro h
    obtain ⟨ws,ws',hws,hws',hs⟩ := exists_blanks_trimWhitespace s
    rw [h,List.append_nil] at hs
    intro c hc
    rw [hs] at hc
    rcases List.mem_append.1 hc with hc | hc
    · exact hws c hc
    · exact hws' c hc
  · intro h
    simpa [trimWhitespace] using trimWhitespace_append_left h []

theorem trimWhitespace_of_ends {s : List UInt8} (hhead : ∀ c ∈ s.head?, isspace c = false)
    (hlast : ∀ c ∈ s.getLast?, isspace c = false) : trimWhitespace s = s := by
  have hdrop : s.dropWhile isspace = s := by
    cases s with
    | nil => rfl
    | cons c s => simp [hhead c rfl]
  rw [trimWhitespace_eq,hdrop,List.rdropWhile_eq_self_iff]
  intro hne
  simp [hlast _ (List.getLast?_eq_some_getLast hne)]

theorem isspace_of_head_trimWhitespace {s : List UInt8} {c : UInt8}
    (h : (trimWhitespace s).head? = some c) : isspace c = false := by
  have hhead := List.head?_dropWhile_not isspace s
  obtain ⟨t,ht⟩ := List.rdropWhile_prefix isspace (s.dropWhile isspace)
  rw [← ht,List.head?_append,← trimWhitespace_eq,h] at hhead
  exact hhead

theorem isspace_of_getLast_trimWhitespace {s : List UInt8} {c : UInt8}
    (h : (trimWhitespace s).getLast? = some c) : isspace c = false := by
  rw [trimWhitespace_eq] at h
  have hne : (s.dropWhile isspace).rdropWhile isspace ≠ [] := by
    intro hnil
    simp [hnil] at h
  have hlast := List.rdropWhile_last_not isspace (s.dropWhile isspace) hne
  rw [List.getLast?_eq_some_getLast hne,Option.some.injEq] at h
  simpa [h] using hlast

/-- A text that does not end in a blank is its trimmed text behind blanks. -/
theorem exists_blanks_of_getLast {s : List UInt8} (hne : s ≠ [])
    (hlast : ∀ c ∈ s.getLast?, isspace c = false) :
    trimWhitespace s ≠ [] ∧ ∃ ws, AllBlank ws ∧ s = ws++trimWhitespace s := by
  obtain ⟨ws,ws',hws,hws',hs⟩ := exists_blanks_trimWhitespace s
  have hend : ∀ bs, AllBlank bs → ∀ h : bs ≠ [], s.getLast? ≠ some (bs.getLast h) := by
    intro bs hbs h heq
    have hblank := hbs _ (List.getLast_mem h)
    rw [hlast _ heq] at hblank
    exact absurd hblank (by decide)
  have hnil : ws' = [] := by
    by_contra hws'ne
    refine hend ws' hws' hws'ne ?_
    rw [hs,List.getLast?_append_of_ne_nil _ hws'ne,List.getLast?_eq_some_getLast hws'ne]
  rw [hnil,List.append_nil] at hs
  refine ⟨fun htrim => ?_,ws,hws,hs⟩
  exact hend s (trimWhitespace_eq_nil.1 htrim) hne (List.getLast?_eq_some_getLast hne)

theorem exists_blanks_behind {s pre t : List UInt8} (h : trimWhitespace s = pre++32::t) :
    trimWhitespace t ≠ [] ∧ ∃ ws, AllBlank ws ∧ t = ws++trimWhitespace t := by
  have hlast : ∀ c ∈ (32::t).getLast?, isspace c = false := by
    intro c hc
    refine isspace_of_getLast_trimWhitespace (s := s) ?_
    rw [h,List.getLast?_append_of_ne_nil _ (List.cons_ne_nil _ _)]
    exact hc
  have hne : t ≠ [] := by
    rintro rfl
    exact absurd (hlast 32 rfl) (by decide)
  exact exists_blanks_of_getLast hne fun c hc => hlast c (by rwa [List.getLast?_cons_of_ne_nil hne])

/-! ### `strtol` -/

def longMax : ℤ := 2147483647
def longMin : ℤ := -2147483646

def wrap32 (n : ℤ) : ℤ := (n+2147483648) % 4294967296-2147483648

theorem wrap32_of_range {n : ℤ} (hlow : -2147483648 ≤ n) (hhigh : n ≤ 2147483647) :
    wrap32 n = n := by
  unfold wrap32
  omega

def charToInt (c : UInt8) : ℤ := if c.toNat < 128 then (c.toNat : ℤ) else (c.toNat : ℤ)-256

/-- What a digit or a letter counts. A letter above 127 counts less than nothing. -/
def digitOf (c : UInt8) : ℤ :=
  if isdigit c then charToInt c-48 else charToInt c-(if isupper c then 55 else 87)

/-- Whether the digit loop goes on; the letters of ASCII count ten and more and end it. -/
def isNumeric (c : UInt8) : Bool := (isdigit c || isalpha c) && digitOf c < 10

/-- The digit loop: the value so far, an `unsigned long`, and whether a digit was seen and none
overflowed. -/
structure Digits where
  ret : ℕ
  flag : ℤ

def digitStep (overflow : ℕ) (d : Digits) (c : UInt8) : Digits :=
  let ch := digitOf c
  if d.flag < 0 ∨ d.ret > overflow / 10 ∨ d.ret = overflow / 10 ∧ ch > (overflow % 10 : ℕ) then
    { d with flag := -1 }
  else { ret := ((10*d.ret+ch) % 4294967296).toNat, flag := 1 }

/-- The value and the rest of the string behind the number, or the whole string when there
is none. -/
def strtol (nptr : List UInt8) : ℤ × List UInt8 :=
  let p := nptr.dropWhile isspace
  let sign := p.head? = some 45
  let p := if p.head? = some 45 ∨ p.head? = some 43 then p.tail else p
  let overflow := if sign then longMin.natAbs else longMax.natAbs
  let d := (p.takeWhile isNumeric).foldl (digitStep overflow) ⟨0,0⟩
  let ret := if d.flag < 0 then (if sign then longMin else longMax)
    else if sign then -(d.ret : ℤ) else (d.ret : ℤ)
  (wrap32 ret,if d.flag = 0 then nptr else p.dropWhile isNumeric)

/-- A blank in front does not change the number, and counts as rest only where there is
none. -/
theorem strtol_cons {c : UInt8} (h : isspace c = true) {s : List UInt8} (hs : s ≠ []) :
    (strtol (c::s)).1 = (strtol s).1 ∧ ((strtol (c::s)).2 = [] ↔ (strtol s).2 = []) := by
  have hdrop : (c::s).dropWhile isspace = s.dropWhile isspace := List.dropWhile_cons_of_pos h
  constructor
  · simp only [strtol,hdrop]
  · simp only [strtol,hdrop]
    split_ifs <;> simp [hs]

theorem isNumeric_iff {c : UInt8} : isNumeric c = true ↔
    isdigit c = true ∨ 192 ≤ c.toNat ∧ c.toNat ≠ 215 ∧ c.toNat ≠ 247 := by
  have hc := c.toNat_lt
  simp only [isNumeric,digitOf,charToInt,isalpha,Bool.or_eq_true,Bool.and_eq_true,
    decide_eq_true_eq,isdigit_iff,isupper_iff,islower_iff]
  split_ifs <;> omega

theorem isNumeric_of_isdigit {c : UInt8} (h : isdigit c = true) : isNumeric c = true :=
  isNumeric_iff.2 (Or.inl h)

theorem digitOf_of_isdigit {c : UInt8} (h : isdigit c = true) : digitOf c = (c.toNat-48 : ℕ) := by
  rw [digitOf,if_pos h,charToInt]
  rw [isdigit_iff] at h
  split_ifs <;> omega

theorem digitOf_letter {c : UInt8} (h : isNumeric c = true) (hd : isdigit c = false) :
    -120 ≤ digitOf c ∧ digitOf c ≤ -88 := by
  have hc := c.toNat_lt
  have hd' : ¬ isdigit c = true := by simp [hd]
  rw [isNumeric_iff] at h
  rw [digitOf,if_neg hd',charToInt]
  simp only [isdigit_iff,isupper_iff] at *
  split_ifs <;> omega

theorem isspace_of_isNumeric {c : UInt8} (h : isNumeric c = true) : isspace c = false := by
  rw [isNumeric_iff,isdigit_iff] at h
  rw [← Bool.not_eq_true,isspace_iff]
  omega

theorem isspace_of_isdigit {c : UInt8} (h : isdigit c = true) : isspace c = false :=
  isspace_of_isNumeric (isNumeric_of_isdigit h)

theorem isspace_of_strtol {s : List UInt8} (htrim : trimWhitespace s = s) (h : (strtol s).2 = []) :
    ∀ c ∈ s, isspace c = false := by
  cases s with
  | nil => simp
  | cons c s =>
    have hc : isspace c = false := isspace_of_head_trimWhitespace (s := c::s) (by rw [htrim]; rfl)
    have hdrop : (c::s).dropWhile isspace = c::s := by simp [hc]
    have hdigits : ∀ c' ∈ s, isNumeric c' = true := by
      have hall : ∀ p, s ⊆ p → p.dropWhile isNumeric = [] → ∀ c' ∈ s, isNumeric c' = true :=
        fun p hp hnil c' hc' => List.dropWhile_eq_nil_iff.1 hnil c' (hp hc')
      simp only [strtol,hdrop] at h
      split_ifs at h
      · exact hall s (List.Subset.refl s) h
      · exact hall _ (List.subset_cons_self c s) h
      · exact hall s (List.Subset.refl s) h
      · exact hall _ (List.subset_cons_self c s) h
    intro c' hc'
    rcases List.mem_cons.1 hc' with rfl | hc'
    · exact hc
    · exact isspace_of_isNumeric (hdigits c' hc')

example : strtol (lit " -12x") = (-12,lit "x") := by decide
example : strtol [50,48,0xC0] = (81,[]) := by decide

end Utils
end A9GTracker
