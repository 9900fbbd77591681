import Mathlib.Data.List.Basic
import Mathlib.Tactic.Common
import A9GTracker.ConfigStore

/-! Decimal numbers as text: the value of a string of digits, and what `strtol` reads. -/
namespace A9GTracker
namespace Decimal

open CString Utils ConfigStore

def IsDigits (s : List UInt8) : Prop := ∀ c ∈ s, isdigit c = true

instance (s : List UInt8) : Decidable (IsDigits s) :=
  decidable_of_iff (s.all isdigit = true) List.all_eq_true

theorem isDigits_cons {c : UInt8} {s : List UInt8} :
    IsDigits (c::s) ↔ isdigit c = true ∧ IsDigits s := by
  simp [IsDigits]

theorem isDigits_append {a b : List UInt8} : IsDigits (a++b) ↔ IsDigits a ∧ IsDigits b := by
  simp [IsDigits,or_imp,forall_and]

theorem toNat_of_isdigit {c : UInt8} (h : isdigit c = true) :
    48 ≤ c.toNat ∧ c.toNat ≤ 57 := by
  simpa [isdigit,UInt8.le_iff_toNat_le] using h

/-! ### The value -/

theorem digitsValue_concat (s : List UInt8) (c : UInt8) :
    digitsValue (s++[c]) = 10*digitsValue s+(c.toNat-48) := by
  simp [digitsValue]

theorem digitsValue_append (a b : List UInt8) :
    digitsValue (a++b) = digitsValue a*10^b.length+digitsValue b := by
  induction b using List.reverseRecOn with
  | nil => simp [digitsValue]
  | append_singleton b c ih =>
    rw [← List.append_assoc,digitsValue_concat,ih,digitsValue_concat,List.length_append,
      List.length_singleton,pow_succ]
    ring

theorem digitsValue_lt {s : List UInt8} (h : IsDigits s) : digitsValue s < 10^s.length := by
  induction s using List.reverseRecOn with
  | nil => simp [digitsValue]
  | append_singleton s c ih =>
    rw [isDigits_append] at h
    have hs := ih h.1
    have hc := toNat_of_isdigit (h.2 c (by simp))
    rw [digitsValue_concat,List.length_append,List.length_singleton,pow_succ]
    omega

/-! ### The digit loop of `strtol` -/

def weight (s : List UInt8) : ℤ := s.foldl (fun v c => 10*v+digitOf c) 0

theorem weight_concat (s : List UInt8) (c : UInt8) : weight (s++[c]) = 10*weight s+digitOf c := by
  simp [weight]

theorem weight_append (a b : List UInt8) :
    weight (a++b) = weight a*10^b.length+weight b := by
  induction b using List.reverseRecOn with
  | nil => simp [weight]
  | append_singleton b c ih =>
    rw [← List.append_assoc,weight_concat,ih,weight_concat,List.length_append,
      List.length_singleton,pow_succ]
    ring

theorem weight_of_isDigits {s : List UInt8} (h : IsDigits s) : weight s = digitsValue s := by
  induction s using List.reverseRecOn with
  | nil => rfl
  | append_singleton s c ih =>
    rw [isDigits_append] at h
    rw [weight_concat,ih h.1,digitOf_of_isdigit (h.2 c (by simp)),digitsValue_concat]
    push_cast
    ring

def IsNumerals (s : List UInt8) : Prop := ∀ c ∈ s, isNumeric c = true

theorem isNumerals_append {a b : List UInt8} :
    IsNumerals (a++b) ↔ IsNumerals a ∧ IsNumerals b := by
  simp [IsNumerals,or_imp,forall_and]

theorem IsDigits.isNumerals {s : List UInt8} (h : IsDigits s) : IsNumerals s :=
  fun c hc => isNumeric_of_isdigit (h c hc)

theorem digitOf_range {c : UInt8} (h : isNumeric c = true) : -120 ≤ digitOf c ∧ digitOf c ≤ 9 := by
  by_cases hc : isdigit c = true
  · have hrange := toNat_of_isdigit hc
    rw [digitOf_of_isdigit hc]
    omega
  · have hletter := digitOf_letter h (by simpa using hc)
    omega

def loop (overflow : ℕ) (s : List UInt8) : Digits := s.foldl (digitStep overflow) ⟨0,0⟩

theorem loop_concat (overflow : ℕ) (s : List UInt8) (c : UInt8) :
    loop overflow (s++[c]) = digitStep overflow (loop overflow s) c := by
  simp [loop]

theorem loop_flag_concat {overflow : ℕ} {s : List UInt8} (h : (loop overflow s).flag < 0)
    (c : UInt8) : (loop overflow (s++[c])).flag < 0 := by
  rw [loop_concat,digitStep,if_pos (Or.inl h)]
  exact neg_one_lt_zero

theorem loop_flag_append {overflow : ℕ} {a : List UInt8} (h : (loop overflow a).flag < 0)
    (b : List UInt8) : (loop overflow (a++b)).flag < 0 := by
  induction b using List.reverseRecOn with
  | nil => rwa [List.append_nil]
  | append_singleton b c ih =>
    rw [← List.append_assoc]
    exact loop_flag_concat ih c

/-- Unless it reports an overflow, the loop has counted what stands in front of it; a count
below zero is the last one before an overflow. -/
theorem loop_cases {overflow : ℕ} (hov : overflow ≤ 2147483647) {s : List UInt8}
    (h : IsNumerals s) : (loop overflow s).flag < 0 ∨
      (loop overflow s).flag = (if s = [] then 0 else 1) ∧
        ((loop overflow s).ret : ℤ) = weight s % 4294967296 ∧
        -120 ≤ weight s ∧ weight s ≤ overflow := by
  induction s using List.reverseRecOn with
  | nil => simp [loop,weight]
  | append_singleton s c ih =>
    rw [isNumerals_append] at h
    have hc := digitOf_range (h.2 c (by simp))
    rcases ih h.1 with hflag | ⟨-,hret,hlow,hhigh⟩
    · exact Or.inl (loop_flag_concat hflag c)
    · rw [loop_concat,digitStep,weight_concat]
      by_cases hover : (loop overflow s).flag < 0 ∨ (loop overflow s).ret > overflow / 10 ∨
          (loop overflow s).ret = overflow / 10 ∧ digitOf c > (overflow % 10 : ℕ)
      · rw [if_pos hover]
        exact Or.inl neg_one_lt_zero
      · rw [if_neg hover]
        simp only [not_or,not_and] at hover
        refine Or.inr ⟨by simp,?_,by omega,by omega⟩
        simp only
        omega

theorem loop_digits {overflow : ℕ} (hov : overflow ≤ 2147483647) {s : List UInt8}
    (h : IsDigits s) :
    (digitsValue s ≤ overflow →
      loop overflow s = ⟨digitsValue s,if s = [] then 0 else 1⟩) ∧
    (overflow < digitsValue s → (loop overflow s).flag < 0) := by
  constructor
  · intro hle
    induction s using List.reverseRecOn with
    | nil => simp [loop,digitsValue]
    | append_singleton s c ih =>
      rw [isDigits_append] at h
      have hc := toNat_of_isdigit (h.2 c (by simp))
      rw [digitsValue_concat] at hle ⊢
      have hflag : ¬ (if s = [] then (0 : ℤ) else 1) < 0 := by
        split_ifs <;> decide
      rw [loop_concat,ih h.1 (by omega),digitStep,digitOf_of_isdigit (h.2 c (by simp)),
        if_neg (by simp only [hflag,false_or]; omega)]
      simp only [Digits.mk.injEq,List.append_eq_nil_iff,List.cons_ne_self,and_false,if_false,
        and_true]
      omega
  · intro hgt
    refine (loop_cases hov h.isNumerals).resolve_right fun hval => ?_
    have hle := hval.2.2.2
    rw [weight_of_isDigits h] at hle
    omega

/-! ### `strtol` -/

/-- The limit of the numbers with a sign. -/
def limitOf (sign : List UInt8) : ℕ := if sign = [45] then 2147483646 else 2147483647

theorem limitOf_le (sign : List UInt8) : limitOf sign ≤ 2147483647 := by
  unfold limitOf
  split_ifs <;> decide

def numberOf (sign : List UInt8) (d : Digits) : ℤ :=
  let n : ℤ := if d.flag < 0 then limitOf sign else d.ret
  wrap32 (if sign = [45] then -n else n)

/-- How `strtol` takes a text apart. -/
structure Layout (s ws sign digits rest : List UInt8) : Prop where
  text : s = ws++sign++digits++rest
  blanks : AllBlank ws
  front : sign = [] → ∀ c ∈ (digits++rest).head?, isspace c = false ∧ c ≠ 43 ∧ c ≠ 45
  sign : sign = [] ∨ sign = [43] ∨ sign = [45]
  digits : IsNumerals digits
  behind : ∀ c ∈ rest.head?, isNumeric c = false

theorem front_of_isNumeric {c : UInt8} (h : isNumeric c = true) :
    isspace c = false ∧ c ≠ 43 ∧ c ≠ 45 := by
  refine ⟨isspace_of_isNumeric h,?_,?_⟩
  · rintro rfl
    exact absurd h (by decide)
  · rintro rfl
    exact absurd h (by decide)

theorem exists_sign (p : List UInt8) :
    ∃ sign q, (sign = [] ∨ sign = [43] ∨ sign = [45]) ∧ p = sign++q ∧
      (sign = [] → ∀ c ∈ q.head?, c ≠ 43 ∧ c ≠ 45) := by
  by_cases hminus : p.head? = some 45
  · obtain ⟨t,rfl⟩ := List.head?_eq_some_iff.1 hminus
    exact ⟨[45],t,by simp,rfl,fun h => by cases h⟩
  · by_cases hplus : p.head? = some 43
    · obtain ⟨t,rfl⟩ := List.head?_eq_some_iff.1 hplus
      exact ⟨[43],t,by simp,rfl,fun h => by cases h⟩
    · refine ⟨[],p,by simp,rfl,fun _ c hc => ⟨?_,?_⟩⟩
      · rintro rfl
        exact hplus hc
      · rintro rfl
        exact hminus hc

theorem exists_layout (s : List UInt8) : ∃ ws sign digits rest, Layout s ws sign digits rest := by
  obtain ⟨sign,q,hsign,hparts,hfront⟩ := exists_sign (s.dropWhile isspace)
  refine ⟨s.takeWhile isspace,sign,q.takeWhile isNumeric,q.dropWhile isNumeric,?_,
    fun c hc => List.mem_takeWhile_imp hc,?_,hsign,fun c hc => List.mem_takeWhile_imp hc,?_⟩
  · rw [List.append_assoc,List.takeWhile_append_dropWhile,List.append_assoc,← hparts,
      List.takeWhile_append_dropWhile]
  · intro hnil c hc
    rw [List.takeWhile_append_dropWhile] at hc
    have hblank := List.head?_dropWhile_not isspace s
    rw [hparts,hnil,List.nil_append,Option.mem_def.1 hc] at hblank
    exact ⟨hblank,hfront hnil c hc⟩
  · intro c hc
    have hend := List.head?_dropWhile_not isNumeric q
    rwa [Option.mem_def.1 hc] at hend

section layout
variable {s ws sign digits rest : List UInt8}

theorem Layout.dropWhile_isspace (h : Layout s ws sign digits rest) :
    s.dropWhile isspace = sign++(digits++rest) := by
  rw [h.text,List.append_assoc,List.append_assoc,List.dropWhile_append_of_pos h.blanks]
  rcases h.sign with hsign | rfl | rfl
  · rw [hsign,List.nil_append]
    cases hq : digits++rest with
    | nil => rfl
    | cons c q =>
      have hc := (h.front hsign c (by simp [hq])).1
      simp [hc]
  · rfl
  · rfl

theorem Layout.split_digits (h : Layout s ws sign digits rest) :
    (digits++rest).takeWhile isNumeric = digits ∧ (digits++rest).dropWhile isNumeric = rest := by
  have hrest : rest.takeWhile isNumeric = [] ∧ rest.dropWhile isNumeric = rest := by
    cases rest with
    | nil => simp
    | cons c rest =>
      have hc := h.behind c rfl
      simp [hc]
  rw [List.takeWhile_append_of_pos h.digits,List.dropWhile_append_of_pos h.digits,hrest.1,hrest.2]
  simp

theorem loop_flag_eq_zero {overflow : ℕ} (hov : overflow ≤ 2147483647) (h : IsNumerals digits) :
    (loop overflow digits).flag = 0 ↔ digits = [] := by
  constructor
  · intro hflag
    rcases loop_cases hov h with hneg | ⟨hval,-⟩
    · omega
    · by_contra hne
      rw [if_neg hne] at hval
      omega
  · rintro rfl
    rfl

theorem Layout.strip_sign (h : Layout s ws sign digits rest) :
    ((sign++(digits++rest)).head? = some 45 ↔ sign = [45]) ∧
      (if (sign++(digits++rest)).head? = some 45 ∨ (sign++(digits++rest)).head? = some 43 then
        (sign++(digits++rest)).tail else sign++(digits++rest)) = digits++rest := by
  rcases h.sign with hsign | hsign | hsign
  · have h45 : (digits++rest).head? ≠ some 45 := fun h45 => (h.front hsign 45 h45).2.2 rfl
    have h43 : (digits++rest).head? ≠ some 43 := fun h43 => (h.front hsign 43 h43).2.1 rfl
    rw [hsign,List.nil_append,if_neg (by simp only [h45,h43,or_self,not_false_eq_true])]
    exact ⟨by simp only [h45,false_iff]; decide,rfl⟩
  · subst hsign
    exact ⟨by simp,rfl⟩
  · subst hsign
    exact ⟨by simp,rfl⟩

theorem Layout.strtol_eq (h : Layout s ws sign digits rest) :
    strtol s = (numberOf sign (loop (limitOf sign) digits),if digits = [] then s else rest) := by
  obtain ⟨htake,hdrop⟩ := h.split_digits
  obtain ⟨hminus,hstrip⟩ := h.strip_sign
  have hzero := loop_flag_eq_zero (limitOf_le sign) h.digits
  have hlimit : (if sign = [45] then longMin.natAbs else longMax.natAbs) = limitOf sign := rfl
  have hfold : digits.foldl (digitStep (limitOf sign)) ⟨0,0⟩ = loop (limitOf sign) digits := rfl
  simp only [strtol,h.dropWhile_isspace,hstrip,htake,hdrop]
  simp only [hminus,hlimit,hfold,hzero,numberOf,Prod.mk.injEq,and_true]
  by_cases hflag : (loop (limitOf sign) digits).flag < 0
  · simp only [if_pos hflag]
    by_cases hsign : sign = [45]
    · simp only [hsign,if_true]
      rfl
    · simp only [hsign,if_false,limitOf]
      rfl
  · simp only [if_neg hflag]

theorem numberOf_loop (h : IsNumerals digits) (hflag : ¬ (loop (limitOf sign) digits).flag < 0) :
    numberOf sign (loop (limitOf sign) digits) =
      if sign = [45] then -weight digits else weight digits := by
  have hle := limitOf_le sign
  obtain ⟨-,hret,hlow,hhigh⟩ := (loop_cases hle h).resolve_left hflag
  simp only [numberOf,if_neg hflag,hret,wrap32]
  split_ifs <;> omega

theorem numberOf_nil (sign : List UInt8) (overflow : ℕ) : numberOf sign (loop overflow []) = 0 := by
  have hzero : wrap32 0 = 0 := by decide
  simp [numberOf,loop,hzero]

theorem numberOf_overflow {d : Digits} (h : d.flag < 0) (sign : List UInt8) :
    numberOf sign d = if sign = [45] then longMin else longMax := by
  simp only [numberOf,if_pos h,limitOf]
  split_ifs <;> rfl

theorem exists_layout_nil (h : (strtol s).2 = []) : ∃ ws sign digits, Layout s ws sign digits [] := by
  obtain ⟨ws,sign,digits,rest,hlayout⟩ := exists_layout s
  rw [hlayout.strtol_eq] at h
  split_ifs at h with hnil
  · refine ⟨[],[],[],?_,by simp [AllBlank],by simp,by simp,by simp [IsNumerals],by simp⟩
    simpa using h
  · subst h
    exact ⟨ws,sign,digits,hlayout⟩

theorem Layout.take (h : Layout s ws sign digits []) (n : ℕ) :
    Layout (s.take n) (ws.take n) (sign.take (n-ws.length))
      (digits.take (n-(ws++sign).length)) [] where
  text := by
    rw [h.text,List.append_nil,List.append_nil,List.take_append,List.take_append]
  blanks c hc := h.blanks c (List.mem_of_mem_take hc)
  sign := by
    rcases h.sign with rfl | rfl | rfl
    · simp
    · cases n-ws.length <;> simp
    · cases n-ws.length <;> simp
  front _ c hc := by
    rw [List.append_nil] at hc
    exact front_of_isNumeric (h.digits c (List.mem_of_mem_take (List.mem_of_mem_head? hc)))
  digits c hc := h.digits c (List.mem_of_mem_take hc)
  behind := by simp

structure Numeral (s ws sign digits : List UInt8) : Prop where
  text : s = ws++sign++digits
  blanks : AllBlank ws
  sign : sign = [] ∨ sign = [43] ∨ sign = [45]
  digits : IsDigits digits

theorem Numeral.layout (h : Numeral s ws sign digits) (hne : digits ≠ [] ∨ rest = [])
    (hrest : ∀ c ∈ rest.head?, isNumeric c = false) : Layout (s++rest) ws sign digits rest where
  text := by rw [h.text]
  blanks := h.blanks
  sign := h.sign
  front _ c hc := by
    refine front_of_isNumeric (h.digits.isNumerals c ?_)
    cases hdigits : digits with
    | nil => simp [hdigits,hne.resolve_left (fun h => h hdigits)] at hc
    | cons d ds =>
      rw [hdigits] at hc
      obtain rfl : d = c := by simpa using hc
      simp
  digits := h.digits.isNumerals
  behind := hrest

theorem Numeral.strtol_append (h : Numeral s ws sign digits) (hne : digits ≠ [] ∨ rest = [])
    (hrest : ∀ c ∈ rest.head?, isNumeric c = false) (hfit : digitsValue digits ≤ 2147483646) :
    strtol (s++rest) = (if sign = [45] then -(digitsValue digits : ℤ) else digitsValue digits,
      if digits = [] then s++rest else rest) := by
  have hle : digitsValue digits ≤ limitOf sign := by
    unfold limitOf
    split_ifs <;> omega
  have hloop := (loop_digits (limitOf_le sign) h.digits).1 hle
  have hflag : ¬ (loop (limitOf sign) digits).flag < 0 := by
    rw [hloop]
    split_ifs <;> simp
  rw [(h.layout hne hrest).strtol_eq,numberOf_loop h.digits.isNumerals hflag,
    weight_of_isDigits h.digits]

theorem Numeral.strtol_value (h : Numeral s ws sign digits)
    (hfit : digitsValue digits ≤ 2147483646) :
    (strtol s).1 = if sign = [45] then -(digitsValue digits : ℤ) else digitsValue digits := by
  have happend : strtol (s++[]) = _ := h.strtol_append (Or.inr rfl) (by simp) hfit
  rw [List.append_nil] at happend
  rw [happend]

end layout

end Decimal
end A9GTracker
