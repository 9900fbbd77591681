import A9GTracker.Decimal

/-! What the `strtol` of the SDK makes of any text. It saturates at the limits of `limits.h`,
and the lower one of these is not the least `int`; and it counts the letters above 127 as
digits. -/
namespace A9GTracker
namespace StrtolRange

open CString Utils ConfigStore Decimal

/-- Blanks, an optional sign and at least one digit. -/
def IsNumber (t : List UInt8) : Prop := ∃ ws sign digits, Numeral t ws sign digits ∧ digits ≠ []

/-- The longest number at the front of a text, in its parts, and what follows it. -/
structure BeginsWith (s ws sign digits rest : List UInt8) : Prop where
  text : s = ws++sign++digits++rest
  numeral : Numeral (ws++sign++digits) ws sign digits
  nonempty : digits ≠ []
  longest : ∀ t, IsNumber t → t <+: s → t.length ≤ (ws++sign++digits).length

def signedValue (sign digits : List UInt8) : ℤ :=
  if sign = [45] then -(digitsValue digits : ℤ) else digitsValue digits

def saturate (n : ℤ) : ℤ := max (-2147483648) (min n 2147483647)

/-- The value of the longest number at the front, saturated, and the position behind it; zero
and the start of the text where there is none. -/
structure Correct (s : List UInt8) : Prop where
  number : ∀ ws sign digits rest, BeginsWith s ws sign digits rest →
    strtol s = (saturate (signedValue sign digits),rest)
  noNumber : (∀ t, IsNumber t → ¬ t <+: s) → strtol s = (0,s)

variable {s ws sign digits rest : List UInt8}

theorem BeginsWith.isdigit_head (h : BeginsWith s ws sign digits rest) :
    ∀ c ∈ rest.head?, isdigit c = false := by
  intro c hc
  obtain ⟨rest',rfl⟩ := List.head?_eq_some_iff.1 hc
  by_contra hdigit
  have hdigits : IsDigits (digits++[c]) :=
    isDigits_append.2 ⟨h.numeral.digits,by simpa [IsDigits] using hdigit⟩
  have hle := h.longest (ws++sign++(digits++[c]))
    ⟨ws,sign,digits++[c],⟨rfl,h.numeral.blanks,h.numeral.sign,hdigits⟩,by simp⟩
    ⟨rest',by rw [h.text]; simp⟩
  simp only [List.length_append,List.length_singleton] at hle
  omega

def IsHighLetter (c : UInt8) : Prop := 192 ≤ c.toNat ∧ c.toNat ≠ 215 ∧ c.toNat ≠ 247

theorem IsHighLetter.notMem {c : UInt8} (hc : IsHighLetter c)
    (h : Numeral (ws++sign++digits) ws sign digits) : c ∉ ws++sign++digits := by
  have hge := hc.1
  intro hmem
  rcases List.mem_append.1 hmem with hmem | hmem
  · rcases List.mem_append.1 hmem with hmem | hmem
    · have hblank := isspace_iff.1 (h.blanks c hmem)
      omega
    · rcases h.sign with rfl | rfl | rfl
      · simp at hmem
      · rw [List.mem_singleton.1 hmem] at hge
        exact absurd hge (by decide)
      · rw [List.mem_singleton.1 hmem] at hge
        exact absurd hge (by decide)
  · have hdigit := toNat_of_isdigit (h.digits c hmem)
    omega

/-- Directly behind blanks, an optional sign and any digits stands a letter of Latin-1. -/
def LetterBehind (s : List UInt8) : Prop :=
  ∃ ws sign digits c rest, Numeral (ws++sign++digits) ws sign digits ∧
    s = ws++sign++digits++c::rest ∧ IsHighLetter c

theorem numberOf_digits (hdigits : IsDigits digits) :
    numberOf sign (loop (limitOf sign) digits) =
      max longMin (min (signedValue sign digits) longMax) := by
  have hlimits : longMax = 2147483647 ∧ longMin = -2147483646 := ⟨rfl,rfl⟩
  have hbound := limitOf_le sign
  rcases le_or_gt (digitsValue digits) (limitOf sign) with hle | hgt
  · have hloop := (loop_digits hbound hdigits).1 hle
    have hflag : ¬ (loop (limitOf sign) digits).flag < 0 := by
      rw [hloop]
      split_ifs <;> simp
    rw [numberOf_loop hdigits.isNumerals hflag,weight_of_isDigits hdigits,signedValue]
    unfold limitOf at hle
    split_ifs at hle ⊢ <;> omega
  · rw [numberOf_overflow ((loop_digits hbound hdigits).2 hgt),signedValue]
    unfold limitOf at hgt
    split_ifs at hgt ⊢ <;> omega

theorem BeginsWith.strtol_eq (h : BeginsWith s ws sign digits rest) (hletter : ¬ LetterBehind s) :
    strtol s = (max longMin (min (signedValue sign digits) longMax),rest) := by
  have hrest : ∀ c ∈ rest.head?, isNumeric c = false := by
    intro c hc
    rw [← Bool.not_eq_true,isNumeric_iff,h.isdigit_head c hc]
    obtain ⟨rest',rfl⟩ := List.head?_eq_some_iff.1 hc
    rintro (hdigit | hhigh)
    · exact absurd hdigit (by decide)
    · exact hletter ⟨ws,sign,digits,c,rest',h.numeral,h.text,hhigh⟩
  have hlayout := h.numeral.layout (Or.inl h.nonempty) hrest
  rw [← h.text] at hlayout
  rw [hlayout.strtol_eq,if_neg h.nonempty,numberOf_digits h.numeral.digits]

/-- Without a number and without a letter the text is left where it is. -/
theorem strtol_noNumber (h : ∀ t, IsNumber t → ¬ t <+: s) (hletter : ¬ LetterBehind s) :
    strtol s = (0,s) := by
  obtain ⟨ws,sign,digits,rest,hlayout⟩ := exists_layout s
  cases digits with
  | nil =>
    rw [hlayout.strtol_eq,if_pos rfl,numberOf_nil]
  | cons c digits =>
    exfalso
    have htext : s = ws++sign++c::(digits++rest) := by rw [hlayout.text]; simp
    rcases isNumeric_iff.1 (hlayout.digits c (by simp)) with hdigit | hhigh
    · refine h (ws++sign++[c]) ⟨ws,sign,[c],⟨rfl,hlayout.blanks,hlayout.sign,?_⟩,by simp⟩
        ⟨digits++rest,by rw [htext]; simp⟩
      simpa [IsDigits] using hdigit
    · refine hletter ⟨ws,sign,[],c,digits++rest,⟨rfl,hlayout.blanks,hlayout.sign,?_⟩,?_,hhigh⟩
      · simp [IsDigits]
      · rw [htext]
        simp

theorem exists_beginsWith (h : ∃ t, IsNumber t ∧ t <+: s) :
    ∃ ws sign digits rest, BeginsWith s ws sign digits rest := by
  classical
  obtain ⟨t,ht,hts⟩ := h
  set n := Nat.findGreatest (fun n => IsNumber (s.take n)) s.length with hn
  have hle : n ≤ s.length := Nat.findGreatest_le s.length
  have hfound : IsNumber (s.take n) := Nat.findGreatest_spec (P := fun n => IsNumber (s.take n))
    hts.length_le (by rwa [← List.prefix_iff_eq_take.1 hts])
  obtain ⟨ws,sign,digits,hnumeral,hne⟩ := hfound
  have hnumber := hnumeral.text
  refine ⟨ws,sign,digits,s.drop n,?_,?_,hne,fun t' ht' hts' => ?_⟩
  · rw [← hnumber,List.take_append_drop]
  · rwa [← hnumber]
  · rw [← hnumber,List.length_take_of_le hle]
    refine Nat.le_findGreatest hts'.length_le ?_
    rwa [← List.prefix_iff_eq_take.1 hts']

theorem not_correct_of_letterBehind (h : LetterBehind s) : ¬ Correct s := by
  intro hcorrect
  obtain ⟨ws,sign,digits,c,tail,hnumeral,htext,hhigh⟩ := h
  have hc : isNumeric c = true := isNumeric_iff.2 (Or.inr hhigh)
  have hlayout : Layout s ws sign (digits++c::tail.takeWhile isNumeric)
      (tail.dropWhile isNumeric) := by
    have hnumerals : IsNumerals (digits++c::tail.takeWhile isNumeric) := by
      refine isNumerals_append.2 ⟨hnumeral.digits.isNumerals,fun d hd => ?_⟩
      rcases List.mem_cons.1 hd with rfl | hd
      · exact hc
      · exact List.mem_takeWhile_imp hd
    refine ⟨?_,hnumeral.blanks,fun _ d hd => ?_,hnumeral.sign,hnumerals,fun d hd => ?_⟩
    · rw [htext]
      simp [List.takeWhile_append_dropWhile]
    · rw [List.head?_append_of_ne_nil _ (by simp)] at hd
      exact front_of_isNumeric (hnumerals d (List.mem_of_mem_head? hd))
    · have hend := List.head?_dropWhile_not isNumeric tail
      rwa [Option.mem_def.1 hd] at hend
  have hstrtol := hlayout.strtol_eq
  rw [if_neg (by simp)] at hstrtol
  by_cases hnumber : ∃ t, IsNumber t ∧ t <+: s
  · obtain ⟨ws',sign',digits',rest',hbegins⟩ := exists_beginsWith hnumber
    have hrest : rest' = tail.dropWhile isNumeric :=
      congrArg Prod.snd ((hcorrect.number _ _ _ _ hbegins).symm.trans hstrtol)
    -- the letter would lie in the number
    have hparts := hbegins.text.symm.trans hlayout.text
    rw [hrest] at hparts
    refine hhigh.notMem hbegins.numeral ?_
    rw [List.append_cancel_right hparts]
    simp
  · have hnone := hcorrect.noNumber fun t ht hts => hnumber ⟨t,ht,hts⟩
    have hlength := congrArg List.length (congrArg Prod.snd (hnone.symm.trans hstrtol))
    have hle := (List.dropWhile_sublist isNumeric (l := tail)).length_le
    rw [htext] at hlength
    simp only [List.length_append,List.length_cons] at hlength
    omega

/-- `strtol` is correct for every text but those that begin with a number below the lower
limit of `limits.h` and those with a letter of Latin-1 where the number ends. -/
theorem strtol_correct_iff (s : List UInt8) :
    Correct s ↔ (∀ ws sign digits rest, BeginsWith s ws sign digits rest →
      -2147483646 ≤ signedValue sign digits) ∧ ¬ LetterBehind s := by
  have hlimits : longMax = 2147483647 ∧ longMin = -2147483646 := ⟨rfl,rfl⟩
  constructor
  · intro hcorrect
    have hletter : ¬ LetterBehind s := fun h => not_correct_of_letterBehind h hcorrect
    refine ⟨fun ws sign digits rest h => ?_,hletter⟩
    have heq := (h.strtol_eq hletter).symm.trans (hcorrect.number ws sign digits rest h)
    simp only [Prod.mk.injEq,and_true,saturate] at heq
    omega
  · rintro ⟨hlimit,hletter⟩
    refine ⟨fun ws sign digits rest h => ?_,fun h => strtol_noNumber h hletter⟩
    have hle := hlimit ws sign digits rest h
    rw [h.strtol_eq hletter]
    simp only [Prod.mk.injEq,and_true,saturate]
    omega

/-- The least `int` is read as the next but one. -/
theorem strtol_least_wrong : ¬ ∀ s, Correct s := by
  intro h
  have hbegins : BeginsWith (lit "-2147483648") [] (lit "-") (lit "2147483648") [] :=
    ⟨rfl,⟨rfl,by simp [AllBlank],Or.inr (Or.inr rfl),by decide⟩,by decide,
      fun t _ ht => ht.length_le⟩
  have hleast := (h (lit "-2147483648")).number _ _ _ _ hbegins
  exact absurd hleast (by decide)

end StrtolRange
end A9GTracker
