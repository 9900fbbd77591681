import Mathlib.Data.List.GetD
import A9GTracker.ReportTimestamp

/-! Sentences spelled out field by field, and what a scan reads from them. -/
namespace A9GTracker
namespace SentenceFields

open CString Utils ConfigStore Decimal Minmea ScannedFields ReportTimestamp

/-! ### What a field says -/

/-- Behind a field stands a comma, the checksum, the line end or nothing. -/
structure FieldEnd (rest : List UInt8) : Prop where
  no_field : minmeaIsfield (rest.headD 0) = false
  no_number : ∀ c ∈ (rest.dropWhile isspace).head?, c = 44 ∨ c = 42

def signOf (sign : List UInt8) : ℤ := if sign = [45] then -1 else 1

/-- A number with a point, of which 32 bits hold all digits and the scale. -/
structure DecimalNumber (sign whole frac text : List UInt8) : Prop where
  text_eq : text = sign++whole ∧ frac = [] ∨ text = sign++whole++46::frac
  sign : sign = [] ∨ sign = [43] ∨ sign = [45]
  nonempty : whole++frac ≠ []
  digits : IsDigits (whole++frac)
  fits : digitsValue (whole++frac) ≤ 2147483647
  scale : frac.length ≤ 9

/-- The microseconds of a fraction; digits behind the sixth are cut off. -/
def microsOf (frac : List UInt8) : ℕ := digitsValue (frac.take 6)*10^(6-(frac.take 6).length)

structure TimeText (frac text : List UInt8) : Prop where
  text_eq : (text.length = 6 ∧ frac = []) ∨ text.drop 6 = 46::frac
  digits : IsDigits (text.take 6)
  fraction : IsDigits frac

/-- The value of a field for each conversion. -/
inductive Denotes : Char → List UInt8 → ScanValue → Prop
  | char {c : UInt8} (h : minmeaIsfield c = true) : Denotes 'c' [c] (.char c)
  | noChar : Denotes 'c' [] (.char 0)
  | direction {c : UInt8} (h : letterSign [c] ≠ 0) : Denotes 'd' [c] (.direction (letterSign [c]))
  | noDirection : Denotes 'd' [] (.direction 0)
  | float {sign whole frac text : List UInt8} (h : DecimalNumber sign whole frac text) :
      Denotes 'f' text (.float ⟨signOf sign*digitsValue (whole++frac),10^frac.length⟩)
  | noFloat : Denotes 'f' [] (.float ⟨0,0⟩)
  | int {sign digits : List UInt8} (hsign : sign = [] ∨ sign = [43] ∨ sign = [45])
      (hne : digits ≠ []) (hdigits : IsDigits digits) (hfit : digitsValue digits ≤ 2147483646) :
      Denotes 'i' (sign++digits) (.int (signOf sign*digitsValue digits))
  | noInt : Denotes 'i' [] (.int 0)
  | string {text : List UInt8} (h : ∀ c ∈ text, minmeaIsfield c = true) :
      Denotes 's' text (.string text)
  | type {t : List UInt8} (hlength : t.length = 5) (h : ∀ c ∈ t, minmeaIsfield c = true) :
      Denotes 't' (36::t) (.type t)
  | date {text : List UInt8} (hlength : text.length = 6) (h : IsDigits text) :
      Denotes 'D' text (.date ⟨pair text 0,pair text 2,pair text 4⟩)
  | noDate : Denotes 'D' [] (.date ⟨-1,-1,-1⟩)
  | time {frac text : List UInt8} (h : TimeText frac text) :
      Denotes 'T' text (.time ⟨pair text 0,pair text 2,pair text 4,microsOf frac⟩)
  | noTime : Denotes 'T' [] (.time ⟨-1,-1,-1,-1⟩)
  | ignored {text : List UInt8} (h : ∀ c ∈ text, minmeaIsfield c = true) :
      Denotes '_' text .ignored

/-! ### The characters of a field -/

theorem isField_of_isDigits {s : List UInt8} (h : IsDigits s) : ∀ c ∈ s, minmeaIsfield c = true :=
  fun c hc => minmeaIsfield_of_isdigit (h c hc)

theorem isField_of_sign {sign : List UInt8} (h : sign = [] ∨ sign = [43] ∨ sign = [45]) :
    ∀ c ∈ sign, minmeaIsfield c = true := by
  rcases h with rfl | rfl | rfl <;> decide +kernel

theorem DecimalNumber.isField {sign whole frac text : List UInt8}
    (h : DecimalNumber sign whole frac text) : ∀ c ∈ text, minmeaIsfield c = true := by
  obtain ⟨hwhole,hfrac⟩ := isDigits_append.1 h.digits
  have hsign := isField_of_sign h.sign
  have hw := isField_of_isDigits hwhole
  have hf := isField_of_isDigits hfrac
  intro c hc
  rcases h.text_eq with ⟨htext,-⟩ | htext
  · rw [htext,List.mem_append] at hc
    exact hc.elim (hsign c) (hw c)
  · rw [htext] at hc
    simp only [List.mem_append,List.mem_cons] at hc
    rcases hc with (hc | hc) | rfl | hc
    · exact hsign c hc
    · exact hw c hc
    · decide
    · exact hf c hc

theorem TimeText.isField {frac text : List UInt8} (h : TimeText frac text) :
    ∀ c ∈ text, minmeaIsfield c = true := by
  intro c hc
  rw [← List.take_append_drop 6 text,List.mem_append] at hc
  rcases hc with hc | hc
  · exact isField_of_isDigits h.digits c hc
  · rcases h.text_eq with ⟨hlength,-⟩ | hdrop
    · rw [List.drop_eq_nil_of_le hlength.le] at hc
      exact absurd hc List.not_mem_nil
    · rw [hdrop,List.mem_cons] at hc
      rcases hc with rfl | hc
      · decide
      · exact isField_of_isDigits h.fraction c hc

theorem direction_letter {c : UInt8} (h : letterSign [c] ≠ 0) :
    c = 78 ∨ c = 69 ∨ c = 83 ∨ c = 87 := by
  by_contra hno
  push Not at hno
  exact h (by simp [letterSign,hno])

theorem Denotes.isField {type : Char} {text : List UInt8} {v : ScanValue}
    (h : Denotes type text v) : ∀ c ∈ text, minmeaIsfield c = true := by
  cases h with
  | char h => simpa using h
  | direction h => rcases direction_letter h with rfl | rfl | rfl | rfl <;> decide +kernel
  | float h => exact h.isField
  | int hsign _ hdigits _ =>
    intro c hc
    exact (List.mem_append.1 hc).elim (isField_of_sign hsign c) (isField_of_isDigits hdigits c)
  | string h => exact h
  | type _ h =>
    intro c hc
    rcases List.mem_cons.1 hc with rfl | hc
    · decide
    · exact h c hc
  | date _ h => exact isField_of_isDigits h
  | time h => exact h.isField
  | ignored h => exact h
  | noChar | noDirection | noFloat | noInt | noDate | noTime => simp

/-! ### What a conversion reads -/

theorem takeWhile_field {text rest : List UInt8} (h : ∀ c ∈ text, minmeaIsfield c = true)
    (hrest : FieldEnd rest) : (text++rest).takeWhile minmeaIsfield = text := by
  rw [List.takeWhile_append_of_pos h,takeWhile_field_eq_nil (by rw [hrest.no_field]; decide),
    List.append_nil]

/-- A digit that fits, behind any sign and on both sides of the point. -/
theorem scanFloatLoop_fits {c : UInt8} (hc : isdigit c = true) {pre : List UInt8}
    (hfit : digitsValue (pre++[c]) ≤ 2147483647) (field : List UInt8) (sign scale : ℤ) :
    scanFloatLoop (c::field) ⟨sign,started pre,scale⟩ =
      scanFloatLoop field ⟨sign,started (pre++[c]),wrap32 (scale*10)⟩ := by
  have hrange := toNat_of_isdigit hc
  have hne : ∀ b : UInt8, b.toNat < 48 → c ≠ b := by
    rintro b hb rfl
    omega
  have hplus := hne 43 (by decide)
  have hminus := hne 45 (by decide)
  have hvalue : (if started pre = -1 then 0 else started pre) = (digitsValue pre : ℤ) := by
    unfold started
    by_cases hpre : pre = []
    · simp [hpre,digitsValue]
    · rw [if_neg hpre,if_neg (by omega)]
  have hnext : started (pre++[c]) = 10*(digitsValue pre : ℤ)+((c.toNat : ℤ)-48) := by
    rw [started,if_neg (by simp),digitsValue_concat]
    omega
  have hroom : ¬ (digitsValue pre : ℤ) > (2147483647-((c.toNat : ℤ)-48)) / 10 := by
    rw [digitsValue_concat] at hfit
    omega
  have hscale : (if scale ≠ 0 then wrap32 (scale*10) else scale) = wrap32 (scale*10) := by
    by_cases hzero : scale = 0
    · rw [hzero]
      decide
    · rw [if_pos hzero]
  rw [scanFloatLoop,if_neg (by simp [minmeaIsfield_of_isdigit hc]),if_neg (by simp [hplus]),
    if_neg (by simp [hminus]),if_pos hc]
  simp only [hvalue,hroom,if_false,hnext,hscale]

theorem digitsValue_le_append (a b : List UInt8) : digitsValue a ≤ digitsValue (a++b) := by
  rw [digitsValue_append]
  have hpow : 0 < 10^b.length := Nat.pow_pos (by decide)
  exact (Nat.le_mul_of_pos_right _ hpow).trans (Nat.le_add_right _ _)

theorem scanFloatLoop_front {ds : List UInt8} (hds : IsDigits ds) {pre : List UInt8}
    (hfit : digitsValue (pre++ds) ≤ 2147483647) (field : List UInt8) (sign : ℤ) :
    scanFloatLoop (ds++field) ⟨sign,started pre,0⟩ =
      scanFloatLoop field ⟨sign,started (pre++ds),0⟩ := by
  induction ds generalizing pre with
  | nil => simp
  | cons c ds ih =>
    obtain ⟨hc,hds⟩ := isDigits_cons.1 hds
    rw [← List.singleton_append,← List.append_assoc] at hfit
    have hfirst := (digitsValue_le_append (pre++[c]) ds).trans hfit
    rw [List.cons_append,scanFloatLoop_fits hc hfirst,zero_mul,
      show wrap32 0 = 0 by decide,ih hds hfit,List.append_assoc,List.singleton_append]

theorem scanFloatLoop_behind {ds : List UInt8} (hds : IsDigits ds) {pre : List UInt8} {k : ℕ}
    (hfit : digitsValue (pre++ds) ≤ 2147483647) (hscale : k+ds.length ≤ 9) (field : List UInt8)
    (sign : ℤ) :
    scanFloatLoop (ds++field) ⟨sign,started pre,10^k⟩ =
      scanFloatLoop field ⟨sign,started (pre++ds),10^(k+ds.length)⟩ := by
  induction ds generalizing pre k with
  | nil => simp
  | cons c ds ih =>
    obtain ⟨hc,hds⟩ := isDigits_cons.1 hds
    rw [List.length_cons] at hscale
    have hpow : (10 : ℤ)^(k+1) ≤ 10^9 := pow_le_pow_right₀ (by decide) (by omega)
    have hpos : (0 : ℤ) ≤ 10^(k+1) := by positivity
    have hwrap : wrap32 (10^k*10) = 10^(k+1) := by
      rw [← pow_succ]
      exact wrap32_of_range (by omega) (by omega)
    rw [← List.singleton_append,← List.append_assoc] at hfit
    have hfirst := (digitsValue_le_append (pre++[c]) ds).trans hfit
    rw [List.cons_append,scanFloatLoop_fits hc hfirst,hwrap,ih hds hfit (by omega),
      List.append_assoc,List.singleton_append,List.length_cons,Nat.add_assoc,Nat.add_comm 1]

theorem scanFloatLoop_end {rest : List UInt8} (hrest : FieldEnd rest) (a : FloatAcc) :
    scanFloatLoop rest a = some a := by
  cases rest with
  | nil => rfl
  | cons c rest => rw [scanFloatLoop,if_pos (by simpa using hrest.no_field)]

/-- The sign that the loop remembers. -/
def signFlag (sign : List UInt8) : ℤ := if sign = [] then 0 else signOf sign

theorem scanFloatLoop_sign {sign : List UInt8} (h : sign = [] ∨ sign = [43] ∨ sign = [45])
    (field : List UInt8) :
    scanFloatLoop (sign++field) ⟨0,-1,0⟩ = scanFloatLoop field ⟨signFlag sign,-1,0⟩ := by
  rcases h with rfl | rfl | rfl <;> rfl

theorem scanFloatLoop_point {pre : List UInt8} (field : List UInt8) (sign : ℤ) :
    scanFloatLoop (46::field) ⟨sign,started pre,0⟩ =
      scanFloatLoop field ⟨sign,started pre,10^0⟩ := by
  rw [scanFloatLoop,if_neg (by decide),if_neg (by simp),if_neg (by simp),if_neg (by decide),
    if_pos (by simp),pow_zero]

theorem scanFloat_number {sign whole frac text rest : List UInt8}
    (h : DecimalNumber sign whole frac text) (hrest : FieldEnd rest) :
    scanFloat (some (text++rest)) =
      some ⟨signOf sign*digitsValue (whole++frac),10^frac.length⟩ := by
  obtain ⟨hwhole,hfrac⟩ := isDigits_append.1 h.digits
  have hfit : digitsValue ([]++whole) ≤ 2147483647 :=
    (digitsValue_le_append whole frac).trans h.fits
  have hloop : ∃ scale, scanFloatLoop (text++rest) ⟨0,-1,0⟩ =
      some ⟨signFlag sign,digitsValue (whole++frac),scale⟩ ∧
        (if scale = 0 then 1 else scale) = 10^frac.length := by
    have hvalue : (digitsValue (whole++frac) : ℤ) = started (whole++frac) := by
      rw [started,if_neg h.nonempty]
    rcases h.text_eq with ⟨htext,rfl⟩ | htext
    · refine ⟨0,?_,by simp⟩
      have hstart : (-1 : ℤ) = started [] := rfl
      rw [htext,List.append_assoc,scanFloatLoop_sign h.sign,hstart,
        scanFloatLoop_front hwhole hfit,scanFloatLoop_end hrest,hvalue,List.append_nil,
        List.nil_append]
    · refine ⟨10^frac.length,?_,by simp⟩
      have hstart : (-1 : ℤ) = started [] := rfl
      rw [htext,List.append_assoc,List.append_assoc,scanFloatLoop_sign h.sign,hstart,
        scanFloatLoop_front hwhole hfit,List.cons_append,scanFloatLoop_point,List.nil_append,
        scanFloatLoop_behind hfrac h.fits (by have := h.scale; omega),scanFloatLoop_end hrest,
        hvalue,Nat.zero_add]
  obtain ⟨scale,hloop,hscale⟩ := hloop
  have hne : ¬ (digitsValue (whole++frac) : ℤ) = -1 := by omega
  have hsign : (if signFlag sign ≠ 0 then (digitsValue (whole++frac) : ℤ)*signFlag sign
      else digitsValue (whole++frac)) = signOf sign*digitsValue (whole++frac) := by
    rcases h.sign with rfl | rfl | rfl <;> simp [signFlag,signOf]
  simp only [scanFloat,Option.getD_some,hloop,hne,and_false,if_false,hscale,hsign]

theorem FieldEnd.isNumeric_head {rest : List UInt8} (hrest : FieldEnd rest) :
    ∀ c ∈ rest.head?, isNumeric c = false := by
  intro c hc
  obtain ⟨rest',rfl⟩ := List.head?_eq_some_iff.1 hc
  by_contra hnumeric
  have hno := hrest.no_field
  rw [List.headD_cons,minmeaIsfield_of_isNumeric (by simpa using hnumeric)] at hno
  exact absurd hno (by decide)

theorem scanInt_number {sign digits rest : List UInt8}
    (hsign : sign = [] ∨ sign = [43] ∨ sign = [45]) (hne : digits ≠ []) (hdigits : IsDigits digits)
    (hfit : digitsValue digits ≤ 2147483646) (hrest : FieldEnd rest) :
    scanInt (some (sign++digits++rest)) = some (signOf sign*digitsValue digits) := by
  have hnumeral : Numeral (sign++digits) [] sign digits :=
    ⟨rfl,by simp [AllBlank],hsign,hdigits⟩
  have hstrtol := hnumeral.strtol_append (Or.inl hne) hrest.isNumeric_head hfit
  simp only [scanInt,hstrtol,if_neg hne,hrest.no_field,Bool.false_eq_true,if_false,
    Option.some.injEq]
  rcases hsign with rfl | rfl | rfl <;> simp [signOf]

theorem scanInt_empty {rest : List UInt8} (hrest : FieldEnd rest) :
    scanInt (some rest) = some 0 := by
  obtain ⟨ws,sign,digits,rest',hlayout⟩ := exists_layout rest
  -- behind its blanks the text begins with the end of the field
  have hhead : ∀ c ∈ (sign++(digits++rest')).head?, c = 44 ∨ c = 42 := by
    intro c hc
    rw [← hlayout.dropWhile_isspace] at hc
    exact hrest.no_number c hc
  have hsign : sign = [] := by
    rcases hlayout.sign with rfl | rfl | rfl
    · rfl
    · exact absurd (hhead 43 rfl) (by decide)
    · exact absurd (hhead 45 rfl) (by decide)
  have hdigits : digits = [] := by
    cases digits with
    | nil => rfl
    | cons d ds =>
      have hd := hlayout.digits d (by simp)
      rcases hhead d (by simp [hsign]) with rfl | rfl <;> exact absurd hd (by decide)
  subst hsign hdigits
  simp only [scanInt,hlayout.strtol_eq,if_true,numberOf_nil,hrest.no_field,Bool.false_eq_true,
    if_false]

/-! ### Date and time -/

theorem six_digits_field {text rest : List UInt8} (hfield : ∀ c ∈ text, minmeaIsfield c = true)
    (hlength : 6 ≤ text.length) (hdigits : IsDigits (text.take 6)) (hrest : FieldEnd rest) :
    ((List.range 6).all fun f => isdigit ((text++rest).getD f 0)) = true ∧
      ∀ i ≤ 4, twoDigits (text++rest) i = pair text i := by
  have hsix : ((List.range 6).all fun f => isdigit ((text++rest).getD f 0)) = true := by
    rw [List.all_eq_true]
    intro f hf
    rw [List.mem_range] at hf
    rw [List.getD_append _ _ _ _ (by omega),List.getD_eq_getElem _ _ (by omega)]
    refine hdigits _ ?_
    rw [← List.getElem_take (j := 6) (h := by rw [List.length_take]; omega)]
    exact List.getElem_mem _
  refine ⟨hsix,fun i hi => ?_⟩
  rw [((six_digits hsix).2 i hi).1,takeWhile_field hfield hrest]

theorem scanDate_digits {text rest : List UInt8} (hlength : text.length = 6) (h : IsDigits text)
    (hrest : FieldEnd rest) :
    scanDate (some (text++rest)) = some ⟨pair text 0,pair text 2,pair text 4⟩ := by
  obtain ⟨hsix,hpair⟩ := six_digits_field (isField_of_isDigits h) hlength.ge
    (by rwa [List.take_of_length_le hlength.le]) hrest
  obtain ⟨c,s,rfl⟩ := List.exists_cons_of_length_pos (by omega : 0 < text.length)
  have hfirst : minmeaIsfield (((c::s)++rest).headD 0) = true :=
    isField_of_isDigits h c (by simp)
  rw [scanDate,if_pos hfirst,if_pos hsix,hpair 0 (by decide),hpair 2 (by decide),
    hpair 4 (by decide)]

theorem scanMicros_digits {frac rest : List UInt8} (hfrac : IsDigits frac)
    (hrest : isdigit (rest.headD 0) = false) (value k : ℕ) :
    scanMicros (frac++rest) value (10^k) =
      (value*10^(frac.take k).length+digitsValue (frac.take k),10^(k-(frac.take k).length)) := by
  induction frac generalizing value k with
  | nil =>
    cases rest with
    | nil => simp [scanMicros,digitsValue]
    | cons c rest =>
      rw [List.headD_cons] at hrest
      simp [scanMicros,hrest,digitsValue]
  | cons c frac ih =>
    obtain ⟨hc,hfrac⟩ := isDigits_cons.1 hfrac
    cases k with
    | zero => simp [scanMicros,digitsValue]
    | succ k =>
      have hone : 1 < 10^(k+1) := Nat.one_lt_pow (by omega) (by decide)
      have hdiv : 10^(k+1) / 10 = 10^k := by rw [pow_succ,Nat.mul_div_cancel _ (by decide)]
      rw [List.cons_append,scanMicros,if_pos ⟨hc,hone⟩,hdiv,ih hfrac,List.take_succ_cons,
        List.length_cons,← List.singleton_append,digitsValue_append,Nat.add_sub_add_right]
      congr 1
      simp only [digitsValue,List.foldl_cons,List.foldl_nil]
      ring

theorem scanTime_digits {frac text rest : List UInt8} (h : TimeText frac text)
    (hrest : FieldEnd rest) :
    scanTime (some (text++rest)) =
      some ⟨pair text 0,pair text 2,pair text 4,microsOf frac⟩ := by
  have hlength : 6 ≤ text.length := by
    rcases h.text_eq with ⟨hlength,-⟩ | hdrop
    · exact hlength.ge
    · have hlen := congrArg List.length hdrop
      rw [List.length_drop,List.length_cons] at hlen
      omega
  obtain ⟨hsix,hpair⟩ := six_digits_field h.isField hlength h.digits hrest
  have hfirst : minmeaIsfield ((text++rest).headD 0) = true := by
    obtain ⟨c,s,rfl⟩ := List.exists_cons_of_length_pos (by omega : 0 < text.length)
    exact h.isField c (by simp)
  simp only [scanTime,if_pos hfirst,if_pos hsix,hpair 0 (by decide),hpair 2 (by decide),
    hpair 4 (by decide),Option.some.injEq,MinmeaTime.mk.injEq,true_and]
  rw [List.drop_append_of_le_length hlength]
  rcases h.text_eq with ⟨htext,rfl⟩ | hdrop
  · rw [List.drop_eq_nil_of_le htext.le,List.nil_append]
    have hno := hrest.no_field
    split
    · rw [List.headD_cons] at hno
      exact absurd hno (by decide)
    · rfl
  · have hnondigit : isdigit (rest.headD 0) = false := by
      by_contra hd
      have hno := hrest.no_field
      rw [minmeaIsfield_of_isdigit (by simpa only [Bool.not_eq_false] using hd)] at hno
      exact absurd hno (by decide)
    have hloop := scanMicros_digits h.fraction hnondigit 0 6
    rw [zero_mul,zero_add] at hloop
    rw [hdrop,List.cons_append]
    simp only [show (1000000 : ℕ) = 10^6 by rfl,hloop,microsOf]

theorem scanField_denotes {type : Char} {text rest : List UInt8} {v : ScanValue}
    (h : Denotes type text v) (hrest : FieldEnd rest) :
    scanField type (some (text++rest)) = some v := by
  have hno := hrest.no_field
  cases h with
  | char h => simp [scanField,scanChar,h]
  | noChar =>
    cases rest with
    | nil => rfl
    | cons c rest =>
      rw [List.headD_cons] at hno
      simp [scanField,scanChar,hno]
  | @direction c h =>
    have hletter := direction_letter h
    rcases hletter with rfl | rfl | rfl | rfl <;> rfl
  | noDirection =>
    cases rest with
    | nil => rfl
    | cons c rest =>
      rw [List.headD_cons] at hno
      simp [scanField,scanDirection,hno]
  | float h => simp [scanField,scanFloat_number h hrest]
  | noFloat => simp [scanField,scanFloat,scanFloatLoop_end hrest]
  | int hsign hne hdigits hfit =>
    simp only [scanField,scanInt_number hsign hne hdigits hfit hrest,Option.map_some]
  | noInt => simp [scanField,scanInt_empty hrest]
  | string h => simp [scanField,takeWhile_field h hrest]
  | @type t hlength h =>
    have hall :
        ((List.range 5).all fun f => minmeaIsfield (((36::t)++rest).getD (1+f) 0)) = true := by
      rw [List.all_eq_true]
      intro f hf
      rw [List.mem_range] at hf
      rw [Nat.add_comm,List.cons_append,List.getD_cons_succ,List.getD_append _ _ _ _ (by omega),
        List.getD_eq_getElem _ _ (by omega)]
      exact h _ (List.getElem_mem _)
    have htype : scanType (some ((36::t)++rest)) = some t := by
      rw [scanType,if_neg (by simp),if_neg (by rw [hall]; decide),List.cons_append,
        List.drop_succ_cons,List.drop_zero,List.take_left' hlength]
    simp only [scanField,htype,Option.map_some]
  | date hlength h => simp [scanField,scanDate_digits hlength h hrest]
  | noDate =>
    simp only [scanField,scanDate,List.nil_append,hno,Bool.false_eq_true,if_false,Option.map_some]
  | time h => simp [scanField,scanTime_digits h hrest]
  | noTime =>
    simp only [scanField,scanTime,List.nil_append,hno,Bool.false_eq_true,if_false,Option.map_some]
  | ignored h => rfl

/-! ### Sentences -/

def joinFields : List (List UInt8) → List UInt8
  | [] => []
  | [text] => text
  | text::texts => text++44::joinFields texts

/-- Fields that spell the values of a format. Fields behind the last conversion are not read,
and behind a semicolon they may be missing. -/
inductive Spelled : Bool → List Char → List (List UInt8) → List ScanValue → Prop
  | done {optional : Bool} {fields : List (List UInt8)} : Spelled optional [] fields []
  | semicolon {optional : Bool} {format : List Char} {fields : List (List UInt8)}
      {values : List ScanValue} (h : Spelled true format fields values) :
      Spelled optional (';'::format) fields values
  | field {optional : Bool} {type : Char} {format : List Char} {text : List UInt8}
      {fields : List (List UInt8)} {v : ScanValue} {values : List ScanValue}
      (hv : Denotes type text v) (h : Spelled optional format fields values) :
      Spelled optional (type::format) (text::fields) (v::values)
  | missing {type : Char} {format : List Char} {v : ScanValue} {values : List ScanValue}
      (hv : scanField type none = some v) (h : Spelled true format [] values) :
      Spelled true (type::format) [] (v::values)

structure SentenceEnd (rest : List UInt8) : Prop where
  no_field : minmeaIsfield (rest.headD 0) = false
  no_number : ∀ c ∈ (rest.dropWhile isspace).head?, c = 42
  no_comma : rest.headD 0 ≠ 44

theorem SentenceEnd.fieldEnd {rest : List UInt8} (h : SentenceEnd rest) : FieldEnd rest :=
  ⟨h.no_field,fun c hc => Or.inr (h.no_number c hc)⟩

theorem fieldEnd_comma (rest : List UInt8) : FieldEnd (44::rest) where
  no_field := rfl
  no_number c hc := by
    have hspace : (44::rest).dropWhile isspace = 44::rest := rfl
    rw [hspace,List.head?_cons,Option.mem_def,Option.some.injEq] at hc
    exact Or.inl hc.symm

theorem SentenceEnd.nextField {rest : List UInt8} (h : SentenceEnd rest) :
    nextField rest = (rest,none) := by
  have hdrop : rest.dropWhile minmeaIsfield = rest := by
    cases rest with
    | nil => rfl
    | cons c rest => exact List.dropWhile_cons_of_neg (by simpa using h.no_field)
  rw [Minmea.nextField,hdrop]
  split
  · exact absurd rfl h.no_comma
  · rfl

theorem nextField_field {text rest : List UInt8} (h : ∀ c ∈ text, minmeaIsfield c = true) :
    nextField (text++rest) = nextField rest := by
  rw [nextField,nextField,List.dropWhile_append_of_pos h]

theorem scanLoop_spelled {optional : Bool} {format : List Char} {fields : List (List UInt8)}
    {values : List ScanValue} (h : Spelled optional format fields values) {rest : List UInt8}
    (hrest : SentenceEnd rest) :
    scanLoop format (joinFields fields++rest)
      (if fields = [] then none else some (joinFields fields++rest)) optional = (values,true) := by
  induction h with
  | done => rfl
  | semicolon _ ih => rw [scanLoop,if_pos rfl,ih]
  | @field optional type format text fields v values hv _ ih =>
    have hsemi : ¬ type = ';' := by
      rintro rfl
      cases hv
    have hfield := hv.isField
    cases fields with
    | nil =>
      have hscan := scanField_denotes hv hrest.fieldEnd
      rw [if_pos rfl] at ih
      rw [if_neg (List.cons_ne_nil _ _),joinFields,scanLoop,if_neg hsemi,if_neg (by simp)]
      simp only [hscan,nextField_field hfield,hrest.nextField]
      rw [show scanLoop format rest none optional = (values,true) from ih]
    | cons next fields =>
      have hscan := scanField_denotes hv (fieldEnd_comma (joinFields (next::fields)++rest))
      have hnext : nextField (text++44::(joinFields (next::fields)++rest)) =
          (joinFields (next::fields)++rest,some (joinFields (next::fields)++rest)) := by
        rw [nextField_field hfield]
        rfl
      rw [if_neg (List.cons_ne_nil _ _)] at ih
      rw [if_neg (List.cons_ne_nil _ _),joinFields,List.append_assoc,List.cons_append,scanLoop,
        if_neg hsemi,if_neg (by simp)]
      · simp only [hscan,hnext,ih]
      · exact List.cons_ne_nil _ _
  | @missing type format v values hv _ ih =>
    have hsemi : ¬ type = ';' := by
      rintro rfl
      simp [scanField] at hv
    rw [if_pos rfl] at ih ⊢
    rw [scanLoop,if_neg hsemi,if_neg (by simp)]
    simp only [hv,joinFields,List.nil_append,hrest.nextField]
    rw [show scanLoop format rest none true = (values,true) from ih]

end SentenceFields
end A9GTracker
