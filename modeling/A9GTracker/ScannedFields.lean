import Mathlib.Data.Int.ModEq
import A9GTracker.Decimal
import A9GTracker.Minmea

/-! What a complete scan reads: every conversion sees the text of its own field, and a field
of digits gives the number they stand for, as far as 32 bits hold it. -/
namespace A9GTracker
namespace ScannedFields

open CString Utils ConfigStore Decimal Minmea

/-! ### Fields -/

/-- The cursors of `minmea_scan` in front of the `n`-th conversion from here. -/
def cursor : ℕ → List UInt8 × Option (List UInt8) → List UInt8 × Option (List UInt8)
  | 0, here => here
  | n+1, here => cursor n (nextField here.1)

def fieldText (sentence : List UInt8) (n : ℕ) : List UInt8 :=
  ((cursor n (sentence,some sentence)).2.getD []).takeWhile minmeaIsfield

/-- A complete scan converts every field with the conversion of its place. -/
theorem scanLoop_value {format : List Char} {sentence : List UInt8} {field : Option (List UInt8)}
    (hsemi : ';' ∉ format) (h : (scanLoop format sentence field false).2 = true) {n : ℕ} {c : Char}
    (hn : format[n]? = some c) :
    (scanLoop format sentence field false).1[n]? =
      scanField c (cursor n (sentence,field)).2 := by
  induction format generalizing sentence field n with
  | nil => simp at hn
  | cons type format ih =>
    have htype : ¬ type = ';' := fun heq => hsemi (by simp [heq])
    have hfield : ¬ (field = none ∧ ¬ false = true) := by
      intro hf
      rw [scanLoop,if_neg htype,if_pos hf] at h
      exact absurd h (by decide)
    rw [scanLoop,if_neg htype,if_neg hfield] at h ⊢
    cases hv : scanField type field with
    | none => simp [hv] at h
    | some v =>
      simp only [hv] at h ⊢
      cases n with
      | zero =>
        obtain rfl : type = c := by simpa using hn
        simpa [cursor] using hv.symm
      | succ n => exact ih (fun hmem => hsemi (by simp [hmem])) h (by simpa using hn)

theorem scanFloatLoop_takeWhile (s : List UInt8) (a : FloatAcc) :
    scanFloatLoop (s.takeWhile minmeaIsfield) a = scanFloatLoop s a := by
  induction s generalizing a with
  | nil => rfl
  | cons c s ih =>
    by_cases hc : minmeaIsfield c = true
    · rw [List.takeWhile_cons_of_pos hc]
      simp only [scanFloatLoop,ih]
    · rw [List.takeWhile_cons_of_neg hc,scanFloatLoop,scanFloatLoop,if_pos hc]

theorem scanFloat_field (field : Option (List UInt8)) :
    scanFloat (some ((field.getD []).takeWhile minmeaIsfield)) = scanFloat field := by
  simp only [scanFloat,Option.getD_some,scanFloatLoop_takeWhile]

/-- The sign of a direction: north and east count up, south and west down. -/
def letterSign (text : List UInt8) : ℤ :=
  if text.head? = some 78 ∨ text.head? = some 69 then 1
  else if text.head? = some 83 ∨ text.head? = some 87 then -1
  else 0

theorem scanDirection_field {field : Option (List UInt8)} {d : ℤ}
    (h : scanDirection field = some d) :
    d = letterSign ((field.getD []).takeWhile minmeaIsfield) := by
  cases field with
  | none => simpa [scanDirection,letterSign] using h.symm
  | some s =>
    cases s with
    | nil => simpa [scanDirection,letterSign] using h.symm
    | cons c s =>
      simp only [scanDirection] at h
      simp only [Option.getD_some]
      split_ifs at h with hfield hup hdown
      · rw [List.takeWhile_cons_of_pos hfield]
        simpa [letterSign,hup] using h.symm
      · rw [List.takeWhile_cons_of_pos hfield]
        simpa [letterSign,hup,hdown] using h.symm
      · rw [List.takeWhile_cons_of_neg hfield]
        simpa [letterSign] using h.symm

/-! ### Numbers -/

theorem wrap32_wrap32_mul (a b : ℤ) : wrap32 (wrap32 a*b) = wrap32 (a*b) := by
  have hmod : ∀ n : ℤ, wrap32 n ≡ n [ZMOD 4294967296] := by
    intro n
    rw [Int.modEq_iff_dvd]
    unfold wrap32
    omega
  have hmul := (hmod a).mul_right b
  have hadd := hmul.add_right 2147483648
  simp only [wrap32] at hadd ⊢
  rw [hadd]

theorem minmeaIsfield_of_isNumeric {c : UInt8} (h : isNumeric c = true) :
    minmeaIsfield c = true := by
  rw [isNumeric_iff,isdigit_iff] at h
  have hne : ∀ b : UInt8, b.toNat < 48 → c ≠ b := by
    rintro b hb rfl
    omega
  have hcomma := hne 44 (by decide)
  have hstar := hne 42 (by decide)
  have hprint : isprint c = true := isprint_iff.2 (by omega)
  simp only [minmeaIsfield,hprint,Bool.true_and,Bool.and_eq_true,bne_iff_ne]
  exact ⟨hcomma,hstar⟩

theorem minmeaIsfield_of_isdigit {c : UInt8} (h : isdigit c = true) : minmeaIsfield c = true :=
  minmeaIsfield_of_isNumeric (isNumeric_of_isdigit h)

/-- The digits of the fraction up to the first one with which the whole number exceeds
31 bits. -/
def fitting (whole : List UInt8) : List UInt8 → List UInt8
  | [] => []
  | c::frac =>
    if digitsValue (whole++[c]) ≤ 2147483647 then c::fitting (whole++[c]) frac else []

theorem fitting_le {whole : List UInt8} (h : digitsValue whole ≤ 2147483647) (frac : List UInt8) :
    digitsValue (whole++fitting whole frac) ≤ 2147483647 := by
  induction frac generalizing whole with
  | nil => simpa [fitting] using h
  | cons c frac ih =>
    rw [fitting]
    split_ifs with hfit
    · simpa using ih hfit
    · simpa using h

theorem fitting_begins (whole frac : List UInt8) : fitting whole frac <+: frac := by
  induction frac generalizing whole with
  | nil => exact List.prefix_rfl
  | cons c frac ih =>
    rw [fitting]
    split_ifs
    · exact (List.prefix_cons_inj c).2 (ih _)
    · exact List.nil_prefix

/-- The accumulator after the digits so far, which is -1 before the first. -/
def started (pre : List UInt8) : ℤ := if pre = [] then -1 else digitsValue pre

theorem scanFloatLoop_digit {c : UInt8} (hc : isdigit c = true) (pre field : List UInt8)
    (scale : ℤ) :
    scanFloatLoop (c::field) ⟨0,started pre,scale⟩ =
      if 2147483647 < digitsValue (pre++[c]) then
        if scale ≠ 0 then some ⟨0,digitsValue pre,scale⟩ else none
      else
        scanFloatLoop field
          ⟨0,started (pre++[c]),if scale ≠ 0 then wrap32 (scale*10) else scale⟩ := by
  have hrange := toNat_of_isdigit hc
  have hne : ∀ b : UInt8, b.toNat < 48 → c ≠ b := by
    rintro b hb rfl
    omega
  have hplus := hne 43 (by decide)
  have hminus := hne 45 (by decide)
  have hvalue : (if started pre = -1 then 0 else started pre) = (digitsValue pre : ℤ) := by
    unfold started
    by_cases hpre : pre = []
    · simp [hpre,digitsValue]
    · rw [if_neg hpre,if_neg (by omega)]
  have hnext : started (pre++[c]) = 10*(digitsValue pre : ℤ)+((c.toNat : ℤ)-48) := by
    rw [started,if_neg (by simp),digitsValue_concat]
    omega
  have hover : (digitsValue pre : ℤ) > (2147483647-((c.toNat : ℤ)-48)) / 10 ↔
      2147483647 < digitsValue (pre++[c]) := by
    rw [digitsValue_concat]
    omega
  rw [scanFloatLoop,if_neg (by simp [minmeaIsfield_of_isdigit hc]),if_neg (by simp [hplus]),
    if_neg (by simp [hminus]),if_pos hc]
  simp only [hvalue,hover,hnext]

theorem scanFloatLoop_whole {ds : List UInt8} (hds : IsDigits ds) (pre field : List UInt8)
    {a : FloatAcc} (h : scanFloatLoop (ds++field) ⟨0,started pre,0⟩ = some a) :
    scanFloatLoop field ⟨0,started (pre++ds),0⟩ = some a ∧
      (ds ≠ [] → digitsValue (pre++ds) ≤ 2147483647) := by
  induction ds generalizing pre with
  | nil => simpa using h
  | cons c ds ih =>
    obtain ⟨hc,hds⟩ := isDigits_cons.1 hds
    rw [List.cons_append,scanFloatLoop_digit hc] at h
    simp only [ne_eq,not_true_eq_false,if_false] at h
    split_ifs at h with hover
    obtain ⟨hrest,hle⟩ := ih hds (pre++[c]) h
    rw [List.append_assoc,List.singleton_append] at hrest hle
    refine ⟨hrest,fun _ => ?_⟩
    by_cases hnil : ds = []
    · rw [hnil]
      omega
    · exact hle hnil

theorem scanFloatLoop_fraction {frac : List UInt8} (hfrac : IsDigits frac) {whole : List UInt8}
    (hne : whole ≠ []) (k : ℕ) {a : FloatAcc}
    (h : scanFloatLoop frac ⟨0,digitsValue whole,wrap32 (10^k)⟩ = some a) :
    a = ⟨0,digitsValue (whole++fitting whole frac),wrap32 (10^(k+(fitting whole frac).length))⟩ := by
  induction frac generalizing whole k with
  | nil => simpa [scanFloatLoop,fitting] using h.symm
  | cons c frac ih =>
    obtain ⟨hc,hfrac⟩ := isDigits_cons.1 hfrac
    have hstarted : (digitsValue whole : ℤ) = started whole := by
      rw [started,if_neg hne]
    have hscale : (if wrap32 (10^k) ≠ 0 then wrap32 (wrap32 (10^k)*10) else wrap32 (10^k)) =
        wrap32 (10^(k+1)) := by
      have hmul : wrap32 (wrap32 (10^k)*10) = wrap32 (10^(k+1)) := by
        rw [wrap32_wrap32_mul,pow_succ]
      by_cases hzero : wrap32 (10^k) = 0
      · rw [← hmul,hzero]
        rfl
      · rw [if_pos hzero,hmul]
    rw [hstarted,scanFloatLoop_digit hc,hscale] at h
    rw [fitting]
    split_ifs at h with hover hzero
    · rw [if_neg (by omega)]
      simpa using h.symm
    · rw [started,if_neg (by simp)] at h
      rw [if_pos (by omega),ih hfrac (by simp) (k+1) h,List.append_assoc,List.singleton_append,
        List.length_cons,Nat.add_assoc,Nat.add_comm 1]

/-- Digits, perhaps with a point and more digits. -/
structure DecimalText (text whole frac : List UInt8) : Prop where
  text : text = whole ∧ frac = [] ∨ text = whole++46::frac
  nonempty : whole ≠ []
  digits : IsDigits whole
  fraction : IsDigits frac

theorem scanFloatLoop_decimal {text whole frac : List UInt8} (htext : DecimalText text whole frac)
    {a : FloatAcc} (h : scanFloatLoop text ⟨0,-1,0⟩ = some a) :
    digitsValue whole ≤ 2147483647 ∧ a.sign = 0 ∧
      a.value = digitsValue (whole++fitting whole frac) ∧
      (a.scale = wrap32 (10^(fitting whole frac).length) ∨ a.scale = 0 ∧ frac = []) := by
  have hstarted : started whole = digitsValue whole := if_neg htext.nonempty
  rcases htext.text with ⟨hwhole,rfl⟩ | hpoint
  · rw [hwhole,← List.append_nil whole] at h
    obtain ⟨hend,hle⟩ := scanFloatLoop_whole htext.digits [] [] h
    rw [List.nil_append,hstarted,scanFloatLoop] at hend
    obtain rfl := Option.some.inj hend
    exact ⟨hle htext.nonempty,rfl,by simp [fitting],Or.inr ⟨rfl,rfl⟩⟩
  · rw [hpoint] at h
    obtain ⟨hend,hle⟩ := scanFloatLoop_whole htext.digits [] (46::frac) h
    have hone : wrap32 (10^0) = 1 := by decide
    rw [List.nil_append,hstarted,scanFloatLoop,if_neg (by decide),if_neg (by simp),
      if_neg (by simp),if_neg (by decide),if_pos ⟨rfl,rfl⟩] at hend
    have ha := scanFloatLoop_fraction htext.fraction htext.nonempty 0 (by rw [hone]; exact hend)
    rw [Nat.zero_add] at ha
    subst ha
    exact ⟨hle htext.nonempty,rfl,rfl,Or.inl rfl⟩

theorem scanFloat_decimal {field : Option (List UInt8)} {whole frac : List UInt8}
    (htext : DecimalText ((field.getD []).takeWhile minmeaIsfield) whole frac) {f : MinmeaFloat}
    (h : scanFloat field = some f) :
    digitsValue whole ≤ 2147483647 ∧ f.value = digitsValue (whole++fitting whole frac) ∧
      f.scale = if wrap32 (10^(fitting whole frac).length) = 0 then 1
        else wrap32 (10^(fitting whole frac).length) := by
  rw [← scanFloat_field,scanFloat,Option.getD_some] at h
  cases hloop : scanFloatLoop ((field.getD []).takeWhile minmeaIsfield) ⟨0,-1,0⟩ with
  | none => simp [hloop] at h
  | some a =>
    obtain ⟨hle,hsign,hvalue,hscale⟩ := scanFloatLoop_decimal htext hloop
    have hne : ¬ a.value = -1 := by omega
    simp only [hloop,hsign,hne,and_false,if_false,ne_eq,not_true_eq_false,Option.some.injEq] at h
    subst h
    refine ⟨hle,hvalue,?_⟩
    rcases hscale with hscale | ⟨hscale,rfl⟩
    · rw [hscale]
    · have hone : wrap32 (10^0) = 1 := by decide
      rw [hscale,if_pos rfl,fitting,List.length_nil,hone,if_neg one_ne_zero]

end ScannedFields
end A9GTracker
