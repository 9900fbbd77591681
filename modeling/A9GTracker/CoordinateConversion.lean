import Mathlib.Tactic.FieldSimp
import Mathlib.Tactic.NormNum
import Mathlib.Tactic.Ring
import A9GTracker.RejectedSentences
import A9GTracker.ScannedFields
import A9GTracker.Tracker

/-! The coordinates of an accepted RMC sentence: from the digits of its fields through the
32-bit arithmetic of `minmea_tocoord` to the position of the tracker. -/
namespace A9GTracker
namespace CoordinateConversion

open CString Utils ConfigStore Decimal Minmea GpsParse RejectedSentences ScannedFields Tracker

/-! ### The two coordinates of a sentence -/

inductive Side
  | latitude | longitude

/-- The place of the number in the sentence; its direction letter follows. -/
def Side.field : Side → ℕ
  | .latitude => 3
  | .longitude => 5

def Side.stored : Side → Rmc → MinmeaFloat
  | .latitude, frame => frame.latitude
  | .longitude, frame => frame.longitude

def Side.reported : Side → GpsTrackerData → FloatVal
  | .latitude, data => data.latitude
  | .longitude, data => data.longitude

/-- An accepted sentence leaves the number of the field with the sign of its letter. -/
theorem rmc_stored {before : Rmc} {sentence : List UInt8}
    (h : (minmeaParseRmc before sentence).2 = true) (side : Side) :
    ∃ f, scanFloat (cursor side.field (sentence,some sentence)).2 = some f ∧
      side.stored (minmeaParseRmc before sentence).1 =
        f.orient (letterSign (fieldText sentence (side.field+1))) := by
  simp only [minmeaParseRmc,SentenceParser.parse] at h ⊢
  split_ifs at h with hcomplete
  obtain ⟨type,time,validity,latitude,latitudeDir,longitude,longitudeDir,speed,course,date,
    variation,variationDir,hvalues⟩ := rmc_values (scanLoop_kinds hcomplete)
  have hfield : ∀ n c, rmcParser.format.toList[n]? = some c →
      (minmeaScan sentence rmcParser.format).1[n]? =
        scanField c (cursor n (sentence,some sentence)).2 :=
    fun n c hn => scanLoop_value (by decide) hcomplete hn
  have hfloat : ∀ n f, rmcParser.format.toList[n]? = some 'f' →
      (minmeaScan sentence rmcParser.format).1[n]? = some (.float f) →
      scanFloat (cursor n (sentence,some sentence)).2 = some f := by
    intro n f hn hf
    rw [hfield n 'f' hn] at hf
    simpa [scanField] using hf
  have hletter : ∀ n d, rmcParser.format.toList[n]? = some 'd' →
      (minmeaScan sentence rmcParser.format).1[n]? = some (.direction d) →
      d = letterSign (fieldText sentence n) := by
    intro n d hn hd
    rw [hfield n 'd' hn] at hd
    exact scanDirection_field (by simpa [scanField] using hd)
  rw [minmeaScan,hvalues] at hfloat hletter
  rw [if_neg (by rw [hcomplete]; decide)]
  rw [minmeaScan,hvalues] at h ⊢
  simp only [rmcParser,storeAll,Target.store] at h ⊢
  split_ifs at h ⊢
  cases side with
  | latitude =>
    refine ⟨latitude,hfloat 3 latitude (by decide) rfl,?_⟩
    rw [Side.field,← hletter 4 latitudeDir (by decide) rfl]
    rfl
  | longitude =>
    refine ⟨longitude,hfloat 5 longitude (by decide) rfl,?_⟩
    rw [Side.field,← hletter 6 longitudeDir (by decide) rfl]
    rfl

/-! ### The arithmetic -/

structure CoordinateText (text deg mm frac : List UInt8) : Prop where
  decimal : DecimalText text (deg++mm) frac
  two : mm.length = 2

def minutesOf (mm frac : List UInt8) : ℚ := digitsValue mm+digitsValue frac / 10^frac.length

/-- The integer arithmetic of `minmea_tocoord` stays within 32 bits, does not divide by zero,
and separates the degrees and minutes of the text. -/
structure Exact (f : MinmeaFloat) (sign : ℤ) (deg mm frac : List UInt8) : Prop where
  product100 : wrap32 (f.scale*100) = f.scale*100
  product60 : wrap32 (60*f.scale) = 60*f.scale
  divisor100 : f.scale*100 ≠ 0
  divisor60 : 60*f.scale ≠ 0
  quotient : wrap32 (f.value.tdiv (f.scale*100)) = f.value.tdiv (f.scale*100)
  degrees : f.value.tdiv (f.scale*100) = sign*digitsValue deg
  minutes : (f.value.tmod (f.scale*100) : ℚ) / (60*f.scale : ℤ) = sign*minutesOf mm frac / 60

theorem letterSign_cases (text : List UInt8) :
    letterSign text = 1 ∨ letterSign text = -1 ∨ letterSign text = 0 := by
  unfold letterSign
  split_ifs <;> simp

theorem tdiv_of_sign {s : ℤ} (hs : s = 1 ∨ s = -1 ∨ s = 0) (n m : ℕ) :
    (s*n).tdiv m = s*(n / m : ℕ) ∧ (s*n).tmod m = s*(n % m : ℕ) := by
  rcases hs with rfl | rfl | rfl
  · simp [Int.tdiv_eq_ediv_of_nonneg,Int.tmod_eq_emod_of_nonneg]
  · simp [Int.neg_tdiv,Int.neg_tmod,Int.tdiv_eq_ediv_of_nonneg,Int.tmod_eq_emod_of_nonneg]
  · simp

theorem coordinate_divMod (deg : List UInt8) {mm frac : List UInt8} (htwo : mm.length = 2)
    (hmm : IsDigits mm) (hfrac : IsDigits frac) :
    digitsValue (deg++mm++frac) / (10^frac.length*100) = digitsValue deg ∧
      digitsValue (deg++mm++frac) % (10^frac.length*100) =
        digitsValue mm*10^frac.length+digitsValue frac := by
  have hlt := digitsValue_lt hfrac
  have hmmlt := digitsValue_lt hmm
  rw [htwo] at hmmlt
  have hrest : digitsValue mm*10^frac.length+digitsValue frac < 10^frac.length*100 := by
    have hmul : (digitsValue mm+1)*10^frac.length ≤ 100*10^frac.length :=
      Nat.mul_le_mul_right _ hmmlt
    rw [add_mul,one_mul] at hmul
    omega
  have hsplit : digitsValue (deg++mm++frac) =
      digitsValue mm*10^frac.length+digitsValue frac+10^frac.length*100*digitsValue deg := by
    rw [digitsValue_append,digitsValue_append,htwo]
    ring
  have hpos : 0 < 10^frac.length*100 := Nat.mul_pos (Nat.pow_pos (by decide)) (by decide)
  rw [hsplit,Nat.add_mul_div_left _ _ hpos,Nat.add_mul_mod_self_left,Nat.div_eq_of_lt hrest,
    Nat.mod_eq_of_lt hrest,Nat.zero_add]
  exact ⟨rfl,rfl⟩

theorem orient_value {f : MinmeaFloat} {sign : ℤ} (hsign : sign = 1 ∨ sign = -1 ∨ sign = 0) {n : ℕ}
    (hvalue : f.value = n) (hle : n ≤ 2147483647) : (f.orient sign).value = sign*n := by
  have horient : (f.orient sign).value = wrap32 (f.value*sign) := rfl
  rw [horient,hvalue,mul_comm]
  rcases hsign with rfl | rfl | rfl <;> exact wrap32_of_range (by omega) (by omega)

theorem exact_of_few {deg mm frac : List UInt8} (htwo : mm.length = 2) (hmm : IsDigits mm)
    (hfrac : IsDigits frac) (hfew : frac.length ≤ 7)
    (hfit : digitsValue (deg++mm++frac) ≤ 2147483647) {sign : ℤ}
    (hsign : sign = 1 ∨ sign = -1 ∨ sign = 0) {f : MinmeaFloat}
    (hvalue : f.value = sign*digitsValue (deg++mm++frac)) (hscale : f.scale = 10^frac.length) :
    Exact f sign deg mm frac := by
  have hupper : (10 : ℤ)^frac.length ≤ 10^7 := pow_le_pow_right₀ (by decide) hfew
  have hpos : (0 : ℤ) < 10^frac.length := pow_pos (by decide) _
  rw [← hscale] at hupper hpos
  obtain ⟨hdiv,hmod⟩ := coordinate_divMod deg htwo hmm hfrac
  have hdivisor : f.scale*100 = (10^frac.length*100 : ℕ) := by
    rw [hscale]
    push_cast
    ring
  obtain ⟨htdiv,htmod⟩ := tdiv_of_sign hsign (digitsValue (deg++mm++frac)) (10^frac.length*100)
  rw [hdiv,← hvalue,← hdivisor] at htdiv
  rw [hmod,← hvalue,← hdivisor] at htmod
  have hdeg : digitsValue deg ≤ 2147483647 := by
    rw [← hdiv]
    exact (Nat.div_le_self _ _).trans hfit
  have hrange : wrap32 (sign*digitsValue deg) = sign*digitsValue deg := by
    rcases hsign with rfl | rfl | rfl <;> exact wrap32_of_range (by omega) (by omega)
  have hminutes : (f.value.tmod (f.scale*100) : ℚ) / (60*f.scale : ℤ) =
      sign*minutesOf mm frac / 60 := by
    rw [htmod,hscale,minutesOf]
    push_cast
    field_simp
  exact
    { product100 := wrap32_of_range (by omega) (by omega)
      product60 := wrap32_of_range (by omega) (by omega)
      divisor100 := by omega
      divisor60 := by omega
      quotient := by rw [htdiv,hrange]
      degrees := htdiv
      minutes := hminutes }

/-- The conversion of one coordinate, and what the tracker makes of it. -/
structure Converts (side : Side) (before : Rmc) (sentence deg mm frac : List UInt8) : Prop where
  arithmetic : Exact (side.stored (minmeaParseRmc before sentence).1)
    (letterSign (fieldText sentence (side.field+1))) deg mm frac
  converted : minmeaTocoord (side.stored (minmeaParseRmc before sentence).1) =
    some (.num (letterSign (fieldText sentence (side.field+1))*
      (digitsValue deg+minutesOf mm frac / 60)))
  reported : ∀ (info : GpsInfo) (gpsUere : FloatVal) (now : ℤ) (data : GpsTrackerData),
    info.rmc = (minmeaParseRmc before sentence).1 → gpsProcess info gpsUere now = some data →
    side.reported data = .num (letterSign (fieldText sentence (side.field+1))*
      (digitsValue deg+minutesOf mm frac / 60))

theorem Exact.minmeaTocoord {f : MinmeaFloat} {sign : ℤ} {deg mm frac : List UInt8}
    (h : Exact f sign deg mm frac) :
    minmeaTocoord f = some (.num (sign*(digitsValue deg+minutesOf mm frac / 60))) := by
  have hscale : f.scale ≠ 0 := by
    intro hzero
    exact h.divisor60 (by rw [hzero,mul_zero])
  have htrap : wrap32 (f.scale*100) ≠ 0 := by
    rw [h.product100]
    exact h.divisor100
  rw [Tracker.minmeaTocoord,if_neg hscale,if_neg htrap,h.product100,h.product60,h.degrees]
  simp only [Option.some.injEq,FloatVal.num.injEq]
  rw [h.minutes]
  push_cast
  ring

/-- From eight digits that fit on the product overflows, until the scale is lost with the
thirty-second. -/
theorem not_exact_of_many {side : Side} {before : Rmc} {sentence deg mm frac : List UInt8}
    (hacc : (minmeaParseRmc before sentence).2 = true)
    (htext : CoordinateText (fieldText sentence side.field) deg mm frac)
    (hmany : 8 ≤ (fitting (deg++mm) frac).length) (hlost : (fitting (deg++mm) frac).length ≤ 31)
    (sign : ℤ) (deg' mm' frac' : List UInt8) :
    ¬ Exact (side.stored (minmeaParseRmc before sentence).1) sign deg' mm' frac' := by
  intro h
  obtain ⟨f,hscan,hstored⟩ := rmc_stored hacc side
  obtain ⟨-,-,hscale⟩ := scanFloat_decimal htext.decimal hscan
  have hproduct := h.product100
  have hsame : (side.stored (minmeaParseRmc before sentence).1).scale = f.scale := by
    rw [hstored]
    rfl
  rw [hsame,hscale] at hproduct
  have hoverflows : ∀ k ∈ List.range' 8 24, wrap32 (10^k) ≠ 0 ∧
      wrap32 (wrap32 (10^k)*100) ≠ wrap32 (10^k)*100 := by
    decide +kernel
  obtain ⟨hne,hover⟩ := hoverflows _ (List.mem_range'_1.2 ⟨hmany,by omega⟩)
  rw [if_neg hne] at hproduct
  exact hover hproduct

/-- A coordinate of digits is converted exactly, up to the last digit that fits 31 bits, when
at most seven digits of its fraction fit. -/
theorem conversion_exact {side : Side} {before : Rmc} {sentence deg mm frac : List UInt8}
    (hacc : (minmeaParseRmc before sentence).2 = true)
    (htext : CoordinateText (fieldText sentence side.field) deg mm frac)
    (hfew : (fitting (deg++mm) frac).length ≤ 7) :
    Converts side before sentence deg mm (fitting (deg++mm) frac) := by
  obtain ⟨f,hscan,hstored⟩ := rmc_stored hacc side
  obtain ⟨hle,hvalue,hscale⟩ := scanFloat_decimal htext.decimal hscan
  have hdigits := isDigits_append.1 htext.decimal.digits
  have hfit : IsDigits (fitting (deg++mm) frac) := fun c hc =>
    htext.decimal.fraction c ((fitting_begins (deg++mm) frac).subset hc)
  have hpow : (10 : ℤ)^(fitting (deg++mm) frac).length ≤ 10^7 :=
    pow_le_pow_right₀ (by decide) hfew
  have hpos : (0 : ℤ) < 10^(fitting (deg++mm) frac).length := pow_pos (by decide) _
  have hrange : wrap32 (10^(fitting (deg++mm) frac).length) =
      10^(fitting (deg++mm) frac).length := wrap32_of_range (by omega) (by omega)
  rw [hrange,if_neg hpos.ne'] at hscale
  have hexact : Exact (side.stored (minmeaParseRmc before sentence).1)
      (letterSign (fieldText sentence (side.field+1))) deg mm (fitting (deg++mm) frac) := by
    rw [hstored]
    exact exact_of_few htext.two hdigits.2 hfit hfew (fitting_le hle frac) (letterSign_cases _)
      (orient_value (letterSign_cases _) hvalue (fitting_le hle frac)) hscale
  refine ⟨hexact,hexact.minmeaTocoord,fun info gpsUere now data hinfo hdata => ?_⟩
  have hprocessed := gpsProcess_eq_some.1 hdata
  have hconverted := hexact.minmeaTocoord
  rw [← hinfo] at hconverted
  cases side with
  | latitude => exact Option.some.inj (hprocessed.latitude.symm.trans hconverted)
  | longitude => exact Option.some.inj (hprocessed.longitude.symm.trans hconverted)

def exampleSentence : List UInt8 :=
  lit "$GPRMC,081836,A,3751.65,S,14507.36,E,000.0,360.0,130998,011.3,E*62"

theorem conversion_exact_example :
    Converts .latitude zeroInfo.rmc exampleSentence (lit "37") (lit "51")
      (fitting (lit "37"++lit "51") (lit "65")) := by
  have hbytes : exampleSentence = _ := lit_ofList _
  refine conversion_exact ?_ ⟨⟨Or.inr ?_,by decide,by decide,by decide⟩,by decide⟩ (by decide)
  · rw [hbytes]
    decide +kernel
  · rw [hbytes]
    decide +kernel

/-- A longitude of which the last digit does not fit. -/
def longSentence : List UInt8 :=
  lit "$GPRMC,081836,A,3751.65,S,17959.123456,E,000.0,360.0,130998,011.3,E"

/-- The minutes 59.123456 are read as 59.12345. -/
theorem long_fraction_cut :
    ¬ ∀ (side : Side) (before : Rmc) (sentence deg mm frac : List UInt8),
      (minmeaParseRmc before sentence).2 = true →
      CoordinateText (fieldText sentence side.field) deg mm frac →
      Converts side before sentence deg mm frac := by
  intro h
  have hbytes : longSentence = _ := lit_ofList _
  obtain ⟨hacc,hstored⟩ : (minmeaParseRmc zeroInfo.rmc longSentence).2 = true ∧
      Side.longitude.stored (minmeaParseRmc zeroInfo.rmc longSentence).1 =
        ⟨1795912345,100000⟩ := by
    rw [hbytes]
    decide +kernel
  obtain ⟨htext,hsign⟩ :
      fieldText longSentence Side.longitude.field =
          (lit "179"++lit "59")++46::lit "123456" ∧
        letterSign (fieldText longSentence (Side.longitude.field+1)) = 1 := by
    rw [hbytes]
    decide +kernel
  have hdigits : digitsValue (lit "59") = 59 ∧ digitsValue (lit "123456") = 123456 ∧
      (lit "123456").length = 6 := by
    decide
  have hconverts := h .longitude zeroInfo.rmc longSentence (lit "179") (lit "59") (lit "123456")
    hacc ⟨⟨Or.inr htext,by decide,by decide,by decide⟩,by decide⟩
  have hminutes := hconverts.arithmetic.minutes
  have hmod : Int.tmod 1795912345 (100000*100) = 5912345 := by decide
  rw [hstored,hsign,minutesOf,hdigits.1,hdigits.2.1,hdigits.2.2,hmod] at hminutes
  norm_num at hminutes

end CoordinateConversion
end A9GTracker
