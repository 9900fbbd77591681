import Mathlib.Data.List.GetD
import A9GTracker.CoordinateConversion
import A9GTracker.TimeRange

/-! The timestamp of an accepted RMC sentence: the Unix time its date and time fields name, or
the system clock. -/
namespace A9GTracker
namespace ReportTimestamp

open CString Utils ConfigStore Decimal Minmea GpsParse RejectedSentences ScannedFields Gregorian
  Tracker CoordinateConversion MkTime TimeRange

/-! ### Date and time fields -/

def pair (text : List UInt8) (i : ℕ) : ℤ := digitsValue ((text.drop i).take 2)

/-- A field that begins with six digits, as far as the conversions of two digits see it. -/
theorem six_digits {s : List UInt8}
    (h : ((List.range 6).all fun f => isdigit (s.getD f 0)) = true) :
    s.takeWhile minmeaIsfield ≠ [] ∧
      ∀ i ≤ 4, twoDigits s i = pair (s.takeWhile minmeaIsfield) i ∧
        0 ≤ pair (s.takeWhile minmeaIsfield) i ∧ pair (s.takeWhile minmeaIsfield) i ≤ 99 := by
  have hdigit : ∀ f < 6, isdigit (s.getD f 0) = true := by
    simpa [List.all_eq_true] using h
  have hlength : 6 ≤ s.length := by
    by_contra hshort
    have hout := hdigit 5 (by omega)
    rw [List.getD_eq_default _ _ (by omega)] at hout
    exact absurd hout (by decide)
  have hdigits : IsDigits (s.take 6) := by
    intro c hc
    obtain ⟨f,hf,rfl⟩ := List.mem_iff_getElem.1 hc
    rw [List.length_take] at hf
    have hc := hdigit f (by omega)
    rw [List.getD_eq_getElem _ _ (by omega)] at hc
    rwa [List.getElem_take]
  have htext : s.takeWhile minmeaIsfield = s.take 6++(s.drop 6).takeWhile minmeaIsfield := by
    conv_lhs => rw [← List.take_append_drop 6 s]
    exact List.takeWhile_append_of_pos fun c hc => minmeaIsfield_of_isdigit (hdigits c hc)
  refine ⟨?_,fun i hi => ?_⟩
  · intro hnil
    have hlen := congrArg List.length htext
    rw [hnil,List.length_append,List.length_take] at hlen
    simp only [List.length_nil] at hlen
    omega
  · have hpair : ((s.takeWhile minmeaIsfield).drop i).take 2 = (s.drop i).take 2 := by
      rw [htext,List.drop_append_of_le_length (by rw [List.length_take]; omega),
        List.take_append_of_le_length (by rw [List.length_drop,List.length_take]; omega),
        List.drop_take,List.take_take]
      congr 1
      omega
    have htwo : IsDigits ((s.drop i).take 2) := by
      intro c hc
      refine hdigits c ?_
      rw [← List.take_append_drop i (s.take 6),List.mem_append]
      refine Or.inr ?_
      rw [List.drop_take]
      exact List.take_subset_take_left _ (by omega) hc
    have hlt := digitsValue_lt htwo
    have hle : (10 : ℕ)^((s.drop i).take 2).length ≤ 10^2 :=
      Nat.pow_le_pow_right (by decide) (by rw [List.length_take]; omega)
    have hnumeral : Numeral ((s.drop i).take 2) [] [] ((s.drop i).take 2) :=
      ⟨rfl,by simp [AllBlank],Or.inl rfl,htwo⟩
    rw [twoDigits,hnumeral.strtol_value (by omega),if_neg (by decide),pair,hpair]
    omega

theorem takeWhile_field_eq_nil {s : List UInt8} (h : ¬ minmeaIsfield (s.headD 0) = true) :
    s.takeWhile minmeaIsfield = [] := by
  cases s with
  | nil => rfl
  | cons c s => exact List.takeWhile_cons_of_neg h

theorem scanDate_field {field : Option (List UInt8)} {text : List UInt8} {d : MinmeaDate}
    (htext : (field.getD []).takeWhile minmeaIsfield = text) (h : scanDate field = some d) :
    text = [] ∧ d = ⟨-1,-1,-1⟩ ∨
      text ≠ [] ∧ d = ⟨pair text 0,pair text 2,pair text 4⟩ ∧
        ∀ i ≤ 4, 0 ≤ pair text i ∧ pair text i ≤ 99 := by
  subst htext
  cases field with
  | none => exact Or.inl ⟨rfl,by simpa [scanDate] using h.symm⟩
  | some s =>
    simp only [scanDate] at h
    simp only [Option.getD_some]
    split_ifs at h with hfield hdigits
    · obtain ⟨hne,hpairs⟩ := six_digits hdigits
      rw [(hpairs 0 (by decide)).1,(hpairs 2 (by decide)).1,(hpairs 4 (by decide)).1] at h
      exact Or.inr ⟨hne,(Option.some.inj h).symm,fun i hi => (hpairs i hi).2⟩
    · exact Or.inl ⟨takeWhile_field_eq_nil hfield,(Option.some.inj h).symm⟩

theorem scanTime_field {field : Option (List UInt8)} {text : List UInt8} {t : MinmeaTime}
    (htext : (field.getD []).takeWhile minmeaIsfield = text) (h : scanTime field = some t) :
    text = [] ∧ t = ⟨-1,-1,-1,-1⟩ ∨
      text ≠ [] ∧ (∃ u, t = ⟨pair text 0,pair text 2,pair text 4,u⟩) ∧
        ∀ i ≤ 4, 0 ≤ pair text i ∧ pair text i ≤ 99 := by
  subst htext
  cases field with
  | none => exact Or.inl ⟨rfl,by simpa [scanTime] using h.symm⟩
  | some s =>
    simp only [scanTime] at h
    simp only [Option.getD_some]
    split_ifs at h with hfield hdigits
    · obtain ⟨hne,hpairs⟩ := six_digits hdigits
      rw [(hpairs 0 (by decide)).1,(hpairs 2 (by decide)).1,(hpairs 4 (by decide)).1] at h
      exact Or.inr ⟨hne,⟨_,(Option.some.inj h).symm⟩,fun i hi => (hpairs i hi).2⟩
    · exact Or.inl ⟨takeWhile_field_eq_nil hfield,(Option.some.inj h).symm⟩

def dateText (sentence : List UInt8) : List UInt8 := fieldText sentence 9

def timeText (sentence : List UInt8) : List UInt8 := fieldText sentence 1

def Flagged (sentence : List UInt8) : Prop := (fieldText sentence 2).head? = some 65

instance (sentence : List UInt8) : Decidable (Flagged sentence) :=
  inferInstanceAs (Decidable (_ = _))

theorem scanChar_eq_iff (field : Option (List UInt8)) :
    scanChar field = 65 ↔ ((field.getD []).takeWhile minmeaIsfield).head? = some 65 := by
  cases field with
  | none => decide
  | some s =>
    cases s with
    | nil => decide
    | cons c s =>
      by_cases hc : minmeaIsfield c = true
      · simp [scanChar,hc]
      · simp [scanChar,hc]

/-- What an accepted sentence stores of its time, validity and date fields. -/
theorem rmc_timestamp_fields {before : Rmc} {sentence : List UInt8}
    (h : (minmeaParseRmc before sentence).2 = true) :
    scanTime (cursor 1 (sentence,some sentence)).2 =
        some (minmeaParseRmc before sentence).1.time ∧
      ((minmeaParseRmc before sentence).1.valid = true ↔ Flagged sentence) ∧
      scanDate (cursor 9 (sentence,some sentence)).2 =
        some (minmeaParseRmc before sentence).1.date := by
  simp only [minmeaParseRmc,SentenceParser.parse] at h ⊢
  split_ifs at h with hcomplete
  obtain ⟨type,time,validity,latitude,latitudeDir,longitude,longitudeDir,speed,course,date,
    variation,variationDir,hvalues⟩ := rmc_values (scanLoop_kinds hcomplete)
  have hfield : ∀ n c, rmcParser.format.toList[n]? = some c →
      (minmeaScan sentence rmcParser.format).1[n]? =
        scanField c (cursor n (sentence,some sentence)).2 :=
    fun n c hn => scanLoop_value (by decide) hcomplete hn
  have htime := hfield 1 'T' (by decide)
  have hvalidity := hfield 2 'c' (by decide)
  have hdate := hfield 9 'D' (by decide)
  rw [if_neg (by rw [hcomplete]; decide)]
  rw [minmeaScan,hvalues] at h htime hvalidity hdate ⊢
  simp only [rmcParser,storeAll,Target.store] at h ⊢
  split_ifs at h ⊢
  refine ⟨?_,?_,?_⟩
  · simpa [scanField] using htime.symm
  · rw [Flagged,fieldText,← scanChar_eq_iff]
    have hchar : validity = scanChar (cursor 2 (sentence,some sentence)).2 := by
      simpa [scanField] using hvalidity
    rw [← hchar]
    simp [charAt]
  · simpa [scanField] using hdate.symm

/-! ### The timestamp -/

/-- The Unix time of six digits of a date and six of a time. A month 00 or one above 12 counts
on into the years around. -/
def namedTime (date time : List UInt8) : ℤ :=
  dayCount (fullYear (pair date 4)+(pair date 2-1) / 12) ((pair date 2-1) % 12+1)
    (pair date 0)*86400+pair time 0*3600+pair time 2*60+pair time 4

/-- The timestamp a sentence should be given, where `now` is the system clock. -/
def realTime (sentence : List UInt8) (now : ℤ) : ℤ :=
  if Flagged sentence ∧ dateText sentence ≠ [] ∧ timeText sentence ≠ [] then
    namedTime (dateText sentence) (timeText sentence)
  else now

/-- Both fields are there, and name a time from 1970 on that 32 bits hold. -/
structure Named (date time : List UInt8) : Prop where
  datePresent : date ≠ []
  timePresent : time ≠ []
  /-- Month 00 of the year 70 would be December 1969. -/
  epoch : ¬ (pair date 4 = 70 ∧ pair date 2 = 0)
  range : namedTime date time ≤ 2147483647

theorem namedTime_ge {date time : List UInt8} (hdate : ∀ i ≤ 4, 0 ≤ pair date i ∧ pair date i ≤ 99)
    (htime : ∀ i ≤ 4, 0 ≤ pair time i ∧ pair time i ≤ 99) : -2147483648 ≤ namedTime date time := by
  have hyear := hdate 4 le_rfl
  have hmonth := hdate 2 (by decide)
  have hday := hdate 0 (by decide)
  have h0 := htime 0 (by decide)
  have h2 := htime 2 (by decide)
  have h4 := htime 4 le_rfl
  have hfull : 1969 ≤ fullYear (pair date 4)+(pair date 2-1) / 12 := by
    unfold fullYear
    split_ifs <;> omega
  have hstart := yearStart_mono hfull
  have hepoch : yearStart 1969 = -365 := by decide
  have hmonths := monthStart_nonneg (fullYear (pair date 4)+(pair date 2-1) / 12)
    (by omega : 1 ≤ (pair date 2-1) % 12+1) (by omega)
  rw [namedTime,dayCount_eq]
  omega

/-- `mk_time` gives the named time but for the month in front of its first year. -/
theorem mkTime_named {date time : List UInt8} {d : MinmeaDate} {t : MinmeaTime} {u : ℤ}
    (hd : d = ⟨pair date 0,pair date 2,pair date 4⟩)
    (ht : t = ⟨pair time 0,pair time 2,pair time 4,u⟩)
    (hdate : ∀ i ≤ 4, 0 ≤ pair date i ∧ pair date i ≤ 99)
    (htime : ∀ i ≤ 4, 0 ≤ pair time i ∧ pair time i ≤ 99) :
    (¬ (pair date 4 = 70 ∧ pair date 2 = 0) → mkTime d t = namedTime date time) ∧
      (pair date 4 = 70 ∧ pair date 2 = 0 → wrap32 (mkTime d t) ≠ namedTime date time) := by
  have hyear := hdate 4 le_rfl
  have hmonth := hdate 2 (by decide)
  have hday := hdate 0 (by decide)
  have h0 := htime 0 (by decide)
  have h2 := htime 2 (by decide)
  have h4 := htime 4 le_rfl
  subst hd ht
  refine ⟨fun hnot => ?_,fun hepoch => ?_⟩
  · refine mkTime_eq _ ?_
    simp only [fullYear]
    split_ifs <;> omega
  · have hmonths := sum_months 69 (by decide : 11 < 12)
    have hstart : monthStart (1900+69) ((11 : ℕ)+1) = 334 := by decide
    have hdecember : ∀ day, dayCount 1969 12 day = day-32 := by
      intro day
      rw [dayCount_eq]
      have hdays : yearStart 1969+monthStart 1969 12 = -31 := by decide
      omega
    rw [hstart] at hmonths
    have hyears : (List.range ((69 : ℤ)-70).toNat) = [] := by decide
    have hindex : ((0 : ℤ)-1) % 12 = (11 : ℕ) := by decide
    have hcarry : ((0 : ℤ)-1) / 12 = -1 := by decide
    have hfull : fullYear 70+-1 = 1969 := by decide
    have hmonth : ((11 : ℕ) : ℤ)+1 = 12 := by decide
    have hlast : (70 : ℤ)+-1 = 69 := by decide
    simp only [mkTime,namedTime,hepoch.1,hepoch.2,hindex,hcarry,hfull,hmonth,hdecember,
      Int.toNat_natCast]
    rw [if_neg (by decide),hlast,hyears,hmonths]
    simp only [List.map_nil,List.sum_nil]
    rw [wrap32_of_range (by omega) (by omega)]
    omega

theorem wrap32_le (n : ℤ) : wrap32 n ≤ 2147483647 := by
  unfold wrap32
  omega

/-- Where both fields are there, the seconds that `mk_time` makes of them are those they name just
when they name a time in range. -/
theorem mkTime_real_iff {before : Rmc} {sentence : List UInt8}
    (hacc : (minmeaParseRmc before sentence).2 = true) (hdate : dateText sentence ≠ [])
    (htime : timeText sentence ≠ []) :
    wrap32 (mkTime (minmeaParseRmc before sentence).1.date (minmeaParseRmc before sentence).1.time) =
        namedTime (dateText sentence) (timeText sentence) ↔
      Named (dateText sentence) (timeText sentence) := by
  obtain ⟨htimeField,-,hdateField⟩ := rmc_timestamp_fields hacc
  obtain ⟨-,hd,hdateRange⟩ := (scanDate_field rfl hdateField).resolve_left fun h => hdate h.1
  obtain ⟨-,⟨u,ht⟩,htimeRange⟩ := (scanTime_field rfl htimeField).resolve_left fun h => htime h.1
  obtain ⟨hnamed,hearly⟩ := mkTime_named hd ht hdateRange htimeRange
  constructor
  · intro hreal
    refine ⟨hdate,htime,fun hepoch => hearly hepoch hreal,?_⟩
    rw [← hreal]
    exact wrap32_le _
  · intro h
    rw [hnamed h.epoch]
    exact wrap32_of_range (namedTime_ge hdateRange htimeRange) h.range

/-- The timestamp after an accepted sentence is real, whatever the clock, exactly when a
sentence flagged valid has both fields and they name a time in range, and the conversion of
neither coordinate divides by zero. -/
theorem timestamp_real_iff {before : Rmc} {sentence : List UInt8} {info : GpsInfo}
    (hacc : (minmeaParseRmc before sentence).2 = true)
    (hinfo : info.rmc = (minmeaParseRmc before sentence).1) (gpsUere : FloatVal) :
    (∀ now, (gpsProcess info gpsUere now).map GpsTrackerData.timestamp =
        some (realTime sentence now)) ↔
      (Flagged sentence → Named (dateText sentence) (timeText sentence)) ∧
        Convertible info.rmc.latitude ∧ Convertible info.rmc.longitude := by
  by_cases hconv : Convertible info.rmc.latitude ∧ Convertible info.rmc.longitude
  · rw [and_iff_left hconv]
    obtain ⟨-,hvalid,-⟩ := rmc_timestamp_fields hacc
    have hreal_iff := mkTime_real_iff hacc
    rw [← hinfo] at hvalid hreal_iff
    have hstamp : ∀ now, (gpsProcess info gpsUere now).map GpsTrackerData.timestamp =
        some (if info.rmc.valid then wrap32 (mkTime info.rmc.date info.rmc.time) else now) := by
      intro now
      obtain ⟨data,hdata,hprocessed⟩ :=
        processed_of_convertible gpsUere now hconv.1 hconv.2
      rw [hdata,Option.map_some,hprocessed.timestamp]
    simp only [hstamp,Option.some.injEq]
    by_cases hflag : Flagged sentence
    · simp only [hvalid.2 hflag,if_true,hflag,true_imp_iff]
      constructor
      · intro hreal
        -- without one of the fields the clock decides, and the clock can have moved on
        have hboth : dateText sentence ≠ [] ∧ timeText sentence ≠ [] := by
          by_contra hnot
          have hclock := hreal (wrap32 (mkTime info.rmc.date info.rmc.time)+1)
          rw [realTime,if_neg fun hall => hnot hall.2] at hclock
          omega
        have hnow := hreal 0
        rw [realTime,if_pos ⟨hflag,hboth⟩] at hnow
        exact (hreal_iff hboth.1 hboth.2).1 hnow
      · intro hnamed now
        rw [realTime,if_pos ⟨hflag,hnamed.datePresent,hnamed.timePresent⟩]
        exact (hreal_iff hnamed.datePresent hnamed.timePresent).2 hnamed
    · have hvoid : ¬ info.rmc.valid = true := fun h => hflag (hvalid.1 h)
      simp [realTime,hflag,hvoid]
  · -- the call does not come back
    refine iff_of_false (fun hreal => hconv ?_) fun h => hconv h.2
    obtain ⟨data,hdata,-⟩ := Option.map_eq_some_iff.1 (hreal 0)
    have hprocessed := gpsProcess_eq_some.1 hdata
    constructor
    · by_contra hnot
      cases (minmeaTocoord_eq_none.2 hnot).symm.trans hprocessed.latitude
    · by_contra hnot
      cases (minmeaTocoord_eq_none.2 hnot).symm.trans hprocessed.longitude

/-- Where the digits behind the point that fit are 30 or 31 the products wrap to zero, and
nowhere else. -/
theorem convertible_iff_kept {side : Side} {before : Rmc} {sentence deg mm frac : List UInt8}
    (hacc : (minmeaParseRmc before sentence).2 = true)
    (htext : CoordinateText (fieldText sentence side.field) deg mm frac) :
    Convertible (side.stored (minmeaParseRmc before sentence).1) ↔
      (fitting (deg++mm) frac).length ≠ 30 ∧ (fitting (deg++mm) frac).length ≠ 31 := by
  obtain ⟨f,hscan,hstored⟩ := rmc_stored hacc side
  obtain ⟨-,-,hscale⟩ := scanFloat_decimal htext.decimal hscan
  have hsame : (side.stored (minmeaParseRmc before sentence).1).scale = f.scale := by
    rw [hstored]
    rfl
  rw [Convertible,hsame,hscale]
  generalize (fitting (deg++mm) frac).length = k
  rcases Nat.lt_or_ge k 32 with hk | hk
  · have hfew : ∀ k ∈ List.range 32,
        ((if wrap32 (10^k) = 0 then 1 else wrap32 (10^k)) = 0 ∨
          ¬ (1073741824 : ℤ) ∣ if wrap32 (10^k) = 0 then 1 else wrap32 (10^k)) ↔
            k ≠ 30 ∧ k ≠ 31 := by
      decide +kernel
    exact hfew k (List.mem_range.2 hk)
  · -- from 32 digits on the scale itself is lost
    obtain ⟨j,rfl⟩ := Nat.exists_eq_add_of_le hk
    have hzero : wrap32 (10^(32+j)) = 0 := by
      rw [pow_add]
      generalize (10 : ℤ)^j = n
      have hpow : (10 : ℤ)^32 = 4294967296*23283064365386962890625 := by norm_num
      rw [hpow,wrap32]
      omega
    rw [if_pos hzero]
    exact iff_of_true (Or.inr (by decide)) (by omega)

theorem timestamp_real_iff_example :
    (gpsProcess { zeroInfo with rmc := (minmeaParseRmc zeroInfo.rmc exampleSentence).1 } (.num 0)
      7).map GpsTrackerData.timestamp = some (realTime exampleSentence 7) := by
  have hbytes : exampleSentence = _ := lit_ofList _
  obtain ⟨hacc,hdate,htime,hlat,hlon⟩ : (minmeaParseRmc zeroInfo.rmc exampleSentence).2 = true ∧
      dateText exampleSentence = lit "130998" ∧ timeText exampleSentence = lit "081836" ∧
      (minmeaParseRmc zeroInfo.rmc exampleSentence).1.latitude = ⟨-375165,100⟩ ∧
      (minmeaParseRmc zeroInfo.rmc exampleSentence).1.longitude = ⟨1450736,100⟩ := by
    rw [hbytes]
    decide +kernel
  have hnamed : Named (dateText exampleSentence) (timeText exampleSentence) := by
    rw [hdate,htime]
    exact ⟨by decide,by decide,by decide +kernel,by decide +kernel⟩
  have hlat' : Convertible (minmeaParseRmc zeroInfo.rmc exampleSentence).1.latitude := by
    rw [hlat]
    exact Or.inr (by decide)
  have hlon' : Convertible (minmeaParseRmc zeroInfo.rmc exampleSentence).1.longitude := by
    rw [hlon]
    exact Or.inr (by decide)
  have hinfo : ({ zeroInfo with rmc := (minmeaParseRmc zeroInfo.rmc exampleSentence).1 } :
      GpsInfo).rmc = (minmeaParseRmc zeroInfo.rmc exampleSentence).1 := rfl
  exact (timestamp_real_iff hacc hinfo (.num 0)).2 ⟨fun _ => hnamed,hlat',hlon'⟩ 7

def datelessSentence : List UInt8 :=
  lit "$GPRMC,081836,A,3751.65,S,14507.36,E,000.0,360.0,,011.3,E"

/-- Its timestamp is 30 October 1998, 08:18:36. -/
theorem dateless_timestamp :
    ¬ ∀ (before : Rmc) (sentence : List UInt8) (info : GpsInfo) (gpsUere : FloatVal) (now : ℤ),
      (minmeaParseRmc before sentence).2 = true →
      info.rmc = (minmeaParseRmc before sentence).1 →
      (gpsProcess info gpsUere now).map GpsTrackerData.timestamp =
        some (realTime sentence now) := by
  intro h
  have hbytes : datelessSentence = _ := lit_ofList _
  obtain ⟨hacc,hstamp,hnow⟩ : (minmeaParseRmc zeroInfo.rmc datelessSentence).2 = true ∧
      (gpsProcess { zeroInfo with rmc := (minmeaParseRmc zeroInfo.rmc datelessSentence).1 }
        (.num 0) 0).map GpsTrackerData.timestamp = some 909735516 ∧
      realTime datelessSentence 0 = 0 := by
    rw [hbytes]
    decide +kernel
  have hreal := h zeroInfo.rmc datelessSentence
    { zeroInfo with rmc := (minmeaParseRmc zeroInfo.rmc datelessSentence).1 } (.num 0) 0 hacc rfl
  rw [hnow,hstamp] at hreal
  exact absurd hreal (by decide)

end ReportTimestamp
end A9GTracker
