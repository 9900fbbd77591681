import A9GTracker.MkTime
import A9GTracker.ScannedFields

/-! `mk_time` on the target, where `int`, `long` and `time_t` have 32 bits. -/
namespace A9GTracker
namespace TimeRange

open CString Utils Minmea GpsParse ScannedFields Gregorian Tracker MkTime

/-! ### Checked arithmetic -/

/-- A result of 32-bit signed arithmetic, nothing on overflow. -/
def int32 (n : ℤ) : Option ℤ := if -2147483648 ≤ n ∧ n ≤ 2147483647 then some n else none

theorem int32_of_range {n : ℤ} (hlow : -2147483648 ≤ n) (hhigh : n ≤ 2147483647) :
    int32 n = some n :=
  if_pos ⟨hlow,hhigh⟩

theorem int32_bind {n : ℤ} {f : ℤ → Option ℤ} (hlow : -2147483648 ≤ n) (hhigh : n ≤ 2147483647) :
    (int32 n).bind f = f n := by
  rw [int32_of_range hlow hhigh,Option.bind_some]

theorem int32_eq_some {n m : ℤ} (h : int32 n = some m) : n = m ∧ m ≤ 2147483647 := by
  unfold int32 at h
  split_ifs at h with hrange
  obtain rfl := Option.some.inj h
  exact ⟨rfl,hrange.2⟩

def isLeapYear32 (year : ℤ) : Option Bool := (int32 (year+1900)).map fun _ => isLeapYear year

def daysInMonth32 (month : ℕ) (year : ℤ) : Option ℤ :=
  if month = 1 then (isLeapYear32 year).map fun _ => daysInMonth month year
  else some (daysInMonth month year)

def daysInYear32 (year : ℤ) : Option ℤ :=
  (isLeapYear32 year).map fun leap => if leap then 366 else 365

/-- A loop that adds up the days of the years or months below `n`. -/
def addDays32 (step : ℕ → Option ℤ) (n : ℕ) (days : ℤ) : Option ℤ :=
  (List.range n).foldlM (fun days k => do int32 (days+(← step k))) days

/-- `mk_time` with every operation checked. The years the month loops pass through lie between
the year they begin with and the one they end with. -/
def mkTime32 (date : MinmeaDate) (time : MinmeaTime) : Option ℤ := do
  let month ← int32 (date.month-1)
  let day ← int32 (date.day-1)
  let year ← int32 (if date.year < 70 then date.year+100 else date.year)
  let year ← int32 (year+month / 12)
  let month := month % 12
  let days ← addDays32 (fun y => daysInYear32 (70+y)) (year-70).toNat 0
  let days ← addDays32 (fun m => daysInMonth32 m year) month.toNat days
  let days ← int32 (days+day)
  let total ← int32 (days*86400)
  let total ← int32 (total+(← int32 (time.hours*3600)))
  let total ← int32 (total+(← int32 (time.minutes*60)))
  int32 (total+time.seconds)

theorem addDays32_of_range {step : ℕ → Option ℤ} {f : ℕ → ℤ} {n : ℕ}
    (hstep : ∀ k < n, step k = some (f k)) (hf : ∀ k < n, 0 ≤ f k) {days : ℤ} (hdays : 0 ≤ days)
    (hend : days+((List.range n).map f).sum ≤ 2147483647) :
    addDays32 step n days = some (days+((List.range n).map f).sum) ∧
      0 ≤ ((List.range n).map f).sum := by
  induction n with
  | zero => simp [addDays32]
  | succ n ih =>
    have hnonneg := hf n (by omega)
    rw [List.range_succ,List.map_append,List.sum_append,List.map_singleton,List.sum_singleton]
      at hend ⊢
    obtain ⟨hprev,hsum⟩ := ih (fun k hk => hstep k (by omega)) (fun k hk => hf k (by omega))
      (by omega)
    refine ⟨?_,by omega⟩
    unfold addDays32 at hprev ⊢
    rw [List.range_succ,List.foldlM_append,hprev]
    simp only [List.foldlM_cons,List.foldlM_nil,hstep n (by omega),Option.bind_eq_bind,
      Option.bind_some]
    rw [int32_of_range (by omega) (by omega)]
    simp only [Option.bind_some,add_assoc]
    rfl

theorem years32 {years : ℕ} (hyears : years ≤ 1000) (hstart : 0 ≤ yearStart (1970+years))
    (hend : yearStart (1970+years) ≤ 2147483647) :
    addDays32 (fun y => daysInYear32 (70+y)) years 0 = some (yearStart (1970+years)) := by
  have hstep : ∀ k < years, daysInYear32 (70+(k : ℤ)) =
      some (if isLeapYear (70+k) then 366 else 365) := by
    intro k hk
    rw [daysInYear32,isLeapYear32,int32_of_range (by omega) (by omega)]
    rfl
  have hloop := addDays32_of_range hstep (fun k _ => by split_ifs <;> decide) le_rfl
    (by rw [sum_years]; omega)
  rw [sum_years,zero_add] at hloop
  exact hloop.1

theorem months32 {year days : ℤ} {month : ℕ} (hmonth : month < 12) (hyear : 0 ≤ year)
    (hlate : year ≤ 1000) (hdays : 0 ≤ days)
    (hend : days+monthStart (1900+year) (month+1) ≤ 2147483647) :
    addDays32 (fun m => daysInMonth32 m year) month days =
      some (days+monthStart (1900+year) (month+1)) := by
  have hstep : ∀ k < month, daysInMonth32 k year = some (daysInMonth k year) := by
    intro k hk
    rw [daysInMonth32,isLeapYear32,int32_of_range (by omega) (by omega)]
    split_ifs <;> rfl
  have hnonneg : ∀ k < month, 0 ≤ daysInMonth k year := by
    intro k hk
    rw [daysInMonth_eq (by omega)]
    unfold monthLength
    split_ifs <;> decide
  have hloop := addDays32_of_range hstep hnonneg hdays (by rw [sum_months year hmonth]; omega)
  rw [sum_months year hmonth] at hloop
  exact hloop.1

/-! ### The window of dates -/

def lastSecond : Instant where
  year := 2038
  month := 1
  day := 19
  hour := 3
  minute := 14
  second := 7
  month_range := by decide
  day_range := by decide
  hour_range := by decide
  minute_range := by decide
  second_range := by decide

theorem lastSecond_seconds : lastSecond.seconds = 2147483647 := by decide

variable {date : MinmeaDate} {time : MinmeaTime}

/-- The instants in range lie in years up to 2038, and no part of their day count is larger than
the whole. -/
theorem day_parts (h : Calendar date time) (hle : h.instant.seconds ≤ 2147483647) :
    fullYear date.year ≤ 2038 ∧ 0 ≤ yearStart (fullYear date.year) ∧
      0 ≤ monthStart (fullYear date.year) date.month ∧
      dayCount (fullYear date.year) date.month date.day*86400 ≤ h.instant.seconds := by
  have hmonths := monthStart_nonneg (fullYear date.year) h.month.1 h.month.2
  have hyears : yearStart 1970 ≤ yearStart (fullYear date.year) := yearStart_mono h.le_fullYear
  have hepoch : yearStart 1970 = 0 := by decide
  have hday := h.day
  have hhours := h.hours
  have hminutes := h.minutes
  have hseconds := h.seconds
  have hsplit := dayCount_eq (fullYear date.year) date.month date.day
  have hparts : dayCount (fullYear date.year) date.month date.day*86400 ≤ h.instant.seconds := by
    simp only [Instant.seconds,Calendar.instant]
    omega
  refine ⟨?_,by omega,hmonths,hparts⟩
  by_contra hlate
  have hmono : yearStart 2039 ≤ yearStart (fullYear date.year) := yearStart_mono (by omega)
  have hend : yearStart 2039 = 25202 := by decide
  omega

theorem mkTime32_of_le (h : Calendar date time) (hle : h.instant.seconds ≤ 2147483647) :
    mkTime32 date time = some h.instant.seconds := by
  obtain ⟨hlate,hyears,hmonths,hdays⟩ := day_parts h hle
  have hday := h.day
  have hlength : monthLength (fullYear date.year) date.month ≤ 31 := by
    unfold monthLength
    split_ifs <;> decide
  have hsplit := dayCount_eq (fullYear date.year) date.month date.day
  have hearly := h.le_fullYear
  have hmonth := h.month
  have hhours := h.hours
  have hminutes := h.minutes
  have hseconds := h.seconds
  obtain ⟨month,hindex⟩ := Int.eq_ofNat_of_zero_le (by omega : 0 ≤ date.month-1)
  obtain ⟨years,hcount⟩ := Int.eq_ofNat_of_zero_le (by omega : 0 ≤ fullYear date.year-1970)
  have hyear : (if date.year < 70 then date.year+100 else date.year) = 70+years := by
    unfold fullYear at hcount
    split_ifs at hcount ⊢ <;> omega
  have hfull : (1970 : ℤ)+years = fullYear date.year := by omega
  have hfull' : (1900 : ℤ)+(70+years) = fullYear date.year := by omega
  have hmonth' : (month : ℤ)+1 = date.month := by omega
  have hyearLoop : addDays32 (fun y => daysInYear32 (70+y)) years 0 =
      some (yearStart (fullYear date.year)) := by
    have hloop := @years32 years (by omega)
    rw [hfull] at hloop
    exact hloop hyears (by omega)
  have hmonthLoop : addDays32 (fun m => daysInMonth32 m (70+years)) month
        (yearStart (fullYear date.year)) =
      some (yearStart (fullYear date.year)+monthStart (fullYear date.year) date.month) := by
    have hloop := @months32 (70+years) _ month (by omega) (by omega) (by omega)
      hyears
    rw [hfull',hmonth'] at hloop
    exact hloop (by omega)
  have htotal : h.instant.seconds =
      dayCount (fullYear date.year) date.month date.day*86400+time.hours*3600+time.minutes*60+
        time.seconds := rfl
  have hcarry : (70 : ℤ)+years+(month : ℤ) / 12 = 70+years := by omega
  have hrest : (month : ℤ) % 12 = month := by omega
  simp only [mkTime32,Option.bind_eq_bind]
  rw [hindex,int32_bind (by omega) (by omega),int32_bind (by omega) (by omega),hyear,
    int32_bind (by omega) (by omega),hcarry,int32_bind (by omega) (by omega),add_sub_cancel_left,
    Int.toNat_natCast,hyearLoop,Option.bind_some,hrest,Int.toNat_natCast,hmonthLoop,
    Option.bind_some,← hsplit,int32_bind (by omega) (by omega),int32_bind (by omega) (by omega),
    int32_bind (by omega) (by omega),int32_bind (by omega) (by omega),
    int32_bind (by omega) (by omega),int32_bind (by omega) (by omega),
    int32_of_range (by omega) (by omega)]
  rfl

theorem mkTime32_le {t : ℤ} (ht : mkTime32 date time = some t) : t ≤ 2147483647 := by
  simp only [mkTime32,Option.bind_eq_bind,Option.bind_eq_some_iff] at ht
  obtain ⟨_,-,_,-,_,-,_,-,_,-,_,-,_,-,_,-,_,-,_,-,_,-,_,-,hlast⟩ := ht
  exact (int32_eq_some hlast).2

/-- A calendar date is converted without overflow, and reported as its Unix time, exactly up to
the last second of 32 bits. -/
theorem timestamp_in_range (h : Calendar date time) :
    (mkTime32 date time = some h.instant.seconds ∧
      ∀ (info : GpsInfo) (gpsUere : FloatVal) (now : ℤ) (data : GpsTrackerData),
        info.rmc.valid = true → info.rmc.date = date → info.rmc.time = time →
        gpsProcess info gpsUere now = some data → data.timestamp = h.instant.seconds) ↔
      ¬ lastSecond.Before h.instant := by
  rw [← Instant.seconds_lt_iff,lastSecond_seconds,not_lt]
  constructor
  · rintro ⟨hchecked,-⟩
    exact mkTime32_le hchecked
  · intro hle
    refine ⟨mkTime32_of_le h hle,fun info gpsUere now data hvalid hdate htime hdata => ?_⟩
    have hstart : 0 ≤ h.instant.seconds := by
      obtain ⟨-,hyears,hmonths,hdays⟩ := day_parts h hle
      have hday := h.day
      have hsplit := dayCount_eq (fullYear date.year) date.month date.day
      omega
    have hstamp : data.timestamp = wrap32 (mkTime date time) := by
      rw [(gpsProcess_eq_some.1 hdata).timestamp,← hdate,← htime]
      exact if_pos hvalid
    rw [hstamp,h.mkTime_eq_seconds]
    exact wrap32_of_range (by omega) hle

/-- The example of `minmea_parse_rmc`, 13 September 1998, 08:18:36. -/
theorem timestamp_in_range_example :
    mkTime32 ⟨13,9,98⟩ ⟨8,18,36,0⟩ = some 905674716 := by
  have hcalendar : Calendar ⟨13,9,98⟩ ⟨8,18,36,0⟩ := by constructor <;> decide
  have hvalue : hcalendar.instant.seconds = 905674716 := by
    simp only [Calendar.instant,Instant.seconds]
    decide
  have hearly : ¬ lastSecond.Before hcalendar.instant := by
    rw [← Instant.seconds_lt_iff,lastSecond_seconds,hvalue]
    decide
  rw [((timestamp_in_range hcalendar).2 hearly).1,hvalue]

def lateSentence : List UInt8 :=
  lit "$GPRMC,031408,A,3751.65,S,14507.36,E,000.0,360.0,190138,011.3,E"

theorem timestamp_overflows :
    ¬ ∀ (before : Rmc) (sentence : List UInt8), (minmeaParseRmc before sentence).2 = true →
      ∀ h : Calendar (minmeaParseRmc before sentence).1.date
        (minmeaParseRmc before sentence).1.time,
      (minmeaParseRmc before sentence).1.date.year ≤ 99 →
      mkTime32 (minmeaParseRmc before sentence).1.date (minmeaParseRmc before sentence).1.time =
        some h.instant.seconds := by
  intro hall
  have hbytes : lateSentence = _ := lit_ofList _
  obtain ⟨hacc,hdate,htime⟩ : (minmeaParseRmc zeroInfo.rmc lateSentence).2 = true ∧
      (minmeaParseRmc zeroInfo.rmc lateSentence).1.date = ⟨19,1,38⟩ ∧
      (minmeaParseRmc zeroInfo.rmc lateSentence).1.time = ⟨3,14,8,0⟩ := by
    rw [hbytes]
    decide +kernel
  have hcalendar : Calendar ⟨19,1,38⟩ ⟨3,14,8,0⟩ := by constructor <;> decide
  have hcall := hall zeroInfo.rmc lateSentence hacc
  simp only [hdate,htime] at hcall
  have hseconds := mkTime32_le (hcall hcalendar (by decide))
  simp only [Calendar.instant,Instant.seconds] at hseconds
  exact absurd hseconds (by decide)

end TimeRange
end A9GTracker
