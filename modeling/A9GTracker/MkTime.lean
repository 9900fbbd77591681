import A9GTracker.Gregorian
import A9GTracker.Tracker

/-! `mk_time` against the Gregorian calendar, in exact arithmetic and with 32-bit integers. -/
namespace A9GTracker
namespace MkTime

open Minmea Gregorian Tracker

/-! ### The loops -/

theorem isLeapYear_eq (year : ℤ) : isLeapYear year = leap (1900+year) := by
  rw [isLeapYear,leap,add_comm]

theorem daysInMonth_eq {month : ℕ} (hmonth : month < 12) (year : ℤ) :
    daysInMonth month year = monthLength (1900+year) (month+1) := by
  unfold daysInMonth monthLength
  rw [isLeapYear_eq]
  interval_cases month <;> cases leap (1900+year) <;> simp

theorem sum_years (n : ℕ) :
    ((List.range n).map fun (y : ℕ) => if isLeapYear (70+y) then (366 : ℤ) else 365).sum =
      yearStart (1970+n) := by
  induction n with
  | zero => rfl
  | succ n ih =>
    have hyear : (1970 : ℤ)+n = 1900+(70+n) := by omega
    rw [List.range_succ,List.map_append,List.sum_append,ih,Nat.cast_succ,← add_assoc,
      yearStart_succ,yearLength]
    simp [isLeapYear_eq,hyear]

theorem sum_months (year : ℤ) {month : ℕ} (hmonth : month < 12) :
    ((List.range month).map fun m => daysInMonth m year).sum =
      monthStart (1900+year) (month+1) := by
  induction month with
  | zero => simp [monthStart_one]
  | succ n ih =>
    have hstep : monthStart (1900+year) (n+1+1) =
        monthStart (1900+year) (n+1)+monthLength (1900+year) (n+1) :=
      monthStart_succ _ (by omega) (by omega)
    rw [List.range_succ,List.map_append,List.sum_append,ih (by omega),Nat.cast_succ,hstep]
    simp [daysInMonth_eq (by omega : n < 12)]

/-- The two digits of a year stand for 1970 to 2069. -/
def fullYear (year : ℤ) : ℤ := if year < 70 then 2000+year else 1900+year

/-- A month outside the year counts on into the years around it, from 1970 on. -/
theorem mkTime_eq {date : MinmeaDate} (time : MinmeaTime)
    (h : 1970 ≤ fullYear date.year+(date.month-1) / 12) :
    mkTime date time =
      dayCount (fullYear date.year+(date.month-1) / 12) ((date.month-1) % 12+1) date.day*86400+
        time.hours*3600+time.minutes*60+time.seconds := by
  obtain ⟨month,hmonth⟩ :=
    Int.eq_ofNat_of_zero_le (Int.emod_nonneg (date.month-1) (by decide : (12 : ℤ) ≠ 0))
  have hlt : month < 12 := by omega
  obtain ⟨years,hyears⟩ := Int.eq_ofNat_of_zero_le (Int.sub_nonneg.2 h)
  have hfull : fullYear date.year =
      1900+(if date.year < 70 then date.year+100 else date.year) := by
    unfold fullYear
    split_ifs <;> omega
  have hbase : (if date.year < 70 then date.year+100 else date.year)+(date.month-1) / 12 =
      70+years := by
    omega
  have hyear : fullYear date.year+(date.month-1) / 12 = 1970+years := by omega
  have hyear' : (1900 : ℤ)+(70+years) = 1970+years := by omega
  simp only [mkTime]
  rw [hbase,hmonth,Int.toNat_natCast,add_sub_cancel_left,Int.toNat_natCast,sum_years,
    sum_months _ hlt,hyear,hyear',dayCount_eq]

/-! ### Calendar dates -/

structure Calendar (date : MinmeaDate) (time : MinmeaTime) : Prop where
  year : 0 ≤ date.year
  month : 1 ≤ date.month ∧ date.month ≤ 12
  day : 1 ≤ date.day ∧ date.day ≤ monthLength (fullYear date.year) date.month
  hours : 0 ≤ time.hours ∧ time.hours ≤ 23
  minutes : 0 ≤ time.minutes ∧ time.minutes ≤ 59
  seconds : 0 ≤ time.seconds ∧ time.seconds ≤ 59

variable {date date' : MinmeaDate} {time time' : MinmeaTime}

def Calendar.instant (h : Calendar date time) : Instant :=
  ⟨fullYear date.year,date.month,date.day,time.hours,time.minutes,time.seconds,
    h.month,h.day,h.hours,h.minutes,h.seconds⟩

theorem Calendar.le_fullYear (h : Calendar date time) : 1970 ≤ fullYear date.year := by
  have hyear := h.year
  unfold fullYear
  split_ifs <;> omega

theorem Calendar.mkTime_eq_seconds (h : Calendar date time) :
    mkTime date time = h.instant.seconds := by
  have hmonth := h.month
  have hcarry : (date.month-1) / 12 = 0 := by omega
  have hindex : (date.month-1) % 12+1 = date.month := by omega
  rw [mkTime_eq time (by rw [hcarry,add_zero]; exact h.le_fullYear),hcarry,hindex,add_zero]
  rfl

theorem mk_time_gregorian (h : Calendar date time) :
    mkTime date time = h.instant.seconds ∧
      ∀ {date' : MinmeaDate} {time' : MinmeaTime} (h' : Calendar date' time'),
        mkTime date time < mkTime date' time' ↔ h.instant.Before h'.instant := by
  refine ⟨h.mkTime_eq_seconds,fun h' => ?_⟩
  rw [h.mkTime_eq_seconds,h'.mkTime_eq_seconds]
  exact Instant.seconds_lt_iff

/-- 29 February 1996, 23:59:58. -/
theorem mk_time_gregorian_leap_day :
    mkTime ⟨29,2,96⟩ ⟨23,59,58,0⟩ = 825638398 ∧
      mkTime ⟨29,2,96⟩ ⟨23,59,58,0⟩ < mkTime ⟨1,3,96⟩ ⟨0,0,0,0⟩ := by
  have hleap : Calendar ⟨29,2,96⟩ ⟨23,59,58,0⟩ := by constructor <;> decide
  have hmarch : Calendar ⟨1,3,96⟩ ⟨0,0,0,0⟩ := by constructor <;> decide
  obtain ⟨hvalue,horder⟩ := mk_time_gregorian hleap
  refine ⟨?_,(horder hmarch).2 (Or.inl (Or.inr ⟨rfl,Or.inl (by decide : (2 : ℤ) < 3)⟩))⟩
  rw [hvalue]
  simp only [Calendar.instant,Instant.seconds]
  decide

end MkTime
end A9GTracker
