import Mathlib.Data.Int.Basic
import Mathlib.Tactic.Common
import Mathlib.Tactic.IntervalCases

/-! The proleptic Gregorian calendar: days counted in closed form from 1970-01-01, and instants
in their order. -/
namespace A9GTracker
namespace Gregorian

def leap (year : ℤ) : Bool := year % 4 = 0 && (year % 100 ≠ 0 || year % 400 = 0)

def yearLength (year : ℤ) : ℤ := if leap year then 366 else 365

def monthLength (year month : ℤ) : ℤ :=
  if month = 2 then if leap year then 29 else 28
  else if month = 4 ∨ month = 6 ∨ month = 9 ∨ month = 11 then 30 else 31

/-- The days since 1970-01-01, with years that begin in March. -/
def dayCount (year month day : ℤ) : ℤ :=
  let shifted := if month ≤ 2 then year-1 else year
  365*shifted+shifted / 4-shifted / 100+shifted / 400+(153*((month+9) % 12)+2) / 5+day-719469

theorem leap_eq_true_iff (year : ℤ) :
    leap year = true ↔ year % 4 = 0 ∧ (year % 100 ≠ 0 ∨ year % 400 = 0) := by
  simp [leap]

/-! ### Years and months -/

def yearStart (year : ℤ) : ℤ := dayCount year 1 1

theorem yearStart_eq (year : ℤ) :
    yearStart year =
      365*year+(year-1) / 4-(year-1) / 100+(year-1) / 400-719527 := by
  unfold yearStart dayCount
  norm_num
  omega

theorem yearStart_succ (year : ℤ) : yearStart (year+1) = yearStart year+yearLength year := by
  rw [yearStart_eq,yearStart_eq,yearLength]
  split_ifs with hleap
  · rw [leap_eq_true_iff] at hleap
    omega
  · rw [leap_eq_true_iff] at hleap
    omega

theorem yearStart_mono {year later : ℤ} (h : year ≤ later) : yearStart year ≤ yearStart later := by
  rw [yearStart_eq,yearStart_eq]
  omega

def monthStart (year month : ℤ) : ℤ := dayCount year month 1-yearStart year

theorem dayCount_eq (year month day : ℤ) :
    dayCount year month day = yearStart year+monthStart year month+(day-1) := by
  simp only [monthStart,dayCount]
  omega

theorem monthStart_one (year : ℤ) : monthStart year 1 = 0 := by
  simp [monthStart,yearStart]

/-- The days in front of a month, counted from the March before. -/
def monthOffset (month : ℤ) : ℤ := (153*((month+9) % 12)+2) / 5

theorem monthStart_of_le (year : ℤ) {month : ℤ} (h : month ≤ 2) :
    monthStart year month = monthOffset month-306 := by
  have hone : (1 : ℤ) ≤ 2 := by decide
  simp only [monthStart,yearStart,dayCount,monthOffset,if_pos h,if_pos hone]
  omega

theorem monthStart_of_gt (year : ℤ) {month : ℤ} (h : ¬ month ≤ 2) :
    monthStart year month = monthOffset month+yearLength year-306 := by
  have hsucc := yearStart_succ year
  rw [yearStart_eq (year+1),Int.add_sub_cancel] at hsucc
  simp only [monthStart,dayCount,monthOffset,if_neg h]
  omega

theorem monthStart_succ (year : ℤ) {month : ℤ} (hlow : 1 ≤ month) (hhigh : month < 12) :
    monthStart year (month+1) = monthStart year month+monthLength year month := by
  rcases (show month = 1 ∨ month = 2 ∨ ¬ month ≤ 2 by omega) with rfl | rfl | hlate
  · rw [monthStart_of_le year (by decide),monthStart_of_le year (by decide)]
    rfl
  · rw [monthStart_of_gt year (by decide),monthStart_of_le year (by decide),yearLength,monthLength]
    cases leap year <;> rfl
  · have hlength : monthOffset (month+1) = monthOffset month+monthLength year month := by
      rw [not_le] at hlate
      interval_cases month <;> rfl
    rw [monthStart_of_gt year hlate,monthStart_of_gt year (by omega),hlength]
    omega

theorem monthStart_twelve (year : ℤ) : monthStart year 12+31 = yearLength year := by
  have hoffset : monthOffset 12 = 275 := rfl
  rw [monthStart_of_gt year (by decide),hoffset]
  omega

theorem monthStart_mono (year : ℤ) {month later : ℤ} (hlow : 1 ≤ month) (h : month < later)
    (hhigh : later ≤ 12) :
    monthStart year month+monthLength year month ≤ monthStart year later := by
  induction later, Int.add_one_le_iff.2 h using Int.leInduction with
  | base => rw [monthStart_succ year hlow (by omega)]
  | succ later hle ih =>
    have hstep : monthStart year (later+1) = monthStart year later+monthLength year later :=
      monthStart_succ year (by omega) (by omega)
    have hpos : 0 ≤ monthLength year later := by
      unfold monthLength
      split_ifs <;> decide
    have hprev := ih (by omega) (by omega)
    omega

theorem monthStart_nonneg (year : ℤ) {month : ℤ} (hlow : 1 ≤ month) (hhigh : month ≤ 12) :
    0 ≤ monthStart year month := by
  rcases hlow.eq_or_lt with rfl | hlt
  · exact (monthStart_one year).ge
  · have hmono := monthStart_mono year le_rfl hlt hhigh
    rw [monthStart_one] at hmono
    have hjanuary : monthLength year 1 = 31 := rfl
    omega

theorem monthStart_add_monthLength_le (year : ℤ) {month : ℤ} (hlow : 1 ≤ month)
    (hhigh : month ≤ 12) : monthStart year month+monthLength year month ≤ yearLength year := by
  have htwelve := monthStart_twelve year
  rcases hhigh.eq_or_lt with rfl | hlt
  · have hdecember : monthLength year 12 = 31 := rfl
    omega
  · have hmono := monthStart_mono year hlow hlt le_rfl
    omega

/-! ### Instants -/

/-- A second of the calendar, without leap seconds. -/
structure Instant where
  year : ℤ
  month : ℤ
  day : ℤ
  hour : ℤ
  minute : ℤ
  second : ℤ
  month_range : 1 ≤ month ∧ month ≤ 12
  day_range : 1 ≤ day ∧ day ≤ monthLength year month
  hour_range : 0 ≤ hour ∧ hour ≤ 23
  minute_range : 0 ≤ minute ∧ minute ≤ 59
  second_range : 0 ≤ second ∧ second ≤ 59

def Instant.seconds (t : Instant) : ℤ :=
  dayCount t.year t.month t.day*86400+t.hour*3600+t.minute*60+t.second

def Instant.DayBefore (s t : Instant) : Prop :=
  s.year < t.year ∨ s.year = t.year ∧
    (s.month < t.month ∨ s.month = t.month ∧ s.day < t.day)

def Instant.SameDay (s t : Instant) : Prop :=
  s.year = t.year ∧ s.month = t.month ∧ s.day = t.day

def Instant.Before (s t : Instant) : Prop :=
  s.DayBefore t ∨ s.SameDay t ∧
    (s.hour < t.hour ∨ s.hour = t.hour ∧
      (s.minute < t.minute ∨ s.minute = t.minute ∧ s.second < t.second))

theorem dayCount_lt {s t : Instant} (h : s.DayBefore t) :
    dayCount s.year s.month s.day < dayCount t.year t.month t.day := by
  have hs := s.day_range
  have ht := t.day_range
  rw [dayCount_eq,dayCount_eq]
  rcases h with hyear | ⟨hyear,hmonth | ⟨hmonth,hday⟩⟩
  · have hnext := yearStart_mono (Int.add_one_le_iff.2 hyear)
    rw [yearStart_succ] at hnext
    have hend := monthStart_add_monthLength_le s.year s.month_range.1 s.month_range.2
    have hstart := monthStart_nonneg t.year t.month_range.1 t.month_range.2
    omega
  · have hend := monthStart_mono s.year s.month_range.1 hmonth t.month_range.2
    rw [← hyear]
    omega
  · rw [← hyear,← hmonth]
    omega

theorem Instant.seconds_lt {s t : Instant} (h : s.Before t) : s.seconds < t.seconds := by
  have hs := And.intro s.hour_range (And.intro s.minute_range s.second_range)
  have ht := And.intro t.hour_range (And.intro t.minute_range t.second_range)
  unfold seconds
  rcases h with hday | ⟨⟨hyear,hmonth,hday⟩,htime⟩
  · have hlt := dayCount_lt hday
    omega
  · rw [hyear,hmonth,hday]
    omega

theorem Instant.before_trichotomy (s t : Instant) :
    s.Before t ∨ t.Before s ∨ s.seconds = t.seconds := by
  by_cases hsame : s.SameDay t
  · have hsame' : t.SameDay s := ⟨hsame.1.symm,hsame.2.1.symm,hsame.2.2.symm⟩
    rcases lt_trichotomy s.hour t.hour with h | hhour | h
    · exact Or.inl (Or.inr ⟨hsame,Or.inl h⟩)
    · rcases lt_trichotomy s.minute t.minute with h | hminute | h
      · exact Or.inl (Or.inr ⟨hsame,Or.inr ⟨hhour,Or.inl h⟩⟩)
      · rcases lt_trichotomy s.second t.second with h | hsecond | h
        · exact Or.inl (Or.inr ⟨hsame,Or.inr ⟨hhour,Or.inr ⟨hminute,h⟩⟩⟩)
        · rw [seconds,seconds,hsame.1,hsame.2.1,hsame.2.2,hhour,hminute,hsecond]
          exact Or.inr (Or.inr rfl)
        · exact Or.inr (Or.inl (Or.inr ⟨hsame',Or.inr ⟨hhour.symm,Or.inr ⟨hminute.symm,h⟩⟩⟩))
      · exact Or.inr (Or.inl (Or.inr ⟨hsame',Or.inr ⟨hhour.symm,Or.inl h⟩⟩))
    · exact Or.inr (Or.inl (Or.inr ⟨hsame',Or.inl h⟩))
  · simp only [Before,DayBefore,SameDay] at hsame ⊢
    omega

theorem Instant.seconds_lt_iff {s t : Instant} : s.seconds < t.seconds ↔ s.Before t := by
  refine ⟨fun hlt => ?_,seconds_lt⟩
  rcases before_trichotomy s t with h | h | h
  · exact h
  · exact absurd (seconds_lt h) hlt.not_gt
  · exact absurd h hlt.ne

end Gregorian
end A9GTracker
