import Mathlib.Data.Int.Basic

/-! # The calendar

    Dates of the proleptic Gregorian calendar and the days they stand for,
    counted from the 1st of January 1970. Years are counted from March, so that
    the day a leap year adds comes last.
-/

namespace Framework

structure Date where
  day : Int
  month : Int
  year : Int
  deriving DecidableEq

/-- Days before the year `y` of a 400-year era. -/
def daysBeforeYear (y : Int) : Int := 365 * y + y / 4 - y / 100

/-- The year within its era of day `d` of the era. -/
def yearOfEra (d : Int) : Int := (d - d / 1460 + d / 36524 - d / 146096) / 365

/-- Days before the month `m` of a year that starts in March. -/
def daysBeforeMonth (m : Int) : Int := (153 * m + 2) / 5

/-- The month of day `d` of a year that starts in March. -/
def monthOfYear (d : Int) : Int := (5 * d + 2) / 153

def dateOfDay (n : Int) : Date :=
  let z := n + 719468
  let era := z / 146097
  let year := yearOfEra (z % 146097)
  let day := z % 146097 - daysBeforeYear year
  let month := monthOfYear day
  { day := day - daysBeforeMonth month + 1
    month := if month < 10 then month + 3 else month - 9
    year := year + era * 400 + (if month < 10 then 0 else 1) }

def dayOfDate (date : Date) : Int :=
  let year := if date.month ≤ 2 then date.year - 1 else date.year
  let month := if date.month ≤ 2 then date.month + 9 else date.month - 3
  year / 400 * 146097 + (daysBeforeYear (year % 400) + daysBeforeMonth month + date.day - 1) - 719468

example : dateOfDay 0 = { day := 1, month := 1, year := 1970 } := by decide
example : dateOfDay 19782 = { day := 29, month := 2, year := 2024 } := by decide

theorem yearOfEra_bounds {d : Int} (h₀ : 0 ≤ d) (h₁ : d < 146097) :
    0 ≤ yearOfEra d ∧ yearOfEra d < 400 := by
  unfold yearOfEra
  omega

theorem day_of_year_bounds {d : Int} (h₀ : 0 ≤ d) (h₁ : d < 146097) :
    0 ≤ d - daysBeforeYear (yearOfEra d) ∧ d - daysBeforeYear (yearOfEra d) ≤ 365 := by
  -- the divisions by their bounds: `c` four-year cycles and `e` centuries before year `b`
  have hbounds : ∀ {b c e f g h : Int}, 1460 * f ≤ d ∧ d < 1460 * f + 1460 →
      36524 * g ≤ d ∧ d < 36524 * g + 36524 → 146096 * h ≤ d ∧ d < 146096 * h + 146096 →
      365 * b ≤ d - f + g - h ∧ d - f + g - h < 365 * b + 365 → 4 * c ≤ b ∧ b < 4 * c + 4 →
      100 * e ≤ b ∧ b < 100 * e + 100 →
      0 ≤ d - (365 * b + c - e) ∧ d - (365 * b + c - e) ≤ 365 := by
    intro b c e f g h hf hg hh hb hc he
    -- by the century the day lies in
    have hcentury : g = 0 ∨ g = 1 ∨ g = 2 ∨ g = 3 ∨ g = 4 := by omega
    rcases hcentury with rfl | rfl | rfl | rfl | rfl
    · obtain rfl : h = 0 := by omega
      obtain rfl : e = 0 := by omega
      omega
    · obtain rfl : h = 0 := by omega
      obtain rfl : e = 1 := by omega
      omega
    · obtain rfl : h = 0 := by omega
      obtain rfl : e = 2 := by omega
      omega
    · obtain rfl : h = 0 := by omega
      obtain rfl : e = 3 := by omega
      omega
    · -- the last day of the era, which is the 29th of February of its year 399
      obtain rfl : h = 1 := by omega
      obtain rfl : e = 3 := by omega
      omega
  unfold daysBeforeYear
  have hyear : 365 * yearOfEra d ≤ d - d / 1460 + d / 36524 - d / 146096 ∧
      d - d / 1460 + d / 36524 - d / 146096 < 365 * yearOfEra d + 365 := by
    unfold yearOfEra
    omega
  exact @hbounds _ _ _ (d / 1460) (d / 36524) (d / 146096) (by omega) (by omega) (by omega) hyear
    (by omega) (by omega)

theorem monthOfYear_bounds {d : Int} (h₀ : 0 ≤ d) (h₁ : d ≤ 365) :
    0 ≤ monthOfYear d ∧ monthOfYear d ≤ 11 := by
  unfold monthOfYear
  omega

/-- **The date of a day** stands for that day. -/
theorem dayOfDate_dateOfDay (n : Int) : dayOfDate (dateOfDay n) = n := by
  have hera₀ : 0 ≤ (n + 719468) % 146097 := by omega
  have hera₁ : (n + 719468) % 146097 < 146097 := by omega
  obtain ⟨hyear₀, hyear₁⟩ := yearOfEra_bounds hera₀ hera₁
  obtain ⟨hday₀, hday₁⟩ := day_of_year_bounds hera₀ hera₁
  obtain ⟨hmonth₀, hmonth₁⟩ := monthOfYear_bounds hday₀ hday₁
  unfold dayOfDate dateOfDay
  simp only
  generalize yearOfEra ((n + 719468) % 146097) = y at *
  generalize monthOfYear ((n + 719468) % 146097 - daysBeforeYear y) = m at *
  generalize hera : (n + 719468) / 146097 = era
  have hsplit : 146097 * era + (n + 719468) % 146097 = n + 719468 := by omega
  -- the year and the month come back as they were counted from March
  have hyear : (if (if m < 10 then m + 3 else m - 9) ≤ 2
      then y + era * 400 + (if m < 10 then 0 else 1) - 1
      else y + era * 400 + (if m < 10 then 0 else 1)) = y + era * 400 := by
    split <;> split <;> omega
  have hmonth : (if (if m < 10 then m + 3 else m - 9) ≤ 2
      then (if m < 10 then m + 3 else m - 9) + 9
      else (if m < 10 then m + 3 else m - 9) - 3) = m := by
    split <;> split <;> omega
  have hdiv : (y + era * 400) / 400 = era := by omega
  have hmod : (y + era * 400) % 400 = y := by omega
  rw [hyear, hmonth, hdiv, hmod]
  omega

/-! ## Clock readings -/

structure Clock where
  date : Date
  hour : Int
  minute : Int
  deriving DecidableEq

def minuteSpan : Int := 60000000

def clockAt (t : Int) : Clock :=
  { date := dateOfDay (t / minuteSpan / 1440)
    hour := t / minuteSpan % 1440 / 60
    minute := t / minuteSpan % 60 }

/-- **Equal readings** are readings of one minute. -/
theorem clockAt_eq_iff {s t : Int} : clockAt s = clockAt t ↔ s / minuteSpan = t / minuteSpan := by
  constructor
  · intro h
    have hday : s / minuteSpan / 1440 = t / minuteSpan / 1440 := by
      have hdate : dateOfDay (s / minuteSpan / 1440) = dateOfDay (t / minuteSpan / 1440) :=
        congrArg Clock.date h
      rw [← dayOfDate_dateOfDay (s / minuteSpan / 1440), hdate, dayOfDate_dateOfDay]
    have hhour : s / minuteSpan % 1440 / 60 = t / minuteSpan % 1440 / 60 := congrArg Clock.hour h
    have hminute : s / minuteSpan % 60 = t / minuteSpan % 60 := congrArg Clock.minute h
    omega
  · intro h
    simp only [clockAt, h]

end Framework
