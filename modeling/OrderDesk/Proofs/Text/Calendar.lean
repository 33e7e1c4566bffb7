import Mathlib.Order.Monotone.Basic
import OrderDesk.Timestamp

/-
  This file proves that the calendar counts every day once:
  each number of days is that of an existing date.

  An era of four hundred years has 146097 days. The year of
  a day in an era is found by dividing a count of days that
  leaves most leap days out by 365. That count never goes
  down, so it is enough to look at the first and the last
  day of each of the four hundred years.

  Key definitions include:
    * `CivilDate.commonDays`
    * `CivilDate.firstDay`

  Key theorems include:
    * `CivilDate.firstDay_le_and_le_lastDay`
    * `CivilDate.toDays_ofDays`
    * `CivilDate.isValid_ofDays`
-/

namespace OrderDesk

namespace CivilDate

------------------------------------------------------------
-- Years Of An Era
------------------------------------------------------------

/- Days of an era by their number, most leap days left out. -/
def commonDays
    (day : Nat) : Nat :=
  day - day / 1460 + day / 36524 - day / 146096

/- The number of the first day of a year of an era. -/
def firstDay
    (year : Nat) : Nat :=
  365 * year + year / 4 - year / 100

/- The number of the last day of a year of an era. -/
def lastDay
    (year : Nat) : Nat :=
  if year = 399 then 146096 else firstDay (year + 1) - 1

/- The count of common days never goes down. -/
theorem commonDays_mono :
    Monotone commonDays := by
  refine monotone_nat_of_le_succ fun day => ?_
  unfold commonDays
  omega

theorem commonDays_year :
    ∀ year < 400,
      365 * year ≤ commonDays (firstDay year) ∧
        commonDays (lastDay year) < 365 * (year + 1) ∧
          (year ≠ 399 → lastDay year + 1 = firstDay (year + 1)) := by
  decide +kernel

/- Every day of an era lies in the year that is found for it. -/
theorem firstDay_le_and_le_lastDay
    {day : Nat}
    (hDay : day ≤ 146096) :
    commonDays day / 365 < 400 ∧
      firstDay (commonDays day / 365) ≤ day ∧
        day ≤ lastDay (commonDays day / 365) := by
  have hLast : commonDays 146096 = 145999 := by decide
  have hMost := commonDays_mono hDay
  rw [hLast] at hMost
  have hYear : commonDays day / 365 < 400 := by omega
  refine ⟨hYear, ?_, ?_⟩
  · by_contra hBefore
    -- The day would lie in an earlier year.
    cases hCount : commonDays day / 365 with
    | zero =>
        rw [hCount] at hBefore
        exact hBefore (Nat.zero_le day)
    | succ year =>
        rw [hCount] at hBefore
        have hEarlier := commonDays_year year (by omega)
        have hNext := hEarlier.2.2 (by omega)
        have hMono : commonDays day ≤ commonDays (lastDay year) :=
          commonDays_mono (by omega)
        omega
  · by_contra hAfter
    -- The day would lie in a later year.
    by_cases hFinal : commonDays day / 365 = 399
    · rw [hFinal] at hAfter
      exact hAfter hDay
    · have hOwn := commonDays_year _ hYear
      have hNext := hOwn.2.2 hFinal
      have hLater :=
        commonDays_year (commonDays day / 365 + 1) (by omega)
      have hMono :
          commonDays (firstDay (commonDays day / 365 + 1)) ≤
            commonDays day :=
        commonDays_mono (by omega)
      omega

------------------------------------------------------------
-- Months Of A Year
------------------------------------------------------------

/- The number of a month, counted from March, by a day of its year. -/
def monthFromMarch
    (day : Nat) : Nat :=
  (5 * day + 2) / 153

/-
  A day of a year that begins in March lies in one of twelve
  months. Only the day with the number 365 may need a leap
  year.
-/
theorem month_of_dayOfYear :
    ∀ day < 366,
      monthFromMarch day < 12 ∧
        (153 * monthFromMarch day + 2) / 5 ≤ day ∧
          day - (153 * monthFromMarch day + 2) / 5 + 1 ≤
            daysInMonth (if day = 365 then 4 else 1)
              ((monthFromMarch day + 2) % 12 + 1) := by
  decide +kernel

theorem daysInMonth_le
    {year other : Int}
    (hLeap : isLeapYear year = true → isLeapYear other = true)
    (month : Nat) :
    daysInMonth year month ≤ daysInMonth other month := by
  unfold daysInMonth
  split
  · cases hYear : isLeapYear year with
    | true =>
        rw [hLeap hYear]
    | false => cases isLeapYear other <;> decide
  · exact Nat.le_refl _

------------------------------------------------------------
-- Dates Of Days
------------------------------------------------------------

/- The number of a day in its year, counted from March. -/
def dayOfYear
    (day : Nat) : Nat :=
  day - firstDay (commonDays day / 365)

theorem dayOfYear_le
    {day : Nat}
    (hDay : day ≤ 146096) :
    dayOfYear day ≤ 365 := by
  rcases firstDay_le_and_le_lastDay hDay with
    ⟨hYear, hFirst, hLast⟩
  unfold dayOfYear
  unfold lastDay at hLast
  unfold firstDay at hFirst hLast ⊢
  split at hLast <;> omega

theorem ofDays_era
    (era : Int)
    {day : Nat}
    (hDay : day ≤ 146096) :
    let year : Int := (commonDays day / 365 : Nat) + era * 400
    let fromMarch := monthFromMarch (dayOfYear day)
    let month := (fromMarch + 2) % 12 + 1
    ofDays (era * 146097 + day - 719468) =
      ⟨if month ≤ 2 then year + 1 else year, month,
        dayOfYear day - (153 * fromMarch + 2) / 5 + 1⟩ := by
  rcases firstDay_le_and_le_lastDay hDay with
    ⟨hYear, hFirst, hLast⟩
  have hMonth := month_of_dayOfYear (dayOfYear day) (by
    have := dayOfYear_le hDay
    omega)
  have hEra :
      (era * 146097 + day - 719468 + 719468) / 146097 = era := by
    omega
  have hRest :
      era * 146097 + day - 719468 + 719468 - era * 146097 =
        (day : Int) := by
    omega
  have hCommon :
      ((day : Int) - day / 1460 + day / 36524 - day / 146096) =
        (commonDays day : Nat) := by
    unfold commonDays
    omega
  have hDayOfYear :
      (day : Int) -
          (365 * ((commonDays day / 365 : Nat) : Int) +
            ((commonDays day / 365 : Nat) : Int) / 4 -
            ((commonDays day / 365 : Nat) : Int) / 100) =
        (dayOfYear day : Nat) := by
    unfold dayOfYear
    unfold firstDay at hFirst ⊢
    omega
  have hQuotient :
      ((commonDays day : Nat) : Int) / 365 =
        (commonDays day / 365 : Nat) :=
    rfl
  have hFromMarch :
      (5 * ((dayOfYear day : Nat) : Int) + 2) / 153 =
        (monthFromMarch (dayOfYear day) : Nat) :=
    rfl
  intro year fromMarch month
  unfold ofDays
  dsimp only
  rw [hEra, hRest, hCommon, hQuotient, hDayOfYear, hFromMarch]
  have hSame :
      ((monthFromMarch (dayOfYear day) : Nat) + 2 : Int) % 12 + 1 =
        (month : Nat) :=
    rfl
  have hDate :
      ((dayOfYear day : Nat) : Int) -
          (153 * ((monthFromMarch (dayOfYear day) : Nat) : Int) +
            2) / 5 + 1 =
        (dayOfYear day - (153 * fromMarch + 2) / 5 + 1 : Nat) := by
    have hFits : (153 * fromMarch + 2) / 5 ≤ dayOfYear day :=
      hMonth.2.1
    omega
  rw [hSame, hDate, Int.toNat_natCast, Int.toNat_natCast]
  by_cases hEarly : month ≤ 2
  · rw [if_pos hEarly, if_pos (by omega)]
  · rw [if_neg hEarly, if_neg (by omega)]

/- Every number of days is that of a day of an era. -/
theorem exists_era
    (days : Int) :
    ∃ (era : Int) (day : Nat),
      day ≤ 146096 ∧ days = era * 146097 + day - 719468 := by
  refine
    ⟨(days + 719468) / 146097, ((days + 719468) % 146097).toNat,
      ?_, ?_⟩ <;> omega

/- The date that lies a number of days away lies there. -/
theorem toDays_ofDays
    (days : Int) :
    (ofDays days).toDays = days := by
  rcases exists_era days with ⟨era, day, hDay, rfl⟩
  rcases firstDay_le_and_le_lastDay hDay with
    ⟨hYear, hFirst, hLast⟩
  have hMonth := month_of_dayOfYear (dayOfYear day) (by
    have := dayOfYear_le hDay
    omega)
  rw [ofDays_era era hDay]
  have hDayOfYear :
      dayOfYear day + firstDay (commonDays day / 365) = day := by
    unfold dayOfYear
    omega
  generalize commonDays day / 365 = year at *
  generalize dayOfYear day = ofYear at *
  generalize monthFromMarch ofYear = fromMarch at *
  unfold toDays
  unfold firstDay at hDayOfYear
  dsimp only
  have hYearBack :
      (if (fromMarch + 2) % 12 + 1 ≤ 2 then
          (if (fromMarch + 2) % 12 + 1 ≤ 2 then
            (year : Int) + era * 400 + 1
          else
            (year : Int) + era * 400) - 1
        else if (fromMarch + 2) % 12 + 1 ≤ 2 then
          (year : Int) + era * 400 + 1
        else
          (year : Int) + era * 400) =
        (year : Int) + era * 400 := by
    split <;> omega
  have hEraBack : ((year : Int) + era * 400) / 400 = era := by
    omega
  have hMonthBack :
      ((((fromMarch + 2) % 12 + 1 : Nat) : Int) + 9) % 12 =
        fromMarch := by
    omega
  have hYearOfEra :
      (year : Int) + era * 400 - era * 400 = year := by
    omega
  have hFits := hMonth.2.1
  rw [hYearBack, hEraBack, hMonthBack, hYearOfEra]
  clear hYearBack hMonth hLast hFirst hMonthBack
  omega

/- A year with a day of the number 365 is a leap year. -/
theorem isLeapYear_of_dayOfYear
    (era : Int)
    {day : Nat}
    (hDay : day ≤ 146096)
    (hFinal : dayOfYear day = 365) :
    isLeapYear
        ((commonDays day / 365 : Nat) + era * 400 + 1) =
      true := by
  rcases firstDay_le_and_le_lastDay hDay with
    ⟨hYear, hFirst, hLast⟩
  unfold dayOfYear at hFinal
  generalize commonDays day / 365 = year at *
  have hLeap :
      (year + 1) % 4 = 0 ∧
        ((year + 1) % 100 ≠ 0 ∨ year = 399) := by
    unfold lastDay at hLast
    unfold firstDay at *
    by_cases hLastYear : year = 399
    · rw [hLastYear]
      decide
    · rw [if_neg hLastYear] at hLast
      by_cases hFour : (year + 1) % 4 = 0
      · by_cases hHundred : (year + 1) % 100 = 0
        · omega
        · exact ⟨hFour, .inl hHundred⟩
      · have hSame : (year + 1) / 4 = year / 4 := by omega
        have hMore : year / 100 ≤ (year + 1) / 100 := by omega
        omega
  unfold isLeapYear
  simp only [Bool.and_eq_true, Bool.or_eq_true, decide_eq_true_eq]
  rcases hLeap with ⟨hFour, hHundred | hLastYear⟩
  · refine ⟨by omega, .inl ?_⟩
    omega
  · refine ⟨by omega, .inr ?_⟩
    omega

/- The date that lies a number of days away exists. -/
theorem isValid_ofDays
    (days : Int) :
    (ofDays days).isValid = true := by
  rcases exists_era days with ⟨era, day, hDay, rfl⟩
  have hDayOfYear := dayOfYear_le hDay
  have hMonth := month_of_dayOfYear (dayOfYear day) (by omega)
  have hLeap := isLeapYear_of_dayOfYear era hDay
  rw [ofDays_era era hDay]
  generalize dayOfYear day = ofYear at *
  rcases hMonth with ⟨hTwelve, hFits, hLength⟩
  unfold isValid
  simp only [Bool.and_eq_true, decide_eq_true_eq]
  refine
    ⟨⟨by omega, by omega⟩, hLength.trans (daysInMonth_le ?_ _)⟩
  by_cases hFinal : ofYear = 365
  · have hYear := hLeap hFinal
    have hEarly : (monthFromMarch ofYear + 2) % 12 + 1 ≤ 2 := by
      rw [hFinal]
      decide
    intro _
    rw [if_pos hEarly]
    exact hYear
  · rw [if_neg hFinal]
    intro hNone
    cases hNone

end CivilDate

end OrderDesk
