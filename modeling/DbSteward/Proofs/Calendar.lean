import DbSteward.Moment.Basic
import Mathlib.Tactic.IntervalCases
import Mathlib.Tactic.Ring

/-!
# Days of the calendar

Every count of days is that of a day of the calendar, and counting up to that day gives it back.
The count is taken apart into eras of 400 years, and a day of an era into its century, the span
of four years in that, the year and the day of the year, all of them linear in one another.
-/

namespace DbSteward
namespace CalendarDay

/-- The place of a day in an era of 400 years that run from March: the century, the span of four
years in it, the year in that and the day of the year.  Only the last year of a span has 366 days,
and of the last spans of the centuries only the last one has such a year. -/
structure InEra (dayOfEra century span year dayOfYear : Int) : Prop where
  century_bounds : 0 ≤ century ∧ century ≤ 3
  span_bounds : 0 ≤ span ∧ span ≤ 24
  year_bounds : 0 ≤ year ∧ year ≤ 3
  day_bounds : 0 ≤ dayOfYear ∧ dayOfYear ≤ 365
  leap : dayOfYear = 365 → year = 3 ∧ (span = 24 → century = 3)
  day_eq : dayOfEra = 36524 * century + 1461 * span + 365 * year + dayOfYear

theorem exists_inEra {dayOfEra : Int} (hnonneg : 0 ≤ dayOfEra) (hlt : dayOfEra < 146097) :
    ∃ century span year dayOfYear, InEra dayOfEra century span year dayOfYear := by
  obtain ⟨century, inCentury, hcentury, hdays, hrest, hlast⟩ :
      ∃ century inCentury : Int, (0 ≤ century ∧ century ≤ 3) ∧
        dayOfEra = 36524 * century + inCentury ∧ (0 ≤ inCentury ∧ inCentury ≤ 36524) ∧
          (inCentury = 36524 → century = 3) :=
    ⟨min (dayOfEra / 36524) 3, dayOfEra - 36524 * min (dayOfEra / 36524) 3, by omega, by omega,
      by omega, by omega⟩
  obtain ⟨span, inSpan, hspan, hinCentury, hinSpan⟩ :
      ∃ span inSpan : Int, (0 ≤ span ∧ span ≤ 24) ∧ inCentury = 1461 * span + inSpan ∧
        (0 ≤ inSpan ∧ inSpan ≤ 1460) :=
    ⟨inCentury / 1461, inCentury % 1461, by omega, by omega, by omega⟩
  obtain ⟨year, dayOfYear, hyear, hday, hbounds, hleap⟩ :
      ∃ year dayOfYear : Int, (0 ≤ year ∧ year ≤ 3) ∧ inSpan = 365 * year + dayOfYear ∧
        (0 ≤ dayOfYear ∧ dayOfYear ≤ 365) ∧ (dayOfYear = 365 → year = 3) :=
    ⟨min (inSpan / 365) 3, inSpan - 365 * min (inSpan / 365) 3, by omega, by omega, by omega,
      by omega⟩
  exact ⟨century, span, year, dayOfYear, hcentury, hspan, hyear, hbounds, by omega, by omega⟩

section InEra

variable {dayOfEra century span year dayOfYear : Int}

theorem InEra.yearOfEra_eq (hera : InEra dayOfEra century span year dayOfYear) :
    (dayOfEra - dayOfEra / 1460 + dayOfEra / 36524 - dayOfEra / 146096) / 365 =
      100 * century + 4 * span + year := by
  obtain ⟨hcentury, hspan, hyear, hday, hleap, hdays⟩ := hera
  -- The quotient by 36524 is the century, except on the last day of the era.
  have hlast : dayOfEra / 36524 - dayOfEra / 146096 = century := by
    generalize hrest : 1461 * span + 365 * year + dayOfYear = rest at hdays
    have hbounds : 0 ≤ rest ∧ rest ≤ 36524 ∧ (rest = 36524 → century = 3) := by omega
    have hsum : dayOfEra = 36524 * century + rest := by omega
    clear hdays hrest hleap
    omega
  -- The quotient by 1460 is ahead of the spans by one late in the last year of a span.
  have hfirst : dayOfEra / 1460 = 25 * century + span ∨
      dayOfEra / 1460 = 25 * century + span + 1 := by
    generalize hrest : 24 * century + span + 365 * year + dayOfYear = rest
    have hbounds : 0 ≤ rest ∧ rest < 2920 := by omega
    have hsum : dayOfEra = 1460 * (25 * century + span) + rest := by omega
    clear hdays hrest hleap
    omega
  have hahead : dayOfEra / 1460 = 25 * century + span + 1 ↔
      1460 ≤ 24 * century + span + 365 * year + dayOfYear := by
    omega
  omega

theorem InEra.dayOfYear_eq (hera : InEra dayOfEra century span year dayOfYear) :
    dayOfEra - (365 * (100 * century + 4 * span + year) +
      (100 * century + 4 * span + year) / 4 - (100 * century + 4 * span + year) / 100) =
        dayOfYear := by
  obtain ⟨-, hspan, hyear, -, -, hdays⟩ := hera
  have hspans : (100 * century + 4 * span + year) / 4 = 25 * century + span := by omega
  have hcenturies : (100 * century + 4 * span + year) / 100 = century := by omega
  omega

/-- The month and the day of a year that runs from March. -/
def ofDayOfYear (year dayOfYear : Int) : CalendarDay :=
  let month := (5 * dayOfYear + 2) / 153
  let day := dayOfYear - (153 * month + 2) / 5 + 1
  if month < 10 then ⟨year, (month + 3).toNat, day.toNat⟩
  else ⟨year + 1, (month - 9).toNat, day.toNat⟩

theorem ofDays_eq {days : Int}
    (hera : InEra ((days + epochOffset) % 146097) century span year dayOfYear) :
    ofDays days =
      ofDayOfYear (100 * century + 4 * span + year + 400 * ((days + epochOffset) / 146097))
        dayOfYear := by
  have hyear := hera.yearOfEra_eq
  have hday := hera.dayOfYear_eq
  obtain ⟨-, -, -, hbounds, -, -⟩ := hera
  simp only [ofDays, hyear, hday, ofDayOfYear]
  by_cases hmonth : (5 * dayOfYear + 2) / 153 < 10
  · have hlater : ¬ (5 * dayOfYear + 2) / 153 + 3 ≤ 2 := by omega
    simp only [if_pos hmonth, if_neg hlater]
  · have hearlier : (5 * dayOfYear + 2) / 153 - 9 ≤ 2 := by omega
    simp only [if_neg hmonth, if_pos hearlier]

theorem toDays_ofDayOfYear (hlow : 0 ≤ dayOfYear) (hhigh : dayOfYear ≤ 365) :
    (ofDayOfYear year dayOfYear).toDays =
      365 * year + year / 4 - year / 100 + year / 400 + dayOfYear - epochOffset := by
  have hday : 0 ≤ dayOfYear - (153 * ((5 * dayOfYear + 2) / 153) + 2) / 5 + 1 := by omega
  have hmonth : 0 ≤ (5 * dayOfYear + 2) / 153 ∧ (5 * dayOfYear + 2) / 153 ≤ 11 := by omega
  simp only [ofDayOfYear]
  generalize (5 * dayOfYear + 2) / 153 = month at hday hmonth ⊢
  split
  · have hcast : (((month + 3).toNat + 9) % 12 : Nat) = month := by omega
    have hlater : ¬ (month + 3).toNat ≤ 2 := by omega
    simp only [toDays, if_neg hlater, Int.toNat_of_nonneg hday, hcast]
    ring
  · have hcast : (((month - 9).toNat + 9) % 12 : Nat) = month := by omega
    have hearlier : (month - 9).toNat ≤ 2 := by omega
    simp only [toDays, if_pos hearlier, Int.toNat_of_nonneg hday, hcast, Int.add_sub_cancel]
    ring

theorem InEra.divisions (hera : InEra dayOfEra century span year dayOfYear) (era : Int) :
    (100 * century + 4 * span + year + 400 * era) / 4 = 25 * century + span + 100 * era ∧
      (100 * century + 4 * span + year + 400 * era) / 100 = century + 4 * era ∧
      (100 * century + 4 * span + year + 400 * era) / 400 = era := by
  obtain ⟨hcentury, hspan, hyear, -, -, -⟩ := hera
  refine ⟨by omega, by omega, by omega⟩

theorem toDays_ofDays (days : Int) : (ofDays days).toDays = days := by
  obtain ⟨century, span, year, dayOfYear, hera⟩ := exists_inEra
    (Int.emod_nonneg (days + epochOffset) (by decide)) (Int.emod_lt_of_pos _ (by decide))
  rw [ofDays_eq hera, toDays_ofDayOfYear hera.day_bounds.1 hera.day_bounds.2]
  obtain ⟨hspans, hcenturies, heras⟩ := hera.divisions ((days + epochOffset) / 146097)
  rw [hspans, hcenturies, heras]
  have hday := hera.day_eq
  have hshifted := Int.emod_add_mul_ediv (days + epochOffset) 146097
  omega

theorem isLeapYear_iff {year : Int} :
    isLeapYear year = true ↔ year % 4 = 0 ∧ (year % 100 ≠ 0 ∨ year % 400 = 0) := by
  simp [isLeapYear]

/-- The last day of February is the last day of its year, which starts in March. -/
theorem isValid_ofDayOfYear (hlow : 0 ≤ dayOfYear) (hhigh : dayOfYear ≤ 365)
    (hleap : dayOfYear = 365 → isLeapYear (year + 1) = true) :
    (ofDayOfYear year dayOfYear).isValid = true := by
  obtain ⟨month, hmonth⟩ : ∃ month, (5 * dayOfYear + 2) / 153 = month := ⟨_, rfl⟩
  have hmonths : 0 ≤ month ∧ month ≤ 11 := by omega
  have hshort : dayOfYear = 365 ∨ dayOfYear ≤ 364 := by omega
  simp only [ofDayOfYear, hmonth]
  obtain ⟨hfirst, hlast⟩ := hmonths
  rcases hshort with hfull | hless
  · obtain rfl : month = 11 := by omega
    simp [isValid, daysInMonth, hleap hfull, hfull]
  · interval_cases month <;> simp [isValid, daysInMonth] <;> (try split) <;> omega

theorem isValid_ofDays (days : Int) : (ofDays days).isValid = true := by
  obtain ⟨century, span, year, dayOfYear, hera⟩ := exists_inEra
    (Int.emod_nonneg (days + epochOffset) (by decide)) (Int.emod_lt_of_pos _ (by decide))
  rw [ofDays_eq hera]
  refine isValid_ofDayOfYear hera.day_bounds.1 hera.day_bounds.2 fun hfull => ?_
  obtain ⟨hlast, hcommon⟩ := hera.leap hfull
  obtain ⟨hcentury, hspan, -, -, -, -⟩ := hera
  generalize (days + epochOffset) / 146097 = era
  rw [isLeapYear_iff]
  omega

end InEra

end CalendarDay
end DbSteward
