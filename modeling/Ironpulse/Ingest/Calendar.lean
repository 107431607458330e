import Ironpulse.Ingest.SegmentName
import Mathlib.Data.Int.Init
import Mathlib.Logic.Function.Iterate
import Mathlib.Tactic.IntervalCases

/-! # Calendar time

`gmtime` counts days in cycles of 400 years that begin in March. Its fields are ordered as the times
are, and its dates follow each other as those of the Gregorian calendar do.

* **`yearOfEra_mono`**, **`dayOfYear_bounds`**: the years of a cycle of 400.
* **`gmtime_lt`**: a later second has later fields.
* **`gmtime_date_iterate`**: dates are counted day by day from the first of January 1970. -/

namespace Ironpulse.Ingest

/-! ## (1) The years of a cycle -/

/-- The year, counted from March, that a day of the cycle lies in. -/
def yearOfEra (d : Int) : Int := (d - d / 1460 + d / 36524 - d / 146096) / 365

/-- The first day of a year of the cycle. -/
def yearStart (y : Int) : Int := 365 * y + y / 4 - y / 100

/-- The day of the year that begins in March. -/
def dayOfYear (d : Int) : Int := d - yearStart (yearOfEra d)

/-- The days of the cycle. -/
def InEra (d : Int) : Prop := 0 ≤ d ∧ d < 146097

/-- The year of an era lies between 0 and 399. -/
theorem yearOfEra_bounds {d : Int} (h : InEra d) : 0 ≤ yearOfEra d ∧ yearOfEra d ≤ 399 := by
  obtain ⟨hnonneg, hlt⟩ := h
  unfold yearOfEra
  omega

/-- From one day to the next the year does not go back. -/
theorem yearOfEra_succ {d : Int} (hnonneg : 0 ≤ d) (h : d + 1 < 146097) :
    yearOfEra d ≤ yearOfEra (d + 1) := by
  unfold yearOfEra
  omega

/-- A later day of the era lies in no earlier year. -/
theorem yearOfEra_mono {d e : Int} (hnonneg : 0 ≤ d) (hle : d ≤ e) (h : e < 146097) :
    yearOfEra d ≤ yearOfEra e := by
  induction e, hle using Int.leInduction with
  | base => exact Int.le_refl _
  | succ e hle ih => exact Int.le_trans (ih (by omega)) (yearOfEra_succ (by omega) h)

/-- The first and the last day of every year of the cycle. -/
theorem yearOfEra_yearStart : ∀ y < 400, yearOfEra (yearStart (y : Nat)) = y ∧
    (0 < y → yearOfEra (yearStart (y : Nat) - 1) = y - 1) := by
  decide +kernel

/-- A day lies in its year: not in front of it. -/
theorem yearStart_le {d : Int} (h : InEra d) : yearStart (yearOfEra d) ≤ d := by
  obtain ⟨hnonneg, hlt⟩ := h
  obtain ⟨hyear, hyear'⟩ := yearOfEra_bounds ⟨hnonneg, hlt⟩
  obtain ⟨y, hy⟩ := Int.eq_ofNat_of_zero_le hyear
  rw [hy] at hyear' ⊢
  by_contra hneg
  have hpos : 0 < y := by
    by_contra hzero
    obtain rfl : y = 0 := by omega
    exact hneg hnonneg
  -- Before the first day of year `y` the year is an earlier one.
  have hbefore := (yearOfEra_yearStart y (by omega)).2 hpos
  have hmono := yearOfEra_mono hnonneg (show d ≤ yearStart y - 1 by omega) (by
    unfold yearStart
    omega)
  omega

/-- A day lies in its year: not behind it. -/
theorem lt_yearStart_succ {d : Int} (h : InEra d) (hlast : yearOfEra d < 399) :
    d < yearStart (yearOfEra d + 1) := by
  obtain ⟨y, hy⟩ := Int.eq_ofNat_of_zero_le (yearOfEra_bounds h).1
  rw [hy] at hlast ⊢
  by_contra hlarge
  -- From the first day of year `y + 1` on the year is a later one.
  have hnext : yearOfEra (yearStart (y + 1)) = y + 1 :=
    (yearOfEra_yearStart (y + 1) (by omega)).1
  have hmono := yearOfEra_mono (by
    unfold yearStart
    omega) (Int.not_lt.mp hlarge) h.2
  omega

/-- **The days of a year**: at most 366 from its first one on. -/
theorem dayOfYear_bounds {d : Int} (h : InEra d) : 0 ≤ dayOfYear d ∧ dayOfYear d ≤ 365 := by
  obtain ⟨hyear, hyear'⟩ := yearOfEra_bounds h
  refine ⟨Int.sub_nonneg.mpr (yearStart_le h), ?_⟩
  have hlt := h.2
  unfold dayOfYear
  by_cases hlast : yearOfEra d < 399
  · have hnext := lt_yearStart_succ h hlast
    unfold yearStart at hnext ⊢
    omega
  · obtain hend : yearOfEra d = 399 := by omega
    rw [hend]
    unfold yearStart
    omega

/-! ## (2) The fields of a later time -/

/-- The fields in the order in which the name has them. -/
def Tm.fields (utc : Tm) : List Int :=
  [utc.year, utc.month, utc.day, utc.hour, utc.minute, utc.second]

/-- The cycle of 400 years that a second lies in. -/
def cycle (seconds : Int) : Int := (seconds / 86400 + 719468) / 146097

/-- The day of its cycle that a second lies in. -/
def cycleDay (seconds : Int) : Int := (seconds / 86400 + 719468) % 146097

/-- The month, counted from March, of a day of the cycle. -/
def marchMonth (d : Int) : Int := (5 * dayOfYear d + 2) / 153

section Fields

variable {s t : Int}

/-- The day of a 400-year cycle lies in an era. -/
theorem inEra_cycleDay (s : Int) : InEra (cycleDay s) :=
  ⟨Int.emod_nonneg _ (by decide), Int.emod_lt_of_pos _ (by decide)⟩

/-- The year of a second, through the cycles of 400 years. -/
theorem gmtime_year (s : Int) : (gmtime s).year =
    yearOfEra (cycleDay s) + 400 * cycle s + if marchMonth (cycleDay s) < 10 then 0 else 1 := rfl

/-- The month of a second: March is the month 0 of the counting. -/
theorem gmtime_month (s : Int) : (gmtime s).month =
    if marchMonth (cycleDay s) < 10 then marchMonth (cycleDay s) + 3
    else marchMonth (cycleDay s) - 9 := rfl

/-- The day of the month of a second. -/
theorem gmtime_day (s : Int) : (gmtime s).day =
    dayOfYear (cycleDay s) - (153 * marchMonth (cycleDay s) + 2) / 5 + 1 := rfl

/-- The hour of a second. -/
theorem gmtime_hour (s : Int) : (gmtime s).hour = s % 86400 / 3600 := rfl

/-- The minute of a second. -/
theorem gmtime_minute (s : Int) : (gmtime s).minute = s % 86400 % 3600 / 60 := rfl

/-- The second within its minute. -/
theorem gmtime_second (s : Int) : (gmtime s).second = s % 86400 % 60 := rfl

/-- The seconds of one day have one date. -/
theorem gmtime_date_eq (h : s / 86400 = t / 86400) :
    (gmtime s).year = (gmtime t).year ∧ (gmtime s).month = (gmtime t).month ∧
      (gmtime s).day = (gmtime t).day := by
  have hcycle : cycle s = cycle t := by rw [cycle, cycle, h]
  have hday : cycleDay s = cycleDay t := by rw [cycleDay, cycleDay, h]
  simp only [gmtime_year, gmtime_month, gmtime_day, hcycle, hday, and_self]

/-- **A later day has a later date**: the year counted from March grows or, within one year, the day
of the year does. -/
theorem gmtime_date_lt (h : s / 86400 < t / 86400) :
    (gmtime s).year < (gmtime t).year ∨ (gmtime s).year = (gmtime t).year ∧
      ((gmtime s).month < (gmtime t).month ∨ (gmtime s).month = (gmtime t).month ∧
        (gmtime s).day < (gmtime t).day) := by
  have hs := yearOfEra_bounds (inEra_cycleDay s)
  have ht := yearOfEra_bounds (inEra_cycleDay t)
  have hdays := dayOfYear_bounds (inEra_cycleDay s)
  have hdayt := dayOfYear_bounds (inEra_cycleDay t)
  -- a later day lies in a later year of the counting, or later in the same one
  have horder : yearOfEra (cycleDay s) + 400 * cycle s < yearOfEra (cycleDay t) + 400 * cycle t ∨
      yearOfEra (cycleDay s) + 400 * cycle s = yearOfEra (cycleDay t) + 400 * cycle t ∧
        dayOfYear (cycleDay s) < dayOfYear (cycleDay t) := by
    obtain hcycle | ⟨hcycle, hday⟩ :
        cycle s < cycle t ∨ cycle s = cycle t ∧ cycleDay s < cycleDay t := by
      unfold cycle cycleDay
      omega
    · omega
    · have hmono := yearOfEra_mono (inEra_cycleDay s).1 (Int.le_of_lt hday) (inEra_cycleDay t).2
      obtain heq | hne := eq_or_ne (yearOfEra (cycleDay s)) (yearOfEra (cycleDay t))
      · refine .inr ⟨by omega, ?_⟩
        unfold dayOfYear
        rw [heq]
        omega
      · omega
  -- from the counting back to the calendar, where January and February belong to the next year
  rw [gmtime_year, gmtime_year, gmtime_month, gmtime_month, gmtime_day, gmtime_day]
  unfold marchMonth
  split <;> split <;> omega

/-- Months and days are in the ranges of a calendar. -/
theorem gmtime_month_day_bounds (s : Int) :
    (1 ≤ (gmtime s).month ∧ (gmtime s).month ≤ 12) ∧
      1 ≤ (gmtime s).day ∧ (gmtime s).day ≤ 31 := by
  have hday := dayOfYear_bounds (inEra_cycleDay s)
  rw [gmtime_month, gmtime_day]
  unfold marchMonth
  constructor
  · split <;> omega
  · omega

/-- **A later second has later fields.** -/
theorem gmtime_lt (h : s < t) : (gmtime s).fields < (gmtime t).fields := by
  simp only [Tm.fields, List.cons_lt_cons_iff]
  obtain hday | hday : s / 86400 < t / 86400 ∨ s / 86400 = t / 86400 := by omega
  · obtain hyear | ⟨hyear, hmonth | ⟨hmonth, hday⟩⟩ := gmtime_date_lt hday
    · exact .inl hyear
    · exact .inr ⟨hyear, .inl hmonth⟩
    · exact .inr ⟨hyear, .inr ⟨hmonth, .inl hday⟩⟩
  · obtain ⟨hyear, hmonth, hday'⟩ := gmtime_date_eq hday
    refine .inr ⟨hyear, .inr ⟨hmonth, .inr ⟨hday', ?_⟩⟩⟩
    rw [gmtime_hour, gmtime_hour, gmtime_minute, gmtime_minute, gmtime_second, gmtime_second]
    omega

end Fields

/-! ## (3) The Gregorian calendar -/

/-- Every fourth year has a leap day, of the full centuries every fourth one. -/
def isLeapYear (year : Int) : Bool := year % 4 == 0 && (year % 100 != 0 || year % 400 == 0)

/-- The length of a month. -/
def daysInMonth (year month : Int) : Int :=
  if month = 2 then if isLeapYear year then 29 else 28
  else if month = 4 ∨ month = 6 ∨ month = 9 ∨ month = 11 then 30
  else 31

/-- Year, month and day. -/
def Tm.date (utc : Tm) : Int × Int × Int := (utc.year, utc.month, utc.day)

/-- The date after a date. -/
def dayAfter : Int × Int × Int → Int × Int × Int
  | (year, month, day) =>
      if day < daysInMonth year month then (year, month, day + 1)
      else if month < 12 then (year, month + 1, 1)
      else (year + 1, 1, 1)

/-- The date of a day of a year that begins in March. -/
def marchDate (year doy : Int) : Int × Int × Int :=
  let month := (5 * doy + 2) / 153
  (year + if month < 10 then 0 else 1, if month < 10 then month + 3 else month - 9,
    doy - (153 * month + 2) / 5 + 1)

/-- **The date of a second** is that of its day in a year that begins in March. -/
theorem gmtime_date (s : Int) : (gmtime s).date =
    marchDate (yearOfEra (cycleDay s) + 400 * cycle s) (dayOfYear (cycleDay s)) := rfl

/-- Of a month that is not the last one before March all days are in the year. -/
theorem daysInMonth_march (year : Int) {month : Int} (hnonneg : 0 ≤ month) (hlt : month < 11) :
    daysInMonth year (if month < 10 then month + 3 else month - 9) =
      (153 * (month + 1) + 2) / 5 - (153 * month + 2) / 5 := by
  interval_cases month <;> rfl

/-- Up to the end of January the months have the lengths of the calendar. -/
theorem dayAfter_marchDate {year doy : Int} (hnonneg : 0 ≤ doy) (hlt : doy < 337) :
    dayAfter (marchDate year doy) = marchDate year (doy + 1) := by
  obtain ⟨month, hmonth⟩ : ∃ month, (5 * doy + 2) / 153 = month := ⟨_, rfl⟩
  have hlength := daysInMonth_march (year + if month < 10 then 0 else 1)
    (show 0 ≤ month by omega) (show month < 11 by omega)
  simp only [marchDate, dayAfter, hmonth, hlength]
  split
  · have hsame : (5 * (doy + 1) + 2) / 153 = month := by omega
    rw [hsame, Prod.mk.injEq, Prod.mk.injEq]
    exact ⟨rfl, rfl, by omega⟩
  · -- The last day of a month: only December is the twelfth one.
    have hnext : (5 * (doy + 1) + 2) / 153 = month + 1 := by omega
    have hfirst : doy + 1 - (153 * (month + 1) + 2) / 5 + 1 = 1 := by omega
    rw [hnext, hfirst]
    split_ifs <;> rw [Prod.mk.injEq, Prod.mk.injEq] <;> omega

/-- The days of February. -/
theorem marchDate_february {year doy : Int} (hle : 337 ≤ doy) (hlt : doy ≤ 365) :
    marchDate year doy = (year + 1, 2, doy - 336) := by
  have hmonth : (5 * doy + 2) / 153 = 11 := by omega
  simp only [marchDate, hmonth]
  rw [Prod.mk.injEq, Prod.mk.injEq]
  exact ⟨rfl, rfl, by omega⟩

/-- The year of the counting begins on the first of March. -/
theorem marchDate_zero (year : Int) : marchDate year 0 = (year, 3, 1) := by
  simp [marchDate]

/-- The days of a year that ends with February. -/
def marchLength (year : Int) : Int := if isLeapYear (year + 1) then 366 else 365

/-- A year has 365 or 366 days. -/
theorem marchLength_bounds (year : Int) : 365 ≤ marchLength year ∧ marchLength year ≤ 366 := by
  unfold marchLength
  split <;> omega

/-- February has the days that are left. -/
theorem daysInMonth_february (year : Int) :
    daysInMonth (year + 1) 2 = marchLength year - 337 := by
  rw [daysInMonth, if_pos rfl, marchLength]
  split <;> rfl

/-- **Within a year the next day is the next date.** -/
theorem dayAfter_marchDate_of_lt {year doy : Int} (hnonneg : 0 ≤ doy)
    (hlt : doy + 1 < marchLength year) :
    dayAfter (marchDate year doy) = marchDate year (doy + 1) := by
  have hlength := marchLength_bounds year
  by_cases hfebruary : 337 ≤ doy
  · rw [marchDate_february hfebruary (by omega), marchDate_february (by omega) (by omega), dayAfter,
      daysInMonth_february, if_pos (by omega), Prod.mk.injEq, Prod.mk.injEq]
    exact ⟨rfl, rfl, by omega⟩
  · exact dayAfter_marchDate hnonneg (Int.not_le.mp hfebruary)

/-- **The last day of February is followed by the first one of March.** -/
theorem dayAfter_marchDate_last (year : Int) :
    dayAfter (marchDate year (marchLength year - 1)) = marchDate (year + 1) 0 := by
  have hlength := marchLength_bounds year
  rw [marchDate_february (by omega) (by omega), dayAfter, daysInMonth_february, if_neg (by omega),
    if_pos (by decide), marchDate_zero]
  rfl

/-- A year of the cycle has as many days as the calendar counts. -/
theorem yearStart_succ (y c : Int) (hlt : y < 399) (hnonneg : 0 ≤ y) :
    yearStart (y + 1) = yearStart y + marchLength (y + 400 * c) := by
  unfold yearStart marchLength
  split
  · rename_i hleap
    simp only [isLeapYear, Bool.and_eq_true, Bool.or_eq_true, beq_iff_eq, bne_iff_ne] at hleap
    omega
  · rename_i hleap
    simp only [isLeapYear, Bool.and_eq_true, Bool.or_eq_true, beq_iff_eq, bne_iff_ne] at hleap
    omega

/-- The last year of the cycle ends with a leap day. -/
theorem marchLength_last (c : Int) : marchLength (399 + 400 * c) = 366 := by
  refine if_pos ?_
  simp only [isLeapYear, Bool.and_eq_true, Bool.or_eq_true, beq_iff_eq, bne_iff_ne]
  omega

/-- The next day of a cycle is in the same year or the first one of the next year. -/
theorem dayOfYear_succ {d : Int} (h : InEra d) (hnext : InEra (d + 1)) (c : Int) :
    (yearOfEra (d + 1) = yearOfEra d ∧ dayOfYear (d + 1) = dayOfYear d + 1 ∧
      dayOfYear d + 1 < marchLength (yearOfEra d + 400 * c)) ∨
    (yearOfEra (d + 1) = yearOfEra d + 1 ∧ dayOfYear (d + 1) = 0 ∧
      dayOfYear d = marchLength (yearOfEra d + 400 * c) - 1) := by
  have hyear := yearOfEra_bounds h
  have hyear' := yearOfEra_bounds hnext
  have hmono := yearOfEra_succ h.1 hnext.2
  have hstart := yearStart_le hnext
  obtain hsame | hlater := Int.le_iff_eq_or_lt.mp hmono
  · refine .inl ⟨hsame.symm, ?_, ?_⟩
    · rw [dayOfYear, dayOfYear, ← hsame]
      omega
    · unfold dayOfYear
      by_cases hlast : yearOfEra d < 399
      · have hend := lt_yearStart_succ hnext (hsame ▸ hlast)
        rw [← hsame, yearStart_succ _ c hlast hyear.1] at hend
        omega
      · have hfull : yearOfEra d = 399 := by omega
        have hlt := hnext.2
        rw [hfull, marchLength_last]
        unfold yearStart
        omega
  · -- The first day of the next year lies between the two days.
    have hend := lt_yearStart_succ h (by omega)
    have hyear_eq : yearOfEra (d + 1) = yearOfEra d + 1 := by
      unfold yearStart at hstart hend
      omega
    have hlength := yearStart_succ (yearOfEra d) c (by omega) hyear.1
    rw [hyear_eq] at hstart
    refine .inr ⟨hyear_eq, ?_, ?_⟩
    · rw [dayOfYear, hyear_eq]
      omega
    · unfold dayOfYear
      omega

/-- **A day later is the next date.** -/
theorem gmtime_day_after (s : Int) : (gmtime (s + 86400)).date = dayAfter (gmtime s).date := by
  have hera := inEra_cycleDay s
  rw [gmtime_date, gmtime_date]
  obtain hwrap | hlt : cycleDay s = 146096 ∨ cycleDay s < 146096 := by
    have hlt := hera.2
    omega
  · -- The last day of a cycle of 400 years.
    have hcycle : cycle (s + 86400) = cycle s + 1 ∧ cycleDay (s + 86400) = 0 := by
      unfold cycle cycleDay at *
      omega
    have hlast : dayOfYear 146096 = marchLength (399 + 400 * cycle s) - 1 := by
      rw [marchLength_last]
      decide
    have hend : yearOfEra 146096 = 399 := by decide
    have hfirst : yearOfEra 0 = 0 ∧ dayOfYear 0 = 0 := by decide
    rw [hcycle.1, hcycle.2, hwrap, hlast, hend, hfirst.1, hfirst.2, dayAfter_marchDate_last]
    congr 1
    omega
  · have hcycle : cycle (s + 86400) = cycle s ∧ cycleDay (s + 86400) = cycleDay s + 1 := by
      unfold cycle cycleDay at *
      omega
    have hnext : InEra (cycleDay s + 1) := ⟨by have := hera.1; omega, by omega⟩
    rw [hcycle.1, hcycle.2]
    obtain ⟨hyear, hday, hinside⟩ | ⟨hyear, hday, hlast⟩ := dayOfYear_succ hera hnext (cycle s)
    · rw [hyear, hday, dayAfter_marchDate_of_lt (dayOfYear_bounds hera).1 hinside]
    · rw [hyear, hday, hlast, dayAfter_marchDate_last]
      congr 1
      omega

/-- **From the epoch on dates are counted day by day**, beginning with the first of January 1970. -/
theorem gmtime_date_iterate (n : Nat) {s : Int} (h : s / 86400 = n) :
    (gmtime s).date = dayAfter^[n] (1970, 1, 1) := by
  induction n generalizing s with
  | zero =>
      obtain ⟨hyear, hmonth, hday⟩ := gmtime_date_eq (s := s) (t := 0) h
      rw [Tm.date, hyear, hmonth, hday]
      rfl
  | succ n ih =>
      have hbefore := ih (s := s - 86400) (by omega)
      have hafter := gmtime_day_after (s - 86400)
      rw [Int.sub_add_cancel] at hafter
      rw [hafter, hbefore, Function.iterate_succ_apply']

end Ironpulse.Ingest
