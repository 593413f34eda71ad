import DocumentStore.Time.Calendar

/-! # Dates and days

An era of four hundred years falls into centuries of 36524 days, these into leap cycles of 1461 days and
these into years of 365 days, where the last part of each may have a day more or less. The date of a
day is read off these parts, and the day of that date is the day again. -/

namespace DocumentStore.Date

/-- The parts of the days of an era: full centuries, full leap cycles of the last century, and the days
after them. Only the last century of the era has a leap day at its end. -/
structure Cycles (centuries cycles days : Int) : Prop where
  centuries_nonneg : 0 ≤ centuries
  centuries_le : centuries ≤ 3
  cycles_nonneg : 0 ≤ cycles
  cycles_le : cycles ≤ 24
  days_nonneg : 0 ≤ days
  days_le : days ≤ 1460
  short : cycles = 24 → centuries < 3 → days ≤ 1459

/-- The day of the era that the parts make. -/
def dayOfCycles (centuries cycles days : Int) : Int := 36524 * centuries + 1461 * cycles + days

theorem exists_cycles (day : Int) (nonneg : 0 ≤ day) (lt : day < 146097) :
    ∃ n q d, Cycles n q d ∧ day = dayOfCycles n q d := by
  unfold dayOfCycles
  by_cases last : day = 146096
  · exact ⟨3, 24, 1460, ⟨by omega, by omega, by omega, by omega, by omega, by omega, by omega⟩,
      by omega⟩
  · refine ⟨day / 36524, day % 36524 / 1461, day % 36524 % 1461, ?_, by omega⟩
    exact ⟨by omega, by omega, by omega, by omega, by omega, by omega, by omega⟩

/-- The year of the cycle: the fourth year has a day more than the others. -/
def yearOfCycle (days : Int) : Int := if days = 1460 then 3 else days / 365

/-- The year of the era of a day. -/
def yearOfEra (day : Int) : Int := (day - day / 1460 + day / 36524 - day / 146096) / 365

/-- The day of the year of a day of the era. -/
def dayOfYear (day : Int) : Int :=
  day - (365 * yearOfEra day + yearOfEra day / 4 - yearOfEra day / 100)

section Cycles

variable {n q d : Int} (h : Cycles n q d)

include h

theorem yearOfEra_dayOfCycles :
    yearOfEra (dayOfCycles n q d) = 100 * n + 4 * q + yearOfCycle d := by
  obtain ⟨n0, n3, q0, q24, d0, d1460, short⟩ := h
  unfold yearOfEra yearOfCycle
  generalize hday : dayOfCycles n q d = day
  rw [dayOfCycles] at hday
  -- The parts that are left of the divisors make at most one more quotient.
  obtain ⟨carry, hcarry⟩ : ∃ c : Int,
      1460 ≤ 24 * n + q + d ∧ c = 1 ∨ 24 * n + q + d < 1460 ∧ c = 0 := by
    by_cases above : 1460 ≤ 24 * n + q + d
    · exact ⟨1, .inl ⟨above, rfl⟩⟩
    · exact ⟨0, .inr ⟨Int.not_le.mp above, rfl⟩⟩
  obtain ⟨last, hlast⟩ : ∃ c : Int, day = 146096 ∧ c = 1 ∨ day ≠ 146096 ∧ c = 0 := by
    by_cases isLast : day = 146096
    · exact ⟨1, .inl ⟨isLast, rfl⟩⟩
    · exact ⟨0, .inr ⟨isLast, rfl⟩⟩
  have leap : day / 1460 = 25 * n + q + carry := by omega
  have century : day / 36524 = n + last := by omega
  have era : day / 146096 = last := by omega
  have years : day - day / 1460 + day / 36524 - day / 146096
      = 365 * (100 * n + 4 * q) + (d - carry) := by omega
  rw [years]
  omega

theorem yearOfCycle_bounds : 0 ≤ yearOfCycle d ∧ yearOfCycle d ≤ 3 := by
  obtain ⟨n0, n3, q0, q24, d0, d1460, short⟩ := h
  unfold yearOfCycle
  omega

theorem yearOfEra_bounds :
    0 ≤ yearOfEra (dayOfCycles n q d) ∧ yearOfEra (dayOfCycles n q d) ≤ 399 := by
  rw [yearOfEra_dayOfCycles h]
  have year := yearOfCycle_bounds h
  obtain ⟨n0, n3, q0, q24, d0, d1460, short⟩ := h
  omega

theorem dayOfYear_dayOfCycles :
    dayOfYear (dayOfCycles n q d) = d - 365 * yearOfCycle d := by
  unfold dayOfYear
  rw [yearOfEra_dayOfCycles h, dayOfCycles]
  have year := yearOfCycle_bounds h
  obtain ⟨n0, n3, q0, q24, d0, d1460, short⟩ := h
  omega

theorem dayOfYear_bounds :
    0 ≤ dayOfYear (dayOfCycles n q d) ∧ dayOfYear (dayOfCycles n q d) ≤ 365 := by
  rw [dayOfYear_dayOfCycles h, yearOfCycle]
  obtain ⟨n0, n3, q0, q24, d0, d1460, short⟩ := h
  omega

/-- A day more than 365 is the leap day at the end of a year that begins in March. -/
theorem isLeapYear_of_last_day {era : Int} (last : dayOfYear (dayOfCycles n q d) = 365) :
    isLeapYear (yearOfEra (dayOfCycles n q d) + era * 400 + 1) := by
  rw [dayOfYear_dayOfCycles h, yearOfCycle] at last
  rw [yearOfEra_dayOfCycles h, yearOfCycle]
  obtain ⟨n0, n3, q0, q24, d0, d1460, short⟩ := h
  have leapDay : d = 1460 := by omega
  simp only [isLeapYear, Bool.and_eq_true, Bool.or_eq_true, beq_iff_eq, bne_iff_ne, leapDay, if_true]
  omega

end Cycles

/-- The date of a day of a year that begins in March; months count from March. -/
def ofYearAndDay (year day : Int) : Date :=
  let month := (5 * day + 2) / 153
  let calendarMonth := if month < 10 then month + 3 else month - 9
  { year := if calendarMonth ≤ 2 then year + 1 else year
    month := calendarMonth.toNat
    day := (day - (153 * month + 2) / 5 + 1).toNat }

theorem ofDays_eq (days : Int) :
    ofDays days = ofYearAndDay
      (yearOfEra ((days + 719468) % 146097) + (days + 719468) / 146097 * 400)
      (dayOfYear ((days + 719468) % 146097)) := rfl

section Year

variable {year day : Int} (nonneg : 0 ≤ day) (le : day ≤ 365)

include nonneg le

theorem isValid_ofYearAndDay (leap : day = 365 → isLeapYear (year + 1)) :
    (ofYearAndDay year day).isValid := by
  obtain ⟨month, hmonth⟩ : ∃ m, m = (5 * day + 2) / 153 := ⟨_, rfl⟩
  have low : 0 ≤ month := by omega
  have high : month ≤ 11 := by omega
  unfold ofYearAndDay
  rw [← hmonth]
  obtain rfl | rfl | rfl | rfl | rfl | rfl | rfl | rfl | rfl | rfl | rfl | rfl :
      month = 0 ∨ month = 1 ∨ month = 2 ∨ month = 3 ∨ month = 4 ∨ month = 5 ∨ month = 6 ∨
        month = 7 ∨ month = 8 ∨ month = 9 ∨ month = 10 ∨ month = 11 := by omega
  case inr.inr.inr.inr.inr.inr.inr.inr.inr.inr.inr =>
    -- The end of February depends on the year.
    by_cases leapDay : day = 365
    · simp [isValid, daysInMonth, leap leapDay]
      omega
    · have inFebruary : day - 337 + 1 ≤ 28 := by omega
      simp [isValid, daysInMonth]
      split <;> omega
  all_goals
    simp [isValid, daysInMonth]
    omega

theorem parts_ofYearAndDay (year : Int) :
    (if (ofYearAndDay year day).month ≤ 2 then (ofYearAndDay year day).year - 1
        else (ofYearAndDay year day).year) = year ∧
      ((ofYearAndDay year day).month + 9 : Int) % 12 = (5 * day + 2) / 153 ∧
      ((ofYearAndDay year day).day : Int) = day - (153 * ((5 * day + 2) / 153) + 2) / 5 + 1 := by
  obtain ⟨month, hmonth⟩ : ∃ m, m = (5 * day + 2) / 153 := ⟨_, rfl⟩
  have low : 0 ≤ month := by omega
  have high : month ≤ 11 := by omega
  unfold ofYearAndDay
  rw [← hmonth]
  by_cases early : month < 10
  · have month : ¬ (month + 3).toNat ≤ 2 := by omega
    simp only [early, if_true]
    rw [if_neg month]
    omega
  · have month : (month - 9).toNat ≤ 2 := by omega
    simp only [early, if_false]
    rw [if_pos month]
    omega

private theorem toDays_ofYearAndDay (era : Int) (low : 0 ≤ year) (high : year ≤ 399) :
    (ofYearAndDay (year + era * 400) day).toDays
      = era * 146097 + (365 * year + year / 4 - year / 100 + day) - 719468 := by
  obtain ⟨marchYear, month, dayOfMonth⟩ := parts_ofYearAndDay nonneg le (year + era * 400)
  have eraPart : (year + era * 400) / 400 = era := by omega
  have yearPart : (year + era * 400) % 400 = year := by omega
  simp only [toDays, marchYear, month, dayOfMonth, eraPart, yearPart]
  omega

end Year

/-- The day of the date of a day is the day. -/
theorem toDays_ofDays (days : Int) : (ofDays days).toDays = days := by
  obtain ⟨n, q, d, h, day⟩ := exists_cycles ((days + 719468) % 146097) (by omega) (by omega)
  obtain ⟨dayLow, dayHigh⟩ := dayOfYear_bounds h
  obtain ⟨yearLow, yearHigh⟩ := yearOfEra_bounds h
  rw [ofDays_eq, day, toDays_ofYearAndDay dayLow dayHigh _ yearLow yearHigh, dayOfYear, ← day]
  omega

/-- The year of a day is one of those that its era touches. -/
theorem year_ofDays_bounds (days : Int) :
    (days + 719468) / 146097 * 400 ≤ (ofDays days).year ∧
      (ofDays days).year ≤ (days + 719468) / 146097 * 400 + 400 := by
  obtain ⟨n, q, d, h, day⟩ := exists_cycles ((days + 719468) % 146097) (by omega) (by omega)
  obtain ⟨yearLow, yearHigh⟩ := yearOfEra_bounds h
  rw [ofDays_eq, day]
  simp only [ofYearAndDay]
  omega

/-- The date of a day is on the calendar. -/
theorem isValid_ofDays (days : Int) : (ofDays days).isValid := by
  obtain ⟨n, q, d, h, day⟩ := exists_cycles ((days + 719468) % 146097) (by omega) (by omega)
  obtain ⟨dayLow, dayHigh⟩ := dayOfYear_bounds h
  rw [ofDays_eq, day]
  exact isValid_ofYearAndDay dayLow dayHigh (isLeapYear_of_last_day h)

end DocumentStore.Date
