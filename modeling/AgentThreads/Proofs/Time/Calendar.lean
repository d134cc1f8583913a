import AgentThreads.Time.Calendar

/-!
# Counting days

A day has a place: in one of the eras of 400 years, in a century of the era, in four years of the
century, in a year of the four, and in the year. Only the last year of four has a leap day, and the
last year of a century has one only if the century is the last of its era. The place determines the
date and the count of the day, so that the date of a day exists and counts as this day.
-/

namespace AgentThreads.Date

/-- The place of a day. Years begin in March. -/
structure Place where
  /-- The 400 years, counted from the year 0. -/
  era : Int
  /-- The century of the era. -/
  century : Nat
  /-- The four years of the century. -/
  four : Nat
  /-- The year of the four. -/
  single : Nat
  /-- The day of the year, from 0. -/
  inYear : Nat
  century_le : century ≤ 3
  four_le : four ≤ 24
  single_le : single ≤ 3
  inYear_le : inYear ≤ 365
  /-- A leap day ends four years, and a century only if it ends the era. -/
  leap : inYear = 365 → single = 3 ∧ (four = 24 → century = 3)

namespace Place

/-- The place of the day that is so many days from 1970-01-01. -/
def ofDays (days : Int) : Place :=
  let inEra := ((days + epoch) % 146097).toNat
  let century := min (inEra / 36524) 3
  let inCentury := inEra - 36524 * century
  let inFour := inCentury % 1461
  let single := min (inFour / 365) 3
  have inEra_lt : inEra < 146097 := by omega
  have inCentury_le : inCentury ≤ 36524 := by omega
  { era := (days + epoch) / 146097
    century
    four := inCentury / 1461
    single
    inYear := inFour - 365 * single
    century_le := by omega
    four_le := by omega
    single_le := by omega
    inYear_le := by omega
    leap := by omega }

/-- The year. -/
def year (p : Place) : Int :=
  400 * p.era + (100 * p.century + 4 * p.four + p.single : Nat)

/-- The month, counted from March as month 0. -/
def month (p : Place) : Nat :=
  (5 * p.inYear + 2) / 153

/-- The date at the place. -/
def date (p : Place) : Date where
  year := if p.month < 10 then p.year else p.year + 1
  month := if p.month < 10 then p.month + 3 else p.month - 9
  day := p.inYear - daysBefore p.month + 1

/-- The days from 1970-01-01 to the place. -/
def days (p : Place) : Int :=
  146097 * p.era + 36524 * p.century + 1461 * p.four + 365 * p.single + p.inYear - epoch

theorem days_ofDays (days : Int) : (ofDays days).days = days := by
  simp only [Place.days, ofDays]
  omega

theorem month_le (p : Place) : p.month ≤ 11 := by
  have := p.inYear_le
  simp only [month]
  omega

/-- The months lie one behind the other. -/
theorem daysBefore_month_le (p : Place) : daysBefore p.month ≤ p.inYear := by
  simp only [daysBefore, month]
  omega

theorem inYear_lt_daysBefore (p : Place) : p.inYear < daysBefore (p.month + 1) := by
  simp only [daysBefore, month]
  omega

/-- The date at a place counts as the day of the place. -/
theorem toDays_date (p : Place) : p.date.toDays = p.days := by
  have hmonth := p.month_le
  have hday := p.daysBefore_month_le
  have year_eq : (if p.date.month ≤ 2 then p.date.year - 1 else p.date.year) = p.year := by
    simp only [date]
    split <;> split <;> omega
  have month_eq : (p.date.month + 9) % 12 = p.month := by
    simp only [date]
    split <;> omega
  have inEra : (p.year % 400).toNat = 100 * p.century + 4 * p.four + p.single ∧
      p.year / 400 = p.era := by
    have := p.century_le
    have := p.four_le
    have := p.single_le
    simp only [year]
    omega
  have day_eq : p.date.day = p.inYear - daysBefore p.month + 1 := rfl
  have := p.four_le
  have := p.single_le
  rw [toDays]
  simp only [year_eq, month_eq, inEra, day_eq, days]
  omega

/-- The year after a place ends with a leap day if the place is one. -/
theorem isLeapYear_of_leap (p : Place) (h : p.inYear = 365) : isLeapYear (p.year + 1) := by
  obtain ⟨hsingle, hcentury⟩ := p.leap h
  have := p.four_le
  have := p.century_le
  simp only [isLeapYear, year, hsingle, Bool.and_eq_true, Bool.or_eq_true, beq_iff_eq, bne_iff_ne]
  omega

/-- A month other than February is as long as the days up to the next one. -/
theorem daysBefore_succ_le {month : Nat} (h : month < 11) (year : Int) :
    daysBefore (month + 1) ≤
      daysBefore month + daysIn year (if month < 10 then month + 3 else month - 9) := by
  have lengths : ∀ m < 11, (if m < 10 then m + 3 else m - 9) ≠ 2 ∧
      daysBefore (m + 1) ≤ daysBefore m +
        (let number := if m < 10 then m + 3 else m - 9
         if number = 4 ∨ number = 6 ∨ number = 9 ∨ number = 11 then 30 else 31) := by decide
  obtain ⟨other, length⟩ := lengths month h
  rwa [daysIn, if_neg other]

/-- The day of the month is one that the month has. -/
theorem day_le (p : Place) : p.date.day ≤ daysIn p.date.year p.date.month := by
  have hfrom := p.daysBefore_month_le
  have hto := p.inYear_lt_daysBefore
  by_cases h : p.month < 11
  · have length := daysBefore_succ_le h p.date.year
    simp only [date] at length ⊢
    omega
  · have february : p.month = 11 := by
      have := p.month_le
      omega
    have year_eq : p.date.year = p.year + 1 := by simp [date, february]
    have month_eq : p.date.month = 2 := by simp [date, february]
    have day_eq : p.date.day = p.inYear - daysBefore 11 + 1 := by simp [date, february]
    have := p.inYear_le
    rw [year_eq, month_eq, day_eq, daysIn, if_pos rfl]
    by_cases hlast : p.inYear = 365
    · rw [if_pos (p.isLeapYear_of_leap hlast), hlast]
      decide
    · simp only [daysBefore]
      split <;> omega

/-- The date at a place exists. -/
theorem isValid_date (p : Place) : p.date.isValid := by
  have hmonth := p.month_le
  have hday := p.day_le
  have bounds : 1 ≤ p.date.month ∧ p.date.month ≤ 12 ∧ 1 ≤ p.date.day := by
    simp only [date]
    split <;> omega
  simp only [isValid, Bool.and_eq_true, decide_eq_true_eq]
  exact ⟨⟨⟨bounds.1, bounds.2.1⟩, bounds.2.2⟩, hday⟩

end Place

/-- The date of a day exists. -/
theorem isValid_ofDays (days : Int) : (ofDays days).isValid :=
  (Place.ofDays days).isValid_date

/-- The date of a day counts as this day. -/
theorem toDays_ofDays (days : Int) : (ofDays days).toDays = days :=
  ((Place.ofDays days).toDays_date).trans (Place.days_ofDays days)

/-- Months and days have two digits. -/
theorem le_of_isValid {d : Date} (h : d.isValid) : d.month ≤ 12 ∧ d.day ≤ 31 := by
  simp only [isValid, Bool.and_eq_true, decide_eq_true_eq] at h
  refine ⟨h.1.1.2, Nat.le_trans h.2 ?_⟩
  simp only [daysIn]
  split
  · split <;> decide
  · split <;> decide

end AgentThreads.Date
