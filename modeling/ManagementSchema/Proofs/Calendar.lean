-- The date of a day is a day of the calendar, and its number is that day. A
-- day is counted by cycles of 400 years, centuries, spans of four years and
-- years. The last century of a cycle and the last year of a span are a day
-- longer than the others, and the last span of other centuries a day shorter.
import Mathlib.Tactic.IntervalCases
import ManagementSchema.Time.Calendar

namespace ManagementSchema

namespace CalendarDate

/-! ## Days of a cycle -/

/-- The day of a cycle by centuries, spans of four years, years, and the day of the year. -/
structure DayParts (day centuries spans years rest : Int) : Prop where
  sum : day = 36524 * centuries + 1461 * spans + 365 * years + rest
  fewCenturies : 0 ≤ centuries ∧ centuries ≤ 3
  fewSpans : 0 ≤ spans ∧ spans ≤ 24
  fewYears : 0 ≤ years ∧ years ≤ 3
  ofYear : 0 ≤ rest ∧ rest ≤ 365
  leapDay : rest = 365 → years = 3 ∧ (spans < 24 ∨ centuries = 3)

variable {day centuries spans years rest : Int}

theorem exists_dayParts (hlow : 0 ≤ day) (hhigh : day < cycleDays) :
    ∃ centuries spans years rest, DayParts day centuries spans years rest := by
  unfold cycleDays at hhigh
  have hcenturies : ∃ c d, day = 36524 * c + d ∧ 0 ≤ c ∧ c ≤ 3 ∧ 0 ≤ d ∧ d ≤ 36524 ∧
      (d = 36524 → c = 3) := by
    by_cases hlast : day = 146096
    · exact ⟨3, 36524, by omega⟩
    · exact ⟨day / 36524, day % 36524, by omega⟩
  obtain ⟨c, d, hday, hc⟩ := hcenturies
  have hyears : ∃ y r, d % 1461 = 365 * y + r ∧ 0 ≤ y ∧ y ≤ 3 ∧ 0 ≤ r ∧ r ≤ 365 ∧
      (r = 365 → y = 3) := by
    by_cases hlast : d % 1461 = 1460
    · exact ⟨3, 365, by omega⟩
    · exact ⟨d % 1461 / 365, d % 1461 % 365, by omega⟩
  obtain ⟨y, r, hspan, hy⟩ := hyears
  refine ⟨c, d / 1461, y, r, ?_, ?_, ?_, ?_, ?_, ?_⟩
  all_goals omega

/-- The year of a cycle, by the leap days that have passed. -/
theorem DayParts.year (h : DayParts day centuries spans years rest) :
    (day - day / 1460 + day / 36524 - day / 146096) / 365 = 100 * centuries + 4 * spans + years := by
  obtain ⟨hsum, hcenturies, hspans, hyears, hrest, hleap⟩ := h
  -- the last day of the cycle is the only one that two of the terms take for one of the next
  have hcycle : day / 146096 = if day = 146096 then 1 else 0 := by omega
  have hcentury : day / 36524 = centuries + if day = 146096 then 1 else 0 := by omega
  have hspan : day / 1460 =
      25 * centuries + spans + (24 * centuries + spans + 365 * years + rest) / 1460 := by omega
  have hover : (24 * centuries + spans + 365 * years + rest) / 1460 =
      if years = 3 ∧ 365 ≤ 24 * centuries + spans + rest then 1 else 0 := by omega
  rw [hspan, hcentury, hcycle, hover]
  omega

/-- The days before a year of a cycle, by its leap days. -/
theorem DayParts.yearStart (h : DayParts day centuries spans years rest) :
    365 * (100 * centuries + 4 * spans + years) + (100 * centuries + 4 * spans + years) / 4 -
      (100 * centuries + 4 * spans + years) / 100 = day - rest := by
  obtain ⟨hsum, hcenturies, hspans, hyears, _, _⟩ := h
  omega

/-! ## Months -/

/-- The date is a day of the calendar, in whatever year. -/
structure Valid (date : CalendarDate) : Prop where
  month : 1 ≤ date.month ∧ date.month ≤ 12
  day : 1 ≤ date.day ∧ date.day ≤ monthLength date.year date.month

theorem monthLength_le (year : Int) (month : Nat) : monthLength year month ≤ 31 := by
  unfold monthLength
  split
  · split <;> omega
  · split <;> omega

theorem ofYmd?_eq_some_iff {year : Int} {month day : Nat} {date : CalendarDate} :
    ofYmd? year month day = some date ↔
      date = ⟨year, month, day⟩ ∧ firstYear ≤ year ∧ year ≤ lastYear ∧ date.Valid := by
  unfold ofYmd?
  refine ⟨?_, ?_⟩
  · intro h
    split at h
    · rename_i hfits
      obtain ⟨hfirst, hlast, hmonth, hmonth', hday, hday'⟩ := hfits
      cases h
      exact ⟨rfl, hfirst, hlast, ⟨hmonth, hmonth'⟩, hday, hday'⟩
    · cases h
  · rintro ⟨rfl, hfirst, hlast, ⟨hmonth, hmonth'⟩, hday, hday'⟩
    rw [if_pos ⟨hfirst, hlast, hmonth, hmonth', hday, hday'⟩]

/-- The date of a day that is counted from 1 March of a year on. -/
def ofDayOfYear (year rest : Int) : CalendarDate :=
  let month := (5 * rest + 2) / 153
  let day := rest - (153 * month + 2) / 5 + 1
  if month < 10 then ⟨year, (month + 3).toNat, day.toNat⟩
  else ⟨year + 1, (month - 9).toNat, day.toNat⟩

theorem ofDays_eq {days cycle : Int} (hsum : days + epochOffset = cycle * cycleDays + day)
    (h : DayParts day centuries spans years rest) (hlow : 0 ≤ day) (hhigh : day < cycleDays) :
    ofDays days = ofDayOfYear (cycle * 400 + (100 * centuries + 4 * spans + years)) rest := by
  have hcycle : (days + epochOffset) / cycleDays = cycle := by
    unfold cycleDays at *
    omega
  have hday : (days + epochOffset) % cycleDays = day := by
    unfold cycleDays at *
    omega
  have hrest : day - (day - rest) = rest := by omega
  unfold ofDays ofDayOfYear
  simp only [hcycle, hday, h.year, h.yearStart, hrest]

/-- The day of the year by months: of every five months from March on, three are long. -/
theorem monthStart_spec (hlow : 0 ≤ rest) (hhigh : rest ≤ 365) :
    0 ≤ (5 * rest + 2) / 153 ∧ (5 * rest + 2) / 153 ≤ 11 ∧
      (153 * ((5 * rest + 2) / 153) + 2) / 5 ≤ rest := by
  omega

/-- A year that begins in March has its leap day at its end, in the year that is next. -/
theorem ofDayOfYear_valid {year : Int} (hlow : 0 ≤ rest) (hhigh : rest ≤ 365)
    (hleap : rest = 365 → isLeapYear (year + 1) = true) : (ofDayOfYear year rest).Valid := by
  have hvalid : 1 ≤ (ofDayOfYear year rest).month ∧ (ofDayOfYear year rest).month ≤ 12 ∧
      1 ≤ (ofDayOfYear year rest).day ∧ (ofDayOfYear year rest).day ≤
        monthLength (ofDayOfYear year rest).year (ofDayOfYear year rest).month := by
    obtain ⟨hfirst, hlast, hstart⟩ := monthStart_spec hlow hhigh
    unfold ofDayOfYear
    generalize hmonth : (5 * rest + 2) / 153 = month at hfirst hlast hstart ⊢
    have hend : isLeapYear (year + 1) = true ∨ rest ≤ 364 := by
      by_cases h : rest = 365
      · exact .inl (hleap h)
      · exact .inr (by omega)
    -- only February has a length that hangs on the year
    rcases hend with hend | hend
    · interval_cases month
      all_goals simp [monthLength, hend]
      all_goals omega
    · interval_cases month
      all_goals simp [monthLength]
      all_goals omega
  exact ⟨⟨hvalid.1, hvalid.2.1⟩, hvalid.2.2⟩

/-- The number of a day by the year that begins in March and the day of it. -/
theorem toDays_ofDayOfYear {year : Int} (hlow : 0 ≤ rest) (hhigh : rest ≤ 365) :
    toDays (ofDayOfYear year rest) =
      year / 400 * cycleDays + (365 * (year % 400) + year % 400 / 4 - year % 400 / 100 + rest) -
        epochOffset := by
  obtain ⟨hfirst, hlast, hstart⟩ := monthStart_spec hlow hhigh
  unfold ofDayOfYear
  generalize hmonth : (5 * rest + 2) / 153 = month at hfirst hlast hstart ⊢
  have hday : ((rest - (153 * month + 2) / 5 + 1).toNat : Int) = rest - (153 * month + 2) / 5 + 1 := by
    omega
  unfold toDays
  by_cases hyear : month < 10
  · have hmarch : ¬ (month + 3).toNat ≤ 2 := by omega
    have hback : (((month + 3).toNat : Nat) : Int) - 3 = month := by omega
    simp only [hyear, if_true, hmarch, if_false, hback, hday]
    omega
  · have hjanuary : (month - 9).toNat ≤ 2 := by omega
    have hback : (((month - 9).toNat : Nat) : Int) + 9 = month := by omega
    have hprevious : year + 1 - 1 = year := by omega
    simp only [hyear, if_false, hjanuary, if_true, hback, hday, hprevious]
    omega

/-! ## Days and dates -/

theorem isLeapYear_of_leapDay {cycle : Int} (h : DayParts day centuries spans years rest)
    (hrest : rest = 365) :
    isLeapYear (cycle * 400 + (100 * centuries + 4 * spans + years) + 1) = true := by
  obtain ⟨hyears, hlast⟩ := h.leapDay hrest
  have hcenturies := h.fewCenturies
  have hspans := h.fewSpans
  unfold isLeapYear
  simp only [Bool.and_eq_true, Bool.or_eq_true, decide_eq_true_eq]
  omega

/-- The number of a date by its day of the cycle: there is some day of a cycle for every day. -/
theorem ofDays_spec (days : Int) :
    ∃ year rest, ofDays days = ofDayOfYear year rest ∧ 0 ≤ rest ∧ rest ≤ 365 ∧
      (rest = 365 → isLeapYear (year + 1) = true) ∧
      days = year / 400 * cycleDays +
        (365 * (year % 400) + year % 400 / 4 - year % 400 / 100 + rest) - epochOffset := by
  have hlow : 0 ≤ (days + epochOffset) % cycleDays := Int.emod_nonneg _ (by decide)
  have hhigh : (days + epochOffset) % cycleDays < cycleDays := Int.emod_lt_of_pos _ (by decide)
  have hsum : days + epochOffset = (days + epochOffset) / cycleDays * cycleDays +
      (days + epochOffset) % cycleDays := by
    rw [Int.mul_comm]
    exact (Int.mul_ediv_add_emod _ _).symm
  generalize (days + epochOffset) / cycleDays = cycle at hsum
  generalize (days + epochOffset) % cycleDays = day at hlow hhigh hsum
  obtain ⟨centuries, spans, years, rest, hparts⟩ := exists_dayParts hlow hhigh
  have hcenturies := hparts.fewCenturies
  have hspans := hparts.fewSpans
  have hyears := hparts.fewYears
  have hcycle : (cycle * 400 + (100 * centuries + 4 * spans + years)) / 400 = cycle := by omega
  have hyear : (cycle * 400 + (100 * centuries + 4 * spans + years)) % 400 =
      100 * centuries + 4 * spans + years := by omega
  refine ⟨_, rest, ofDays_eq hsum hparts hlow hhigh, hparts.ofYear.1, hparts.ofYear.2,
    isLeapYear_of_leapDay hparts, ?_⟩
  rw [hcycle, hyear, hparts.yearStart]
  omega

/-- The number of the date of a day is that day. -/
theorem toDays_ofDays (days : Int) : toDays (ofDays days) = days := by
  obtain ⟨year, rest, heq, hlow, hhigh, _, hdays⟩ := ofDays_spec days
  rw [heq, toDays_ofDayOfYear hlow hhigh, ← hdays]

/-- The date of a day stands in the calendar. -/
theorem valid_ofDays (days : Int) : (ofDays days).Valid := by
  obtain ⟨year, rest, heq, hlow, hhigh, hleap, _⟩ := ofDays_spec days
  rw [heq]
  exact ofDayOfYear_valid hlow hhigh hleap

/-! ## Dates and days -/

/-- The year that begins in March, with the date in it. -/
def marchYear (date : CalendarDate) : Int := if date.month ≤ 2 then date.year - 1 else date.year

/-- The day of that year. -/
def marchDay (date : CalendarDate) : Int :=
  let month : Int := if date.month ≤ 2 then date.month + 9 else date.month - 3
  (153 * month + 2) / 5 + date.day - 1

theorem Valid.marchDay_bounds {date : CalendarDate} (h : date.Valid) :
    0 ≤ date.marchDay ∧ date.marchDay ≤ 365 ∧
      (date.marchDay = 365 → isLeapYear (date.marchYear + 1) = true) := by
  obtain ⟨year, month, day⟩ := date
  obtain ⟨⟨hmonth, hmonth'⟩, hday, hday'⟩ := h
  simp only at hmonth hmonth' hday hday'
  unfold monthLength at hday'
  unfold marchDay marchYear
  simp only
  rw [show year = year - 1 + 1 by omega] at hday'
  interval_cases month
  all_goals simp at hday' ⊢
  all_goals grind

/-- The month of a day is the one that it was counted from. -/
theorem month_of_monthStart {month day : Int} (hmonth : 0 ≤ month ∧ month ≤ 11)
    (hday : 1 ≤ day ∧ day ≤ 31)
    (hshort : month = 1 ∨ month = 3 ∨ month = 6 ∨ month = 8 ∨ month = 11 → day ≤ 30) :
    (5 * ((153 * month + 2) / 5 + day - 1) + 2) / 153 = month := by
  obtain ⟨hmonth, hmonth'⟩ := hmonth
  interval_cases month
  all_goals omega

theorem Valid.ofDayOfYear_march {date : CalendarDate} (h : date.Valid) :
    ofDayOfYear date.marchYear date.marchDay = date := by
  obtain ⟨year, month, day⟩ := date
  obtain ⟨⟨hmonth, hmonth'⟩, hday, hday'⟩ := h
  simp only at hmonth hmonth' hday hday'
  have hlong : day ≤ 31 ∧ (month = 4 ∨ month = 6 ∨ month = 9 ∨ month = 11 ∨ month = 2 → day ≤ 30) := by
    unfold monthLength at hday'
    grind
  unfold ofDayOfYear marchDay marchYear
  by_cases hearly : month ≤ 2
  · have hstart := @month_of_monthStart (month + 9) day (by omega) (by omega) (by omega)
    simp only [hearly, if_true, hstart]
    rw [if_neg (by omega)]
    simp only [CalendarDate.mk.injEq]
    omega
  · have hstart := @month_of_monthStart (month - 3) day (by omega) (by omega) (by omega)
    simp only [hearly, if_false, hstart]
    rw [if_pos (by omega)]
    simp only [CalendarDate.mk.injEq, true_and]
    omega

theorem dayParts_of_year {year rest : Int} (hlow : 0 ≤ rest) (hhigh : rest ≤ 365)
    (hleap : rest = 365 → isLeapYear (year + 1) = true) :
    DayParts (365 * (year % 400) + year % 400 / 4 - year % 400 / 100 + rest) (year % 400 / 100)
      (year % 100 / 4) (year % 4) rest := by
  refine ⟨by omega, by omega, by omega, by omega, ⟨hlow, hhigh⟩, ?_⟩
  intro hrest
  have h := hleap hrest
  unfold isLeapYear at h
  simp only [Bool.and_eq_true, Bool.or_eq_true, decide_eq_true_eq] at h
  omega

/-- The date of the number of a date is that date. -/
theorem ofDays_toDays {date : CalendarDate} (h : date.Valid) : ofDays (toDays date) = date := by
  obtain ⟨hlow, hhigh, hleap⟩ := h.marchDay_bounds
  have hdays : toDays date + epochOffset = date.marchYear / 400 * cycleDays +
      (365 * (date.marchYear % 400) + date.marchYear % 400 / 4 - date.marchYear % 400 / 100 +
        date.marchDay) := by
    rw [← h.ofDayOfYear_march, toDays_ofDayOfYear hlow hhigh, h.ofDayOfYear_march]
    omega
  have hparts := dayParts_of_year hlow hhigh hleap
  have hyear : date.marchYear / 400 * 400 + (100 * (date.marchYear % 400 / 100) +
      4 * (date.marchYear % 100 / 4) + date.marchYear % 4) = date.marchYear := by omega
  rw [ofDays_eq hdays hparts (by omega) (by unfold cycleDays; omega), hyear, h.ofDayOfYear_march]

/-! ## Years of days -/

/-- A date is between the first and the last day of the years that it is between. -/
theorem Valid.toDays_bounds {date : CalendarDate} (h : date.Valid) {first last : Int}
    (hlow : first ≤ date.year) (hhigh : date.year ≤ last) :
    toDays ⟨first, 1, 1⟩ ≤ date.toDays ∧ date.toDays ≤ toDays ⟨last, 12, 31⟩ := by
  have hlong := monthLength_le date.year date.month
  obtain ⟨⟨hmonth, hmonth'⟩, hday, hday'⟩ := h
  unfold toDays cycleDays epochOffset
  by_cases hearly : date.month ≤ 2
  · simp only [hearly, if_true, Nat.one_le_ofNat, Nat.reduceLeDiff, if_false]
    omega
  · simp only [hearly, if_false, Nat.one_le_ofNat, if_true, Nat.reduceLeDiff]
    omega

theorem year_bounds {days : Int} (hlow : -719700 ≤ days) (hhigh : days ≤ 2933000) :
    firstYear ≤ (ofDays days).year ∧ (ofDays days).year ≤ lastYear := by
  obtain ⟨year, rest, heq, hrest, hrest', _, hdays⟩ := ofDays_spec days
  have hyear : (ofDays days).year = year ∨ (ofDays days).year = year + 1 := by
    rw [heq]
    unfold ofDayOfYear
    simp only
    split
    · exact .inl rfl
    · exact .inr rfl
  unfold cycleDays epochOffset at hdays
  unfold firstYear lastYear
  omega

end CalendarDate

end ManagementSchema
