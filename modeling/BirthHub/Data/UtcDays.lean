import BirthHub.Data.IsoDate

/-!
# Days of UTC

A day is numbered from 1 January 1970. `Date.UTC` reads a year from 0 to 99 as one of the twentieth
century. The first ten characters of an ISO text are its date just for the years 0 to 9999.
-/

namespace Data

namespace Date

def dayMillis : Int := 86400000

/-- `Date.UTC(year, month, day)`, with the month from 1. -/
def utc (day : Day) : Int :=
  numberOfDay { day with
    year := if 0 ≤ day.year ∧ day.year ≤ 99 then 1900 + day.year else day.year } * dayMillis

/-- The date of the day `n`, as its ISO text has it. -/
def dayText (n : Int) : List Char :=
  let day := dayOfNumber n
  yearText day.year ++ ('-' :: two day.month.toNat ++ '-' :: two day.day.toNat)

/-- The ISO text of the start of day `n` after its date. -/
def midnightText : List Char :=
  'T' :: two 0 ++ ':' :: two 0 ++ ':' :: two 0 ++ '.' :: three 0 ++ ['Z']

variable {n m : Int}

theorem isoText_start : isoText (n * dayMillis) = dayText n ++ midnightText := by
  have whole : n * dayMillis / 86400000 = n := by
    simp only [dayMillis]
    omega
  have none' : (n * dayMillis % 86400000).toNat = 0 := by
    simp only [dayMillis]
    omega
  simp only [isoText, whole, none', dayText, midnightText, List.append_assoc, List.cons_append]

theorem dayText_inj (inRange : (n * dayMillis).natAbs ≤ maxTime)
    (inRange' : (m * dayMillis).natAbs ≤ maxTime) (same : dayText n = dayText m) : n = m := by
  have read := readTime_isoText inRange
  rw [isoText_start, same, ← isoText_start, readTime_isoText inRange'] at read
  have times : m * dayMillis = n * dayMillis := Option.some.inj read
  simp only [dayMillis] at times
  omega

theorem take_dayText (years : 0 ≤ (dayOfNumber n).year ∧ (dayOfNumber n).year ≤ 9999) :
    (isoText (n * dayMillis)).take 10 = dayText n := by
  rw [isoText_start, dayText, yearText, if_pos years]
  rfl

theorem length_dayText (years : 0 ≤ (dayOfNumber n).year ∧ (dayOfNumber n).year ≤ 9999) :
    (dayText n).length = 10 := by
  rw [dayText, yearText, if_pos years]
  rfl

theorem length_take_isoText : ((isoText (n * dayMillis)).take 10).length = 10 := by
  rw [isoText_start, dayText, yearText]
  split <;> rfl

/-- Outside of these years the date is longer, and goes on with a dash. -/
theorem dayText_long (years : ¬ (0 ≤ (dayOfNumber n).year ∧ (dayOfNumber n).year ≤ 9999)) :
    (dayText n)[10]? = some '-' := by
  rw [dayText, yearText, if_neg years]
  rfl

/-! ## The start of a day -/

theorem dayOfNumber_calendar (n : Int) : 0 < (dayOfNumber n).month ∧ (dayOfNumber n).month ≤ 12 ∧
    0 < (dayOfNumber n).day ∧ (dayOfNumber n).day ≤ 31 := by
  obtain ⟨y₀, y₁, d₀, d₁, _⟩ := yearOfEra_spec (e := (n + 719468) % 146097)
    (Int.emod_nonneg _ (by decide)) (Int.emod_lt_of_pos _ (by decide))
  rcases parts : yearOfEra ((n + 719468) % 146097) with ⟨y, d⟩
  rw [parts] at y₀ y₁ d₀ d₁
  simp only [dayOfNumber, parts] at y₀ y₁ d₀ d₁ ⊢
  refine ⟨?_, ?_, ?_, ?_⟩ <;> (try split) <;> omega

/-- Where a year is not read as another one, the start of the day is found. -/
theorem utc_dayOfNumber (years : ¬ (0 ≤ (dayOfNumber n).year ∧ (dayOfNumber n).year ≤ 99)) :
    utc (dayOfNumber n) = n * dayMillis := by
  rw [utc, if_neg years]
  exact congrArg (· * dayMillis) (numberOfDay_dayOfNumber n)

theorem lt_of_year (years : (dayOfNumber n).year ≤ 99) : n < -683003 := by
  obtain ⟨m₀, m₁, d₀, d₁⟩ := dayOfNumber_calendar n
  have number := numberOfDay_dayOfNumber n
  rcases dayOfNumber n with ⟨year, month, day⟩
  simp only [numberOfDay] at number years m₀ m₁ d₀ d₁
  split at number <;> omega

/-- Where a year is read as one of the twentieth century, so is the start of the day. -/
theorem utc_of_shifted (years : 0 ≤ (dayOfNumber n).year ∧ (dayOfNumber n).year ≤ 99) :
    ∃ shifted : Int, utc (dayOfNumber n) = shifted * dayMillis ∧ -25567 ≤ shifted ∧
      shifted ≤ 11000 := by
  refine ⟨_, rfl, ?_⟩
  have calendar := dayOfNumber_calendar n
  generalize dayOfNumber n = day at years calendar
  obtain ⟨year, month, day⟩ := day
  obtain ⟨m₀, m₁, d₀, d₁⟩ := calendar
  simp only at years m₀ m₁ d₀ d₁
  simp only [numberOfDay, if_pos years]
  split <;> constructor <;> omega

end Date

end Data
