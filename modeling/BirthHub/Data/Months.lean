import BirthHub.Data.IsoDate

/-!
# Months

The months of the calendar are numbered in a row, twelve for each year. A time value lies
between the first day of its month and the first day of the next one, so that the month of a
time never decreases.
-/

namespace Data

namespace Date

/-- `date.getUTCFullYear()` of a time value. -/
def getUTCFullYear (t : Int) : Int := (dayOfNumber (t / 86400000)).year

/-- `date.getUTCMonth()` of a time value, from 0 for January. -/
def getUTCMonth (t : Int) : Int := (dayOfNumber (t / 86400000)).month - 1

/-- `Date.UTC(year, month, 1)` for a year from 100 on; the month may be out of its year. -/
def firstOfMonth (year month : Int) : Int :=
  numberOfDay ⟨year + month / 12, month % 12 + 1, 1⟩ * 86400000

/-- The number of the month of a time value. -/
def monthOf (t : Int) : Int := getUTCFullYear t * 12 + getUTCMonth t

/-- The day on which a month starts. -/
def monthStart (k : Int) : Int := numberOfDay ⟨k / 12, k % 12 + 1, 1⟩

theorem firstOfMonth_eq (year month : Int) :
    firstOfMonth year month = monthStart (year * 12 + month) * 86400000 := by
  have same : (year * 12 + month) / 12 = year + month / 12 ∧ (year * 12 + month) % 12 = month % 12 := by
    omega
  rw [firstOfMonth, monthStart, same.1, same.2]

theorem monthStart_lt_succ (k : Int) : monthStart k < monthStart (k + 1) := by
  have parts : (k % 12 < 11 ∧ (k + 1) / 12 = k / 12 ∧ (k + 1) % 12 = k % 12 + 1) ∨
      (k % 12 = 11 ∧ (k + 1) / 12 = k / 12 + 1 ∧ (k + 1) % 12 = 0) := by omega
  have month : 0 ≤ k % 12 := Int.emod_nonneg _ (by decide)
  simp only [monthStart, numberOfDay]
  rcases parts with ⟨inside, year, next⟩ | ⟨last, year, next⟩
  · rw [year, next]
    generalize k / 12 = y at *
    generalize k % 12 = m at *
    split <;> split <;> omega
  · rw [year, next, last]
    norm_num

theorem monthStart_strictMono : StrictMono monthStart :=
  strictMono_int_of_lt_succ monthStart_lt_succ

theorem yearOfEra_lt {e : Int} (first : 0 ≤ e) (last : e < 146097) (year : (yearOfEra e).1 < 399) :
    e < ((yearOfEra e).1 + 1) * 365 + ((yearOfEra e).1 + 1) / 4 - ((yearOfEra e).1 + 1) / 100 := by
  simp only [yearOfEra] at year ⊢
  obtain ⟨c, century⟩ : ∃ c, min (e / 36524) 3 = c := ⟨_, rfl⟩
  rw [century] at year ⊢
  have c₀ : 0 ≤ c ∧ c ≤ 3 ∧ 0 ≤ e - 36524 * c ∧ e - 36524 * c < 36525 ∧
      (c < 3 → e - 36524 * c < 36524) := by omega
  obtain ⟨r, rest⟩ : ∃ r, e - 36524 * c = r := ⟨_, rfl⟩
  rw [rest] at c₀ year ⊢
  obtain ⟨q, cycle⟩ : ∃ q, r / 1461 = q := ⟨_, rfl⟩
  rw [cycle] at year ⊢
  have q₀ : 0 ≤ q ∧ q ≤ 24 ∧ 0 ≤ r - 1461 * q ∧ r - 1461 * q < 1461 := by omega
  obtain ⟨y, years⟩ : ∃ y, min ((r - 1461 * q) / 365) 3 = y := ⟨_, rfl⟩
  rw [years] at year ⊢
  have y₀ : 0 ≤ y ∧ y ≤ 3 ∧ (y < 3 → r - 1461 * q - 365 * y < 365) ∧
      r - 1461 * q - 365 * y < 366 := by omega
  have whole : e = 36524 * c + r := by omega
  rcases lt_or_eq_of_le y₀.2.1 with short | rfl
  · have leaps : (100 * c + 4 * q + y + 1) / 4 = 25 * c + q ∧ (100 * c + 4 * q + y + 1) / 100 = c := by
      omega
    rw [leaps.1, leaps.2]
    omega
  · rcases lt_or_eq_of_le q₀.2.1 with inside | rfl
    · have leaps : (100 * c + 4 * q + 3 + 1) / 4 = 25 * c + q + 1 ∧
          (100 * c + 4 * q + 3 + 1) / 100 = c := by omega
      rw [leaps.1, leaps.2]
      omega
    · have leaps : (100 * c + 4 * 24 + 3 + 1) / 4 = 25 * c + 25 ∧
          (100 * c + 4 * 24 + 3 + 1) / 100 = c + 1 := by omega
      rw [leaps.1, leaps.2]
      omega

/-- The day of the year from March on, and the number of the month from March on. -/
theorem dayOfNumber_parts (n : Int) : ∃ y d m E : Int,
    0 ≤ y ∧ y < 400 ∧ 0 ≤ d ∧ d < 366 ∧ m = (5 * d + 2) / 153 ∧
      (y < 399 → y * 365 + y / 4 - y / 100 + d < (y + 1) * 365 + (y + 1) / 4 - (y + 1) / 100) ∧
      y * 365 + y / 4 - y / 100 + d < 146097 ∧
      n = E * 146097 + (y * 365 + y / 4 - y / 100) + d - 719468 ∧
      (dayOfNumber n).year = y + E * 400 + (if m < 10 then 0 else 1) ∧
      (dayOfNumber n).month = (if m < 10 then m + 3 else m - 9) := by
  have first := Int.emod_nonneg (n + 719468) (b := 146097) (by decide)
  have last := Int.emod_lt_of_pos (n + 719468) (b := 146097) (by decide)
  obtain ⟨y₀, y₁, d₀, d₁, whole⟩ := yearOfEra_spec first last
  have next := yearOfEra_lt first last
  rcases parts : yearOfEra ((n + 719468) % 146097) with ⟨y, d⟩
  rw [parts] at y₀ y₁ d₀ d₁ whole next
  dsimp only at y₀ y₁ d₀ d₁ whole next
  refine ⟨y, d, (5 * d + 2) / 153, (n + 719468) / 146097, y₀, y₁, d₀, d₁, rfl, fun short => ?_,
    ?_, ?_, ?_, ?_⟩
  · have less := next short
    omega
  · omega
  · omega
  · simp only [dayOfNumber, parts]
  · simp only [dayOfNumber, parts]

/-- The number of a month that is given from March on. -/
def marchMonth (y m E : Int) : Int :=
  (y + E * 400 + (if m < 10 then 0 else 1)) * 12 + ((if m < 10 then m + 3 else m - 9) - 1)

theorem monthStart_march {y m E : Int} (year : 0 ≤ y ∧ y < 400) (month : 0 ≤ m ∧ m ≤ 11) :
    monthStart (marchMonth y m E) =
      E * 146097 + (y * 365 + y / 4 - y / 100) + (153 * m + 2) / 5 - 719468 := by
  simp only [monthStart, marchMonth, numberOfDay]
  by_cases early : m < 10
  · simp only [early, if_true]
    have first : ((y + E * 400 + 0) * 12 + (m + 3 - 1)) / 12 = y + E * 400 := by omega
    have second : ((y + E * 400 + 0) * 12 + (m + 3 - 1)) % 12 + 1 = m + 3 := by omega
    have spring : ¬ m + 3 ≤ 2 := by omega
    simp only [first, second, spring, if_false]
    have era : (y + E * 400 - 0) % 400 = y ∧ (y + E * 400 - 0) / 400 = E := by omega
    rw [era.1, era.2]
    omega
  · simp only [early, if_false]
    have first : ((y + E * 400 + 1) * 12 + (m - 9 - 1)) / 12 = y + E * 400 + 1 := by omega
    have second : ((y + E * 400 + 1) * 12 + (m - 9 - 1)) % 12 + 1 = m - 9 := by omega
    have winter : m - 9 ≤ 2 := by omega
    simp only [first, second, winter, if_true]
    have era : (y + E * 400 + 1 - 1) % 400 = y ∧ (y + E * 400 + 1 - 1) / 400 = E := by omega
    rw [era.1, era.2]
    omega

theorem monthStart_dayOfNumber (n : Int) :
    monthStart ((dayOfNumber n).year * 12 + ((dayOfNumber n).month - 1)) ≤ n ∧
      n < monthStart ((dayOfNumber n).year * 12 + ((dayOfNumber n).month - 1) + 1) := by
  obtain ⟨y, d, m, E, y₀, y₁, d₀, d₁, march, next, era, whole, year, month⟩ := dayOfNumber_parts n
  have months : 0 ≤ m ∧ m ≤ 11 := by omega
  rw [year, month, ← marchMonth, monthStart_march ⟨y₀, y₁⟩ months]
  refine ⟨by omega, ?_⟩
  rcases lt_or_eq_of_le months.2 with inside | rfl
  · have succ : marchMonth y m E + 1 = marchMonth y (m + 1) E := by
      simp only [marchMonth]
      split <;> split <;> omega
    rw [succ, monthStart_march ⟨y₀, y₁⟩ (by omega)]
    omega
  · rcases lt_or_eq_of_le (show y ≤ 399 by omega) with inside | rfl
    · have succ : marchMonth y 11 E + 1 = marchMonth (y + 1) 0 E := by
        simp only [marchMonth]
        norm_num
        omega
      rw [succ, monthStart_march (by omega) (by omega)]
      have short := next inside
      omega
    · have succ : marchMonth 399 11 E + 1 = marchMonth 0 0 (E + 1) := by
        simp only [marchMonth]
        norm_num
        omega
      rw [succ, monthStart_march (by omega) (by omega)]
      omega

theorem monthOf_mono {t t' : Int} (later : t ≤ t') : monthOf t ≤ monthOf t' := by
  by_contra before
  have next : monthOf t' + 1 ≤ monthOf t := by omega
  have starts := monthStart_strictMono.monotone next
  have first := (monthStart_dayOfNumber (t / 86400000)).1
  have second := (monthStart_dayOfNumber (t' / 86400000)).2
  simp only [monthOf, getUTCFullYear, getUTCMonth] at starts
  omega

theorem getUTCMonth_bounds (t : Int) : 0 ≤ getUTCMonth t ∧ getUTCMonth t ≤ 11 := by
  obtain ⟨y, d, m, E, -, -, d₀, d₁, march, -, -, -, -, month⟩ := dayOfNumber_parts (t / 86400000)
  rw [getUTCMonth, month]
  split <;> omega

end Date

end Data
