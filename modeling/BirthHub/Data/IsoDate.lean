import BirthHub.Data.Json

/-!
# Dates and their ISO text

A `Date` of JavaScript is a time value, the milliseconds since the start of 1970, or
invalid. `Date.toISOString` writes a valid one in the proleptic Gregorian calendar, with
four digits for the year, or a sign and six outside of the years 0 to 9999, and throws for
an invalid one. `Date.parse` reads the text back.
-/

namespace Data

/-- The distance from 1970 up to which there are dates. -/
def Date.maxTime : Nat := 8640000000000000

/-- A `Date`; without a time value it is an invalid one. -/
structure Date where
  time : Option Int
  inRange : ∀ t ∈ time, t.natAbs ≤ Date.maxTime
deriving DecidableEq

namespace Date

def invalid : Date := ⟨none, nofun⟩

/-- `new Date(t)`. -/
def ofTime (t : Int) : Date :=
  if bound : t.natAbs ≤ maxTime then ⟨some t, fun _ same => Option.some.inj same ▸ bound⟩
  else invalid

theorem ext_time {d d' : Date} (same : d.time = d'.time) : d = d' := by
  cases d
  cases d'
  cases same
  rfl

theorem ofTime_time {t : Int} (bound : t.natAbs ≤ maxTime) : (ofTime t).time = some t := by
  simp [ofTime, bound]

/-- `date.getTime() <= t`. -/
def atMost (date : Date) (t : Int) : Bool :=
  match date.time with
  | some time => decide (time ≤ t)
  | none => false

/-! ## The calendar -/

structure Day where
  year : Int
  month : Int
  day : Int

/-- The year of the `e`-th day of 400 years that start with March, and the days before it in
that year: centuries, then cycles of four years, then years. -/
def yearOfEra (e : Int) : Int × Int :=
  let c := min (e / 36524) 3
  let q := (e - 36524 * c) / 1461
  let y := min ((e - 36524 * c - 1461 * q) / 365) 3
  (100 * c + 4 * q + y, e - 36524 * c - 1461 * q - 365 * y)

/-- The day that lies `n` days after 1 January 1970. -/
def dayOfNumber (n : Int) : Day :=
  let (y, d) := yearOfEra ((n + 719468) % 146097)
  let m := (5 * d + 2) / 153
  { year := y + (n + 719468) / 146097 * 400 + (if m < 10 then 0 else 1)
    month := if m < 10 then m + 3 else m - 9
    day := d - (153 * m + 2) / 5 + 1 }

/-- How many days a day lies after 1 January 1970. -/
def numberOfDay (day : Day) : Int :=
  let y := day.year - (if day.month ≤ 2 then 1 else 0)
  let m := if day.month ≤ 2 then day.month + 9 else day.month - 3
  let e := y % 400
  y / 400 * 146097 + (e * 365 + e / 4 - e / 100 + ((153 * m + 2) / 5 + day.day - 1)) - 719468

theorem yearOfEra_spec {e : Int} (first : 0 ≤ e) (last : e < 146097) :
    0 ≤ (yearOfEra e).1 ∧ (yearOfEra e).1 < 400 ∧ 0 ≤ (yearOfEra e).2 ∧ (yearOfEra e).2 < 366 ∧
      (yearOfEra e).1 * 365 + (yearOfEra e).1 / 4 - (yearOfEra e).1 / 100 + (yearOfEra e).2 = e := by
  simp only [yearOfEra]
  obtain ⟨c, century⟩ : ∃ c, min (e / 36524) 3 = c := ⟨_, rfl⟩
  rw [century]
  have c₀ : 0 ≤ c ∧ c ≤ 3 ∧ 0 ≤ e - 36524 * c ∧ e - 36524 * c < 36525 := by omega
  obtain ⟨r, rest⟩ : ∃ r, e - 36524 * c = r := ⟨_, rfl⟩
  rw [rest] at c₀ ⊢
  obtain ⟨q, cycle⟩ : ∃ q, r / 1461 = q := ⟨_, rfl⟩
  rw [cycle]
  have q₀ : 0 ≤ q ∧ q ≤ 24 ∧ 0 ≤ r - 1461 * q ∧ r - 1461 * q < 1461 := by omega
  obtain ⟨y, year⟩ : ∃ y, min ((r - 1461 * q) / 365) 3 = y := ⟨_, rfl⟩
  rw [year]
  have y₀ : 0 ≤ y ∧ y ≤ 3 ∧ 0 ≤ r - 1461 * q - 365 * y ∧ r - 1461 * q - 365 * y < 366 := by omega
  have leaps : (100 * c + 4 * q + y) / 4 = 25 * c + q ∧ (100 * c + 4 * q + y) / 100 = c := by
    have short : 4 * q + y < 100 := by omega
    omega
  rw [leaps.1, leaps.2]
  omega

theorem numberOfDay_dayOfNumber (n : Int) : numberOfDay (dayOfNumber n) = n := by
  obtain ⟨y₀, y₁, d₀, d₁, whole⟩ := yearOfEra_spec (e := (n + 719468) % 146097)
    (Int.emod_nonneg _ (by decide)) (Int.emod_lt_of_pos _ (by decide))
  rcases parts : yearOfEra ((n + 719468) % 146097) with ⟨y, d⟩
  rw [parts] at y₀ y₁ d₀ d₁ whole
  simp only [dayOfNumber, parts, numberOfDay] at y₀ y₁ d₀ d₁ whole ⊢
  obtain ⟨m, month⟩ : ∃ m, (5 * d + 2) / 153 = m := ⟨_, rfl⟩
  rw [month]
  by_cases early : m < 10
  · have spring : ¬ m + 3 ≤ 2 := by omega
    simp only [early, spring, if_true, if_false]
    have era : (y + (n + 719468) / 146097 * 400 + 0 - 0) % 400 = y ∧
        (y + (n + 719468) / 146097 * 400 + 0 - 0) / 400 = (n + 719468) / 146097 := by omega
    rw [era.1, era.2]
    omega
  · have winter : m - 9 ≤ 2 := by omega
    simp only [early, winter, if_true, if_false]
    have era : (y + (n + 719468) / 146097 * 400 + 1 - 1) % 400 = y ∧
        (y + (n + 719468) / 146097 * 400 + 1 - 1) / 400 = (n + 719468) / 146097 := by omega
    rw [era.1, era.2]
    omega

/-! ## The text -/

/-- The last decimal digit of a number. -/
def digit (n : Nat) : Char := Char.ofNat (48 + n % 10)

def two (n : Nat) : List Char := [digit (n / 10), digit n]

def three (n : Nat) : List Char := digit (n / 100) :: two n

def four (n : Nat) : List Char := digit (n / 1000) :: three n

def six (n : Nat) : List Char := digit (n / 100000) :: digit (n / 10000) :: four n

def yearText (year : Int) : List Char :=
  if 0 ≤ year ∧ year ≤ 9999 then four year.toNat
  else (if year < 0 then '-' else '+') :: six year.natAbs

/-- The text of the time value `t`. -/
def isoText (t : Int) : List Char :=
  let day := dayOfNumber (t / 86400000)
  let ms := (t % 86400000).toNat
  yearText day.year ++ ('-' :: two day.month.toNat ++ '-' :: two day.day.toNat ++
    'T' :: two (ms / 3600000) ++ ':' :: two (ms / 60000 % 60) ++ ':' :: two (ms / 1000 % 60) ++
    '.' :: three (ms % 1000) ++ ['Z'])

/-- `date.toISOString()`; an invalid date throws. -/
def toISOString (date : Date) : Option String := date.time.map fun t => String.ofList (isoText t)

/-- The time value of a text after its year. -/
def readDay (year : Int) : List Char → Option Int
  | ['-', m₁, m₂, '-', d₁, d₂, 'T', h₁, h₂, ':', n₁, n₂, ':', s₁, s₂, '.', f₁, f₂, f₃, 'Z'] =>
      some (numberOfDay ⟨year, Number.ofDigits [m₁, m₂], Number.ofDigits [d₁, d₂]⟩ * 86400000 +
        Number.ofDigits [h₁, h₂] * 3600000 + Number.ofDigits [n₁, n₂] * 60000 +
        Number.ofDigits [s₁, s₂] * 1000 + Number.ofDigits [f₁, f₂, f₃])
  | _ => none

def readTime : List Char → Option Int
  | '-' :: a :: b :: c :: d :: e :: f :: text =>
      readDay (-Number.ofDigits [a, b, c, d, e, f]) text
  | '+' :: a :: b :: c :: d :: e :: f :: text => readDay (Number.ofDigits [a, b, c, d, e, f]) text
  | a :: b :: c :: d :: text => readDay (Number.ofDigits [a, b, c, d]) text
  | _ => none

/-- `new Date(text)` of a text that `toISOString` may write; another text is no date here. -/
def parse (text : String) : Date :=
  match readTime text.toList with
  | some t => if isoText t = text.toList then ofTime t else invalid
  | none => invalid

theorem digit_toNat (n : Nat) : (digit n).toNat - 48 = n % 10 := by
  have small : n % 10 < 10 := Nat.mod_lt _ (by decide)
  unfold digit
  generalize n % 10 = k at small ⊢
  interval_cases k <;> rfl

theorem ofDigits_two {n : Nat} (bound : n < 100) : Number.ofDigits (two n) = n := by
  simp only [two, Number.ofDigits, List.foldl, digit_toNat]
  omega

theorem ofDigits_three {n : Nat} (bound : n < 1000) : Number.ofDigits (three n) = n := by
  simp only [three, two, Number.ofDigits, List.foldl, digit_toNat]
  omega

theorem ofDigits_four {n : Nat} (bound : n < 10000) : Number.ofDigits (four n) = n := by
  simp only [four, three, two, Number.ofDigits, List.foldl, digit_toNat]
  omega

theorem ofDigits_six {n : Nat} (bound : n < 1000000) : Number.ofDigits (six n) = n := by
  simp only [six, four, three, two, Number.ofDigits, List.foldl, digit_toNat]
  omega

/-- A day of the calendar, the year that a date may have, and its month and day. -/
theorem dayOfNumber_bounds {t : Int} (bound : t.natAbs ≤ maxTime) :
    (dayOfNumber (t / 86400000)).year.natAbs < 1000000 ∧
      0 < (dayOfNumber (t / 86400000)).month ∧ (dayOfNumber (t / 86400000)).month ≤ 12 ∧
      0 < (dayOfNumber (t / 86400000)).day ∧ (dayOfNumber (t / 86400000)).day ≤ 31 := by
  have days : -100000000 ≤ t / 86400000 ∧ t / 86400000 ≤ 100000000 := by
    simp only [maxTime] at bound
    omega
  generalize t / 86400000 = n at days
  obtain ⟨y₀, y₁, d₀, d₁, _⟩ := yearOfEra_spec (e := (n + 719468) % 146097)
    (Int.emod_nonneg _ (by decide)) (Int.emod_lt_of_pos _ (by decide))
  rcases parts : yearOfEra ((n + 719468) % 146097) with ⟨y, d⟩
  rw [parts] at y₀ y₁ d₀ d₁
  simp only [dayOfNumber, parts] at y₀ y₁ d₀ d₁ ⊢
  refine ⟨?_, ?_, ?_, ?_, ?_⟩ <;> (try split) <;> omega

theorem readDay_text {year : Int} {m d h n s f : Nat} (month : m < 100) (day : d < 100)
    (hour : h < 100) (minute : n < 100) (second : s < 100) (milli : f < 1000) :
    readDay year ('-' :: two m ++ '-' :: two d ++ 'T' :: two h ++ ':' :: two n ++ ':' :: two s ++
      '.' :: three f ++ ['Z']) =
      some (numberOfDay ⟨year, m, d⟩ * 86400000 + h * 3600000 + n * 60000 + s * 1000 + f) := by
  have read : readDay year ('-' :: two m ++ '-' :: two d ++ 'T' :: two h ++ ':' :: two n ++
      ':' :: two s ++ '.' :: three f ++ ['Z']) =
      some (numberOfDay ⟨year, Number.ofDigits (two m), Number.ofDigits (two d)⟩ * 86400000 +
        Number.ofDigits (two h) * 3600000 + Number.ofDigits (two n) * 60000 +
        Number.ofDigits (two s) * 1000 + Number.ofDigits (three f)) := rfl
  rw [read, ofDigits_two month, ofDigits_two day, ofDigits_two hour, ofDigits_two minute,
    ofDigits_two second, ofDigits_three milli]

theorem readTime_short {a b c d : Char} {text : List Char} (unsigned : a.isDigit = true) :
    readTime (a :: b :: c :: d :: text) = readDay (Number.ofDigits [a, b, c, d]) text := by
  rw [readTime]
  · intro e f g text' minus
    subst minus
    cases unsigned
  · intro e f g text' plus
    subst plus
    cases unsigned

theorem digit_isDigit (n : Nat) : (digit n).isDigit = true := by
  have small : n % 10 < 10 := Nat.mod_lt _ (by decide)
  unfold digit
  generalize n % 10 = k at small ⊢
  interval_cases k <;> rfl

theorem readTime_yearText {year : Int} (bound : year.natAbs < 1000000) {text : List Char} :
    readTime (yearText year ++ text) = readDay year text := by
  unfold yearText
  split
  · rename_i short
    have value : ((Number.ofDigits (four year.toNat) : Nat) : Int) = year := by
      rw [ofDigits_four (by omega)]
      omega
    refine (readTime_short (digit_isDigit _)).trans ?_
    exact congrArg (readDay · text) value
  · have value : Number.ofDigits (six year.natAbs) = year.natAbs := ofDigits_six bound
    split
    · have negative : -((Number.ofDigits (six year.natAbs) : Nat) : Int) = year := by
        rw [value]
        omega
      exact congrArg (readDay · text) negative
    · have positive : ((Number.ofDigits (six year.natAbs) : Nat) : Int) = year := by
        rw [value]
        omega
      exact congrArg (readDay · text) positive

theorem readTime_isoText {t : Int} (bound : t.natAbs ≤ maxTime) : readTime (isoText t) = some t := by
  obtain ⟨year, month, month', day, day'⟩ := dayOfNumber_bounds bound
  have number := numberOfDay_dayOfNumber (t / 86400000)
  unfold isoText
  rw [readTime_yearText year, readDay_text (by omega) (by omega) (by omega) (by omega) (by omega)
    (by omega)]
  have parts : (⟨(dayOfNumber (t / 86400000)).year, ((dayOfNumber (t / 86400000)).month.toNat : Int),
      ((dayOfNumber (t / 86400000)).day.toNat : Int)⟩ : Day) = dayOfNumber (t / 86400000) := by
    rw [Int.toNat_of_nonneg (by omega), Int.toNat_of_nonneg (by omega)]
  rw [parts, number]
  congr 1
  omega

theorem parse_toISOString {date : Date} {text : String} (printed : date.toISOString = some text) :
    parse text = date := by
  obtain ⟨t, valid, rfl⟩ := Option.map_eq_some_iff.mp printed
  have bound := date.inRange t valid
  refine ext_time ?_
  simp [parse, readTime_isoText bound, ofTime_time bound, valid]

theorem toISOString_isSome {date : Date} : date.toISOString.isSome = date.time.isSome := by
  simp [toISOString]

theorem toISOString_ne_empty {date : Date} {text : String} (printed : date.toISOString = some text) :
    text ≠ "" := by
  rintro rfl
  obtain ⟨t, -, empty⟩ := Option.map_eq_some_iff.mp printed
  have chars : isoText t = [] := by simpa using congrArg String.toList empty
  simp [isoText] at chars

end Date

end Data
