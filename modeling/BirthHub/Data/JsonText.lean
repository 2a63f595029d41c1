import BirthHub.Data.Json

/-!
# What a JSON text denotes

`Json.meaning` is the value that a JavaScript value has in JSON, where numbers are equal
when they are the same number and those that are not finite are `null`. `Json.read`
reads a text that `Json.stringify` writes, and finds the meaning of what was written; so
two values with one text have one meaning.
-/

namespace Data

/-- The value of a JSON text. -/
inductive Value
  | null
  | bool (b : Bool)
  | number (q : ℚ)
  | string (s : String)
  | array (items : List Value)
  | object (members : List (String × Value))

/-! ## Numbers -/

namespace Number

/-- The number itself, if it is finite. -/
def value : Number → Option ℚ
  | .finite negative digits exponent =>
      some ((if negative then -1 else 1) * digits * (10 : ℚ) ^ exponent)
  | _ => none

theorem ofDigits_append {w f : List Char} :
    ofDigits (w ++ f) = ofDigits w * 10 ^ f.length + ofDigits f := by
  have same (l : List Char) (n : Nat) :
      l.foldl (fun n c => 10 * n + (c.toNat - 48)) n = Nat.ofDigitChars 10 l n := rfl
  simp only [ofDigits, same, Nat.ofDigitChars_append]
  rw [Nat.ofDigitChars_eq_ofDigitChars_zero, Nat.mul_comm]

theorem ofDigits_zeros {n : Nat} : ofDigits (List.replicate n '0') = 0 := by
  have same : ofDigits (List.replicate n '0') =
      Nat.ofDigitChars 10 (List.replicate n '0') 0 := rfl
  rw [same, Nat.ofDigitChars_replicate_zero, Nat.mul_zero]

theorem stripZeros_value {fuel digits : Nat} {exponent : Int} :
    ((stripZeros fuel digits exponent).1 : ℚ) * (10 : ℚ) ^ (stripZeros fuel digits exponent).2 =
      digits * (10 : ℚ) ^ exponent := by
  induction fuel generalizing digits exponent with
  | zero => rfl
  | succ fuel ih =>
      simp only [stripZeros]
      split
      · rename_i ends
        rw [ih, zpow_add_one₀ (by norm_num)]
        have split : digits = digits / 10 * 10 := by omega
        have cast : (digits : ℚ) = (digits / 10 : Nat) * 10 := by exact_mod_cast split
        rw [cast]
        ring
      · rfl

/-- A decimal literal of digits `w`, a fraction `f` and the exponent that `x` spells. -/
theorem decimal_literal {negative : Bool} {w f x : List Char} {e : Int}
    (whole : ∀ c ∈ w, c.isDigit = true) (nonempty : w ≠ [])
    (fraction : ∀ c ∈ f, c.isDigit = true)
    (stop : ∀ c ∈ x.head?, c.isDigit = false) (spells : exponentPart x = some e) :
    decimal negative (w ++ ((if f = [] then [] else '.' :: f) ++ x)) =
      .finite negative (ofDigits (w ++ f)) (e - f.length) := by
  have taken (l r : List Char) (digits : ∀ c ∈ l, c.isDigit = true)
      (stop : ∀ c ∈ r.head?, c.isDigit = false) :
      (l ++ r).takeWhile Char.isDigit = l ∧ (l ++ r).dropWhile Char.isDigit = r := by
    rw [List.takeWhile_append_of_pos digits, List.dropWhile_append_of_pos digits]
    cases r with
    | nil => simp
    | cons c r => simp [stop c (by simp)]
  have finite : w ++ ((if f = [] then [] else '.' :: f) ++ x) ≠ "Infinity".toList := by
    intro equal
    cases w with
    | nil => exact nonempty rfl
    | cons c w =>
        have first := (List.cons.inj equal).1
        have digit := whole c List.mem_cons_self
        rw [first] at digit
        cases digit
  unfold decimal
  rw [if_neg finite]
  by_cases none : f = []
  · subst none
    have parts := taken w x whole stop
    have noPoint : ∀ rest, x ≠ '.' :: rest := by
      rintro rest rfl
      simp [exponentPart] at spells
    simp [parts, spells, nonempty]
  · have parts := taken w ('.' :: f ++ x) whole (by simp)
    have parts' := taken f x fraction stop
    rw [List.cons_append] at parts
    simp [none, parts, parts', spells, nonempty]

/-- The characters of a number. -/
def isNumeric (c : Char) : Bool :=
  c.isDigit || c == '-' || c == '+' || c == '.' || c == 'e'

/-- A text is a decimal literal of the number `q`. -/
def Spells (text : List Char) (q : ℚ) : Prop :=
  ∃ w f x e, text = w ++ ((if f = [] then [] else '.' :: f) ++ x) ∧
    (∀ c ∈ w, c.isDigit = true) ∧ w ≠ [] ∧ (∀ c ∈ f, c.isDigit = true) ∧
    (∀ c ∈ x.head?, c.isDigit = false) ∧ exponentPart x = some e ∧
    (∀ c ∈ x, isNumeric c = true) ∧ (ofDigits (w ++ f) : ℚ) * (10 : ℚ) ^ (e - f.length) = q

theorem toString_digits {n : Nat} :
    (∀ c ∈ (ToString.toString n).toList, c.isDigit = true) ∧ (ToString.toString n).toList ≠ [] ∧
      ofDigits (ToString.toString n).toList = n := by
  rw [show (ToString.toString n).toList = Nat.toDigits 10 n from Nat.toList_repr]
  exact ⟨fun c inside => Nat.isDigit_of_mem_toDigits (by norm_num) (by norm_num) inside,
    Nat.toDigits_ne_nil, Nat.ofDigitChars_ten_toDigits⟩

theorem exponentPart_e {n : Int} :
    exponentPart ('e' :: ((if n < 0 then "-" else "+").toList ++
      (ToString.toString n.natAbs).toList)) = some n := by
  obtain ⟨digit, some, number⟩ := toString_digits (n := n.natAbs)
  generalize (ToString.toString n.natAbs).toList = ds at digit some number
  have all : ds.all Char.isDigit = true := List.all_eq_true.mpr digit
  by_cases below : n < 0
  · have signed : exponentPart ('e' :: '-' :: ds) = .some (-(ofDigits ds : Int)) := by
      simp [exponentPart, some, all]
    rw [if_pos below]
    refine signed.trans (congrArg Option.some ?_)
    omega
  · have signed : exponentPart ('e' :: '+' :: ds) = .some (ofDigits ds : Int) := by
      simp [exponentPart, some, all]
    rw [if_neg below]
    refine signed.trans (congrArg Option.some ?_)
    omega

/-- The digits of `layout`, wherever it puts the decimal point, spell the number. -/
theorem layout_spells {digits : Nat} {exponent : Int} :
    Spells (layout digits exponent).toList (digits * (10 : ℚ) ^ exponent) := by
  have ten : (10 : ℚ) ≠ 0 := by norm_num
  obtain ⟨digit, some, number⟩ := toString_digits (n := digits)
  have zero (n : Nat) : ∀ c ∈ List.replicate n '0', c.isDigit = true := by
    intro c inside
    rw [List.eq_of_mem_replicate inside]
    rfl
  unfold layout
  simp only [← String.length_toList]
  generalize ToString.toString digits = s at digit some number
  have long : 0 < s.toList.length := List.length_pos_iff.mpr some
  split
  · -- the number is whole
    rename_i whole
    refine ⟨s.toList ++ List.replicate (s.toList.length + exponent - s.toList.length).toNat '0', [],
      [], 0, by simp [zeros], ?_, by simp [some], by simp, by simp, rfl, by simp, ?_⟩
    · intro c inside
      exact (List.mem_append.mp inside).elim (digit c) (zero _ c)
    · rw [List.append_nil, ofDigits_append, number, ofDigits_zeros, List.length_replicate]
      have places : ((s.toList.length + exponent - s.toList.length).toNat : Int) = exponent := by
        omega
      generalize (s.toList.length + exponent - s.toList.length).toNat = n at places
      rw [← places]
      simp
  split
  · -- the decimal point is between two digits
    rename_i _ inside
    have fraction : s.toList.drop (s.toList.length + exponent).toNat ≠ [] := by
      rw [ne_eq, List.drop_eq_nil_iff]
      omega
    refine ⟨s.toList.take (s.toList.length + exponent).toNat,
      s.toList.drop (s.toList.length + exponent).toNat, [], 0,
      by simp [fraction], fun c first => digit c (List.mem_of_mem_take first), ?_,
      fun c last => digit c (List.mem_of_mem_drop last), by simp, rfl, by simp, ?_⟩
    · rw [ne_eq, List.take_eq_nil_iff, not_or]
      exact ⟨by omega, some⟩
    · rw [List.take_append_drop, number, List.length_drop]
      congr 2
      omega
  split
  · -- the decimal point is before all digits
    rename_i _ _ before
    refine ⟨['0'], List.replicate (-(s.toList.length + exponent)).toNat '0' ++ s.toList, [], 0,
      by simp [zeros, some], by simp, by simp, ?_, by simp, rfl, by simp, ?_⟩
    · intro c inside
      exact (List.mem_append.mp inside).elim (zero _ c) (digit c)
    · have leading : ofDigits (['0'] ++ (List.replicate (-(s.toList.length + exponent)).toNat '0' ++
          s.toList)) = ofDigits s.toList := by
        rw [ofDigits_append, ofDigits_append, ofDigits_zeros]
        simp [ofDigits]
      rw [leading, number, List.length_append, List.length_replicate]
      congr 2
      omega
  · -- one digit is before the decimal point
    refine ⟨s.toList.take 1, s.toList.drop 1, 'e' :: ((if s.toList.length + exponent - 1 < 0 then "-"
      else "+").toList ++ (ToString.toString (s.toList.length + exponent - 1).natAbs).toList),
      s.toList.length + exponent - 1, ?_, fun c first => digit c (List.mem_of_mem_take first), ?_,
      fun c last => digit c (List.mem_of_mem_drop last), by simp, exponentPart_e, ?_, ?_⟩
    · by_cases one : s.toList.length = 1
      · have whole : s.toList.take 1 = s.toList := by rw [← one, List.take_length]
        have fraction : s.toList.drop 1 = [] := by rw [← one, List.drop_length]
        simp [one, whole, fraction]
      · have fraction : s.toList.tail ≠ [] := by
          rw [ne_eq, ← List.drop_one, List.drop_eq_nil_iff]
          omega
        simp [one, fraction]
    · rw [ne_eq, List.take_eq_nil_iff, not_or]
      exact ⟨by omega, some⟩
    · have sign : ∀ c ∈ (if s.toList.length + exponent - 1 < 0 then "-" else "+").toList,
          isNumeric c = true := by
        split <;> simp [isNumeric]
      have places := (toString_digits (n := (s.toList.length + exponent - 1).natAbs)).1
      intro c inside
      rcases List.mem_cons.mp inside with rfl | inside
      · decide
      · rcases List.mem_append.mp inside with first | last
        · exact sign c first
        · simp [isNumeric, places c last]
    · rw [List.take_append_drop, number, List.length_drop]
      congr 2
      omega

theorem Spells.decimal {text : List Char} {q : ℚ} (spells : Spells text q) (negative : Bool) :
    (Number.decimal negative text).value = some ((if negative then -1 else 1) * q) := by
  obtain ⟨w, f, x, e, rfl, whole, nonempty, fraction, stop, exponent, _, number⟩ := spells
  rw [decimal_literal whole nonempty fraction stop exponent, value, mul_assoc, number]

theorem isNumeric_of_isDigit {c : Char} (digit : c.isDigit = true) : isNumeric c = true := by
  simp [isNumeric, digit]

/-- A decimal literal starts with a digit and has the characters of a number only. -/
theorem Spells.numeric {text : List Char} {q : ℚ} (spells : Spells text q) :
    (∃ c rest, text = c :: rest ∧ c.isDigit = true) ∧ ∀ c ∈ text, isNumeric c = true := by
  obtain ⟨w, f, x, e, rfl, whole, nonempty, fraction, _, _, exponent, _⟩ := spells
  constructor
  · cases w with
    | nil => exact (nonempty rfl).elim
    | cons c w => exact ⟨c, _, rfl, whole c List.mem_cons_self⟩
  · intro c inside
    rcases List.mem_append.mp inside with first | inside
    · exact isNumeric_of_isDigit (whole c first)
    rcases List.mem_append.mp inside with point | last
    · split at point
      · cases point
      · rcases List.mem_cons.mp point with rfl | digit
        · decide
        · exact isNumeric_of_isDigit (fraction c digit)
    · exact exponent c last

/-- What `String(n)` prints of a finite number is the number again. -/
theorem toString_spells {n : Number} {q : ℚ} (finite : n.value = some q) :
    ∃ (negative : Bool) (text : List Char) (q' : ℚ),
      n.toString.toList = (if negative then ['-'] else []) ++ text ∧ Spells text q' ∧
        (if negative then -1 else 1) * q' = q := by
  cases n with
  | infinite | nan => cases finite
  | finite negative digits exponent =>
      obtain rfl := Option.some.inj finite
      by_cases zero : digits = 0
      · refine ⟨false, ['0'], 0, by simp [toString, zero], ?_, by simp [zero]⟩
        exact ⟨['0'], [], [], 0, rfl, by simp, by simp, by simp, by simp, rfl, by simp,
          by simp [ofDigits]⟩
      · have spells := @layout_spells (stripZeros digits digits exponent).1
          (stripZeros digits digits exponent).2
        refine ⟨negative, _, _, ?_, spells, ?_⟩
        · cases negative <;> simp [toString, zero]
        · rw [stripZeros_value, mul_assoc]

/-- `JSON.parse` of a number, and the rest of the text. -/
def read (text : List Char) : Option (ℚ × List Char) :=
  let number :=
    match text.takeWhile isNumeric with
    | '-' :: text => decimal true text
    | text => decimal false text
  number.value.map (·, text.dropWhile isNumeric)

theorem read_toString {n : Number} {q : ℚ} (finite : n.value = some q) {rest : List Char}
    (stop : ∀ c ∈ rest.head?, isNumeric c = false) :
    read (n.toString.toList ++ rest) = some (q, rest) := by
  obtain ⟨negative, text, q', printed, spells, rfl⟩ := toString_spells finite
  obtain ⟨⟨d, digits, start, digit⟩, numeric⟩ := spells.numeric
  have all : ∀ c ∈ n.toString.toList, isNumeric c = true := by
    rw [printed]
    intro c inside
    rcases List.mem_append.mp inside with sign | inside
    · cases negative <;> simp at sign
      subst sign
      decide
    · exact numeric c inside
  have parts : (n.toString.toList ++ rest).takeWhile isNumeric = n.toString.toList ∧
      (n.toString.toList ++ rest).dropWhile isNumeric = rest := by
    rw [List.takeWhile_append_of_pos all, List.dropWhile_append_of_pos all]
    cases rest with
    | nil => simp
    | cons c rest => simp [stop c (by simp)]
  rw [read, parts.1, parts.2, printed]
  cases negative with
  | true => simp [spells.decimal]
  | false =>
      have unsigned : ∀ text', text ≠ '-' :: text' := by
        rintro text' rfl
        cases (List.cons.inj start).1
        cases digit
      simp [spells.decimal]

end Number

namespace Json

/-! ## Strings -/

def hexValue (c : Char) : Nat := if c.isDigit then c.toNat - 48 else c.toNat - 87

/-- The character that an escape stands for. -/
def unescape (c : Char) : Char :=
  if c = 'b' then Char.ofNat 8
  else if c = 't' then Char.ofNat 9
  else if c = 'n' then Char.ofNat 10
  else if c = 'f' then Char.ofNat 12
  else if c = 'r' then Char.ofNat 13
  else c

/-- The characters of a string up to its closing quote, and the rest of the text. -/
def readString : List Char → Option (List Char × List Char)
  | [] => none
  | '"' :: text => some ([], text)
  | '\\' :: 'u' :: _ :: _ :: a :: b :: text =>
      (readString text).map fun (s, rest) => (Char.ofNat (16 * hexValue a + hexValue b) :: s, rest)
  | '\\' :: c :: text => (readString text).map fun (s, rest) => (unescape c :: s, rest)
  | c :: text => (readString text).map fun (s, rest) => (c :: s, rest)

theorem readString_escape {c : Char} {text : List Char} :
    readString (escape c ++ text) =
      (readString text).map fun (s, rest) => (c :: s, rest) := by
  have control (n : Nat) (same : c.toNat = n) : Char.ofNat n = c := by
    rw [← same, Char.ofNat_toNat]
  have digits (n : Nat) (small : n < 32) :
      16 * hexValue (hexDigit (n / 16)) + hexValue (hexDigit (n % 16)) = n := by
    revert n
    decide
  unfold escape
  split
  · rename_i quote
    subst quote
    rfl
  split
  · rename_i backslash
    subst backslash
    rfl
  split
  · rename_i same
    rw [← control 8 same]
    rfl
  split
  · rename_i same
    rw [← control 9 same]
    rfl
  split
  · rename_i same
    rw [← control 10 same]
    rfl
  split
  · rename_i same
    rw [← control 12 same]
    rfl
  split
  · rename_i same
    rw [← control 13 same]
    rfl
  split
  · rename_i small
    simp only [List.cons_append, List.nil_append, readString, digits _ small, control _ rfl]
  · rename_i quote backslash _ _ _ _ _ _
    simp [readString, backslash]

theorem readString_quote {s : String} {rest : List Char} :
    readString (s.toList.flatMap escape ++ '"' :: rest) = some (s.toList, rest) := by
  induction s.toList with
  | nil => rfl
  | cons c s ih => rw [List.flatMap_cons, List.append_assoc, readString_escape, ih]; rfl

/-! ## Values -/

mutual

/-- The value of a JavaScript value as JSON. -/
def meaning : Json → Value
  | .null => .null
  | .bool b => .bool b
  | .number n =>
      match n.value with
      | some q => .number q
      | none => .null
  | .string s => .string s
  | .array items => .array (meaningItems items)
  | .object members => .object (meaningMembers members)

def meaningItems : List Json → List Value
  | [] => []
  | item :: items => meaning item :: meaningItems items

def meaningMembers : List (String × Json) → List (String × Value)
  | [] => []
  | (key, value) :: members => (key, meaning value) :: meaningMembers members

end

mutual

/-- `JSON.parse` of a text without white space, and the rest of the text. -/
def read : Nat → List Char → Option (Value × List Char)
  | 0, _ => none
  | _ + 1, 'n' :: 'u' :: 'l' :: 'l' :: text => some (.null, text)
  | _ + 1, 't' :: 'r' :: 'u' :: 'e' :: text => some (.bool true, text)
  | _ + 1, 'f' :: 'a' :: 'l' :: 's' :: 'e' :: text => some (.bool false, text)
  | _ + 1, '"' :: text =>
      (readString text).map fun (s, rest) => (.string (String.ofList s), rest)
  | _ + 1, '[' :: ']' :: text => some (.array [], text)
  | fuel + 1, '[' :: text => (readItems fuel text).map fun (items, rest) => (.array items, rest)
  | _ + 1, '{' :: '}' :: text => some (.object [], text)
  | fuel + 1, '{' :: text =>
      (readMembers fuel text).map fun (members, rest) => (.object members, rest)
  | _ + 1, text => (Number.read text).map fun (q, rest) => (.number q, rest)

/-- The items of an array that has some, up to its closing bracket. -/
def readItems : Nat → List Char → Option (List Value × List Char)
  | 0, _ => none
  | fuel + 1, text =>
      (read fuel text).bind fun
        | (item, ',' :: rest) => (readItems fuel rest).map fun (items, rest) => (item :: items, rest)
        | (item, ']' :: rest) => some ([item], rest)
        | _ => none

/-- The members of an object that has some, up to its closing brace. -/
def readMembers : Nat → List Char → Option (List (String × Value) × List Char)
  | 0, _ => none
  | fuel + 1, '"' :: text =>
      (readString text).bind fun
        | (key, ':' :: rest) =>
            (read fuel rest).bind fun
              | (value, ',' :: rest) =>
                  (readMembers fuel rest).map fun (members, rest) =>
                    ((String.ofList key, value) :: members, rest)
              | (value, '}' :: rest) => some ([(String.ofList key, value)], rest)
              | _ => none
        | _ => none
  | _ + 1, _ => none

end

theorem read_number {fuel : Nat} {c : Char} {text : List Char}
    (numeric : Number.isNumeric c = true) :
    read (fuel + 1) (c :: text) =
      (Number.read (c :: text)).map fun (q, rest) => (.number q, rest) := by
  have other (d : Char) (not : Number.isNumeric d = false) : c ≠ d := by
    rintro rfl
    rw [numeric] at not
    cases not
  rw [read]
  all_goals
    intros
    rename_i equal
    exact other _ (by decide) (List.cons.inj equal).1

/-- With enough fuel the text of `v` is read, up to a character that cannot go on a number. -/
def Reads (v : Json) : Prop :=
  ∃ enough, ∀ fuel, enough ≤ fuel → ∀ rest, (∀ c ∈ rest.head?, Number.isNumeric c = false) →
    read fuel (v.stringify.toList ++ rest) = some (v.meaning, rest)

theorem stringify_infinite {n : Number} (infinite : n.value = none) :
    (Json.number n).stringify = "null" ∧ (Json.number n).meaning = .null := by
  cases n with
  | finite => cases infinite
  | infinite | nan => exact ⟨rfl, rfl⟩

theorem stringify_finite {n : Number} {q : ℚ} (finite : n.value = some q) :
    (Json.number n).stringify = n.toString ∧ (Json.number n).meaning = .number q := by
  cases n with
  | finite => exact ⟨rfl, by rw [meaning, finite]⟩
  | infinite | nan => cases finite

theorem toString_head {n : Number} {q : ℚ} (finite : n.value = some q) :
    ∃ c text, n.toString.toList = c :: text ∧ Number.isNumeric c = true := by
  obtain ⟨negative, text, q', printed, spells, _⟩ := Number.toString_spells finite
  obtain ⟨⟨d, digits, rfl, digit⟩, _⟩ := spells.numeric
  cases negative with
  | true => exact ⟨'-', d :: digits, printed, by decide⟩
  | false => exact ⟨d, digits, printed, Number.isNumeric_of_isDigit digit⟩

theorem stringify_head (v : Json) : ∃ c text, v.stringify.toList = c :: text ∧ c ≠ ']' := by
  suffices first : ∃ c, v.stringify.toList.head? = some c ∧ c ≠ ']' by
    obtain ⟨c, first, other⟩ := first
    obtain ⟨text, whole⟩ := List.head?_eq_some_iff.mp first
    exact ⟨c, text, whole, other⟩
  cases v with
  | null => exact ⟨'n', rfl, by decide⟩
  | bool b => cases b <;> exact ⟨_, rfl, by decide⟩
  | string s => exact ⟨'"', by simp [stringify, quote], by decide⟩
  | array items => exact ⟨'[', by simp [stringify], by decide⟩
  | object members => exact ⟨'\x7b', by simp [stringify], by decide⟩
  | number n =>
      cases finite : n.value with
      | none => exact ⟨'n', by rw [(stringify_infinite finite).1]; rfl, by decide⟩
      | some q =>
          obtain ⟨c, text, printed, numeric⟩ := toString_head finite
          refine ⟨c, by rw [(stringify_finite finite).1, printed]; rfl, ?_⟩
          rintro rfl
          revert numeric
          decide

theorem stringifyItems_head (item : Json) (items : List Json) :
    ∃ c text, (stringifyItems (item :: items)).toList = c :: text ∧ c ≠ ']' := by
  obtain ⟨c, text, start, other⟩ := stringify_head item
  cases items with
  | nil => exact ⟨c, text, by rw [stringifyItems, start], other⟩
  | cons next items => exact ⟨c, _, by simp [stringifyItems, start]; rfl, other⟩

theorem stringifyMembers_head (member : String × Json) (members : List (String × Json)) :
    ∃ text, (stringifyMembers (member :: members)).toList = '"' :: text := by
  obtain ⟨key, value⟩ := member
  cases members with
  | nil => exact ⟨_, by simp [stringifyMembers, quote]; rfl⟩
  | cons next members => exact ⟨_, by simp [stringifyMembers, quote]; rfl⟩

theorem stop_cons {c : Char} {rest : List Char} (stop : Number.isNumeric c = false) :
    ∀ d ∈ (c :: rest).head?, Number.isNumeric d = false := by
  intro d first
  rw [← Option.some.inj first]
  exact stop

mutual

theorem reads : ∀ v : Json, v.Reads
  | .null => ⟨1, fun fuel enough rest _ => by
      obtain ⟨fuel, rfl⟩ := Nat.exists_eq_add_of_le' enough
      rfl⟩
  | .bool true => ⟨1, fun fuel enough rest _ => by
      obtain ⟨fuel, rfl⟩ := Nat.exists_eq_add_of_le' enough
      rfl⟩
  | .bool false => ⟨1, fun fuel enough rest _ => by
      obtain ⟨fuel, rfl⟩ := Nat.exists_eq_add_of_le' enough
      rfl⟩
  | .number n => ⟨1, fun fuel enough rest stop => by
      obtain ⟨fuel, rfl⟩ := Nat.exists_eq_add_of_le' enough
      cases finite : n.value with
      | none =>
          rw [(stringify_infinite finite).1, (stringify_infinite finite).2]
          rfl
      | some q =>
          obtain ⟨c, text, printed, numeric⟩ := toString_head finite
          have number := Number.read_toString finite stop
          rw [printed, List.cons_append] at number
          rw [(stringify_finite finite).1, (stringify_finite finite).2, printed, List.cons_append,
            read_number numeric, number]
          rfl⟩
  | .string s => ⟨1, fun fuel enough rest _ => by
      obtain ⟨fuel, rfl⟩ := Nat.exists_eq_add_of_le' enough
      have text : (Json.string s).stringify.toList ++ rest =
          '"' :: (s.toList.flatMap escape ++ '"' :: rest) := by simp [stringify, quote]
      rw [text, read, readString_quote]
      simp [meaning]⟩
  | .array [] => ⟨1, fun fuel enough rest _ => by
      obtain ⟨fuel, rfl⟩ := Nat.exists_eq_add_of_le' enough
      rfl⟩
  | .array (item :: items) => by
      obtain ⟨enough, reads⟩ := readsItems (item :: items) (List.cons_ne_nil _ _)
      refine ⟨enough + 1, fun fuel more rest _ => ?_⟩
      obtain ⟨fuel, rfl⟩ := Nat.exists_eq_add_of_le' (Nat.le_of_add_left_le more)
      obtain ⟨c, text, start, other⟩ := stringifyItems_head item items
      have whole : (Json.array (item :: items)).stringify.toList ++ rest =
          '[' :: ((stringifyItems (item :: items)).toList ++ ']' :: rest) := by simp [stringify]
      have opened : read (fuel + 1) ('[' :: ((stringifyItems (item :: items)).toList ++ ']' :: rest)) =
          (readItems fuel ((stringifyItems (item :: items)).toList ++ ']' :: rest)).map
            fun (items, rest) => (.array items, rest) := by
        rw [start, List.cons_append, read]
        intro text' equal
        exact other (List.cons.inj equal).1
      rw [whole, opened, reads fuel (by omega) rest]
      rfl
  | .object [] => ⟨1, fun fuel enough rest _ => by
      obtain ⟨fuel, rfl⟩ := Nat.exists_eq_add_of_le' enough
      rfl⟩
  | .object (member :: members) => by
      obtain ⟨enough, reads⟩ := readsMembers (member :: members) (List.cons_ne_nil _ _)
      refine ⟨enough + 1, fun fuel more rest _ => ?_⟩
      obtain ⟨fuel, rfl⟩ := Nat.exists_eq_add_of_le' (Nat.le_of_add_left_le more)
      obtain ⟨text, start⟩ := stringifyMembers_head member members
      have whole : (Json.object (member :: members)).stringify.toList ++ rest =
          '\x7b' :: ((stringifyMembers (member :: members)).toList ++ '\x7d' :: rest) := by
        simp [stringify]
      have opened : read (fuel + 1)
          ('\x7b' :: ((stringifyMembers (member :: members)).toList ++ '\x7d' :: rest)) =
          (readMembers fuel ((stringifyMembers (member :: members)).toList ++ '\x7d' :: rest)).map
            fun (members, rest) => (.object members, rest) := by
        rw [start, List.cons_append, read]
        intro text' equal
        cases (List.cons.inj equal).1
      rw [whole, opened, reads fuel (by omega) rest]
      rfl

theorem readsItems : ∀ items : List Json, items ≠ [] → ∃ enough, ∀ fuel, enough ≤ fuel →
    ∀ rest, readItems fuel ((stringifyItems items).toList ++ ']' :: rest) =
      some (meaningItems items, rest)
  | [], given => (given rfl).elim
  | [item], _ => by
      obtain ⟨enough, reads⟩ := reads item
      refine ⟨enough + 1, fun fuel more rest => ?_⟩
      obtain ⟨fuel, rfl⟩ := Nat.exists_eq_add_of_le' (Nat.le_of_add_left_le more)
      have first := reads fuel (by omega) (']' :: rest) (stop_cons (by decide))
      rw [stringifyItems, readItems, first]
      rfl
  | item :: next :: items, _ => by
      obtain ⟨enough, reads⟩ := reads item
      obtain ⟨enough', reads'⟩ := readsItems (next :: items) (List.cons_ne_nil _ _)
      refine ⟨enough + enough' + 1, fun fuel more rest => ?_⟩
      obtain ⟨fuel, rfl⟩ := Nat.exists_eq_add_of_le' (Nat.le_of_add_left_le more)
      have text : (stringifyItems (item :: next :: items)).toList ++ ']' :: rest =
          item.stringify.toList ++ ',' :: ((stringifyItems (next :: items)).toList ++ ']' :: rest) := by
        simp [stringifyItems]
      have first := reads fuel (by omega)
        (',' :: ((stringifyItems (next :: items)).toList ++ ']' :: rest)) (stop_cons (by decide))
      rw [text, readItems, first]
      simp only [Option.bind_some]
      rw [reads' fuel (by omega) rest]
      rfl

theorem readsMembers : ∀ members : List (String × Json), members ≠ [] →
    ∃ enough, ∀ fuel, enough ≤ fuel → ∀ rest,
      readMembers fuel ((stringifyMembers members).toList ++ '\x7d' :: rest) =
        some (meaningMembers members, rest)
  | [], given => (given rfl).elim
  | [(key, value)], _ => by
      obtain ⟨enough, reads⟩ := reads value
      refine ⟨enough + 1, fun fuel more rest => ?_⟩
      obtain ⟨fuel, rfl⟩ := Nat.exists_eq_add_of_le' (Nat.le_of_add_left_le more)
      have text : (stringifyMembers [(key, value)]).toList ++ '\x7d' :: rest =
          '"' :: (key.toList.flatMap escape ++ '"' :: ':' ::
            (value.stringify.toList ++ '\x7d' :: rest)) := by
        simp [stringifyMembers, quote]
      have first := reads fuel (by omega) ('\x7d' :: rest) (stop_cons (by decide))
      rw [text, readMembers, readString_quote]
      simp only [Option.bind_some, first]
      simp [meaningMembers]
  | (key, value) :: next :: members, _ => by
      obtain ⟨enough, reads⟩ := reads value
      obtain ⟨enough', reads'⟩ := readsMembers (next :: members) (List.cons_ne_nil _ _)
      refine ⟨enough + enough' + 1, fun fuel more rest => ?_⟩
      obtain ⟨fuel, rfl⟩ := Nat.exists_eq_add_of_le' (Nat.le_of_add_left_le more)
      have text : (stringifyMembers ((key, value) :: next :: members)).toList ++ '\x7d' :: rest =
          '"' :: (key.toList.flatMap escape ++ '"' :: ':' :: (value.stringify.toList ++
            ',' :: ((stringifyMembers (next :: members)).toList ++ '\x7d' :: rest))) := by
        simp [stringifyMembers, quote]
      have first := reads fuel (by omega)
        (',' :: ((stringifyMembers (next :: members)).toList ++ '\x7d' :: rest))
        (stop_cons (by decide))
      rw [text, readMembers, readString_quote]
      simp only [Option.bind_some, first]
      rw [reads' fuel (by omega) rest]
      simp [meaningMembers]

end

theorem meaning_eq_of_stringify {v v' : Json} (same : v.stringify = v'.stringify) :
    v.meaning = v'.meaning := by
  obtain ⟨enough, first⟩ := reads v
  obtain ⟨enough', second⟩ := reads v'
  have one := first (enough + enough') (by omega) [] (by simp)
  rw [same, second (enough + enough') (by omega) [] (by simp)] at one
  exact (Prod.mk.inj (Option.some.inj one)).1.symm

end Json

end Data
