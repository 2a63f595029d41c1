import Mathlib

/-!
# JSON values as a JavaScript program sees them

`Json` is a JSON value with its object members in property order. `Json.stringify` is
`JSON.stringify`, `Json.fromEntries` is `Object.fromEntries`, and `Json.truthy` is
`Boolean(value)`. A number is kept as the decimal that `Number.prototype.toString`
prints, so that no floating-point arithmetic is needed to print it again.

Strings are sequences of Unicode scalar values: a JavaScript string that holds a lone
surrogate has no counterpart here.
-/

namespace Data

/-- What a `throw` carries: the message of an `Error`, or no message when the value thrown
is not an `Error`; and the `code` of a database error. -/
structure Thrown where
  message : Option String
  code : Option String := none
deriving DecidableEq, Repr, Inhabited

/-- `new Error(message)`. -/
def error (message : String) : Thrown := { message := some message }

/-- A JavaScript number: `±digits × 10 ^ exponent`, or a value that is not finite. -/
inductive Number
  | finite (negative : Bool) (digits : Nat) (exponent : Int)
  | infinite (negative : Bool)
  | nan
deriving DecidableEq, Repr

inductive Json
  | null
  | bool (b : Bool)
  | number (n : Number)
  | string (s : String)
  | array (items : List Json)
  | object (members : List (String × Json))

namespace Number

def ofNat (n : Nat) : Number := .finite false n 0

def isZero : Number → Bool
  | .finite _ digits _ => digits == 0
  | _ => false

/-- `Number.isFinite(n)`. -/
def isFinite : Number → Bool
  | .finite .. => true
  | _ => false

/-- `Math.max(0, n)`. -/
def maxZero : Number → Number
  | .finite true _ _ | .infinite true => ofNat 0
  | n => n

/-- Decimal digits without trailing zeros, and the exponent that makes up for them. -/
def stripZeros : Nat → Nat → Int → Nat × Int
  | 0, digits, exponent => (digits, exponent)
  | fuel + 1, digits, exponent =>
      if digits % 10 = 0 ∧ digits ≠ 0 then stripZeros fuel (digits / 10) (exponent + 1)
      else (digits, exponent)

def zeros (n : Nat) : String := String.ofList (List.replicate n '0')

/-- The digits of a positive number `digits × 10 ^ exponent` laid out as
`Number::toString` does: `n` is the position of the decimal point. -/
def layout (digits : Nat) (exponent : Int) : String :=
  let s := toString digits
  let k : Int := s.length
  let n := k + exponent
  if k ≤ n ∧ n ≤ 21 then s ++ zeros (n - k).toNat
  else if 0 < n ∧ n ≤ 21 then
    String.ofList (s.toList.take n.toNat) ++ "." ++ String.ofList (s.toList.drop n.toNat)
  else if -6 < n ∧ n ≤ 0 then "0." ++ zeros (-n).toNat ++ s
  else
    let sign := if n - 1 < 0 then "-" else "+"
    let tail := String.ofList (s.toList.drop 1)
    let mantissa :=
      if k = 1 then s else String.ofList (s.toList.take 1) ++ "." ++ tail
    mantissa ++ "e" ++ sign ++ toString (n - 1).natAbs

/-- `String(n)`. -/
def toString : Number → String
  | .nan => "NaN"
  | .infinite negative => if negative then "-Infinity" else "Infinity"
  | .finite negative digits exponent =>
      if digits = 0 then "0"
      else
        let (digits, exponent) := stripZeros digits digits exponent
        (if negative then "-" else "") ++ layout digits exponent

/-- The value of decimal digits. -/
def ofDigits (digits : List Char) : Nat :=
  digits.foldl (fun n c => 10 * n + (c.toNat - 48)) 0

/-- `e` or `E`, a sign and digits; nothing for no exponent. -/
def exponentPart : List Char → Option Int
  | [] => some 0
  | c :: rest =>
      if c = 'e' ∨ c = 'E' then
        let (negative, digits) : Bool × List Char :=
          match rest with
          | '-' :: digits => (true, digits)
          | '+' :: digits => (false, digits)
          | digits => (false, digits)
        if digits ≠ [] ∧ digits.all Char.isDigit then
          some (if negative then -(ofDigits digits : Int) else ofDigits digits)
        else none
      else none

/-- An unsigned decimal literal. -/
def decimal (negative : Bool) (text : List Char) : Number :=
  if text = "Infinity".toList then .infinite negative
  else
    let whole := text.takeWhile Char.isDigit
    let rest := text.dropWhile Char.isDigit
    let (fraction, rest) : List Char × List Char :=
      match rest with
      | '.' :: rest => (rest.takeWhile Char.isDigit, rest.dropWhile Char.isDigit)
      | rest => ([], rest)
    match exponentPart rest with
    | some exponent =>
        if whole = [] ∧ fraction = [] then .nan
        else .finite negative (ofDigits (whole ++ fraction)) (exponent - fraction.length)
    | none => .nan

/-- The digit of a radix literal. -/
def radixDigit (radix : Nat) (c : Char) : Option Nat :=
  let value :=
    if c.isDigit then c.toNat - 48
    else if 'a' ≤ c ∧ c ≤ 'z' then c.toNat - 87
    else if 'A' ≤ c ∧ c ≤ 'Z' then c.toNat - 55
    else radix
  if value < radix then some value else none

/-- The digits after `0x`, `0o` or `0b`. -/
def ofRadix (radix : Nat) (digits : List Char) : Number :=
  match digits.mapM (radixDigit radix) with
  | some (d :: ds) => .ofNat ((d :: ds).foldl (fun n d => radix * n + d) 0)
  | _ => .nan

/-- `Number(text)` of a text without white space around it. -/
def ofText : List Char → Number
  | [] => .ofNat 0
  | '-' :: text => decimal true text
  | '+' :: text => decimal false text
  | '0' :: c :: text =>
      if c = 'x' ∨ c = 'X' then ofRadix 16 text
      else if c = 'o' ∨ c = 'O' then ofRadix 8 text
      else if c = 'b' ∨ c = 'B' then ofRadix 2 text
      else decimal false ('0' :: c :: text)
  | text => decimal false text

end Number

/-- The characters that `String.prototype.trim` removes. -/
def isWhitespace (c : Char) : Bool :=
  (9 ≤ c.toNat && c.toNat ≤ 13) || c.toNat == 0x20 || c.toNat == 0xA0 || c.toNat == 0x1680 ||
  (0x2000 ≤ c.toNat && c.toNat ≤ 0x200A) || c.toNat == 0x2028 || c.toNat == 0x2029 ||
  c.toNat == 0x202F || c.toNat == 0x205F || c.toNat == 0x3000 || c.toNat == 0xFEFF

/-- `String.prototype.trim`. -/
def trim (s : String) : String :=
  String.ofList ((s.toList.dropWhile isWhitespace).reverse.dropWhile isWhitespace).reverse

namespace Json

def str (s : String) : Json := .string s

def nat (n : Nat) : Json := .number (.ofNat n)

/-- `Boolean(value)`. -/
def truthy : Json → Bool
  | .null => false
  | .bool b => b
  | .number .nan => false
  | .number n => !n.isZero
  | .string s => s != ""
  | .array _ | .object _ => true

/-- The value of a property; `none` is `undefined`. -/
def member (key : String) : Json → Option Json
  | .object members => members.lookup key
  | _ => none

/-- `typeof value === "object" && value !== null`. -/
def isObject : Json → Bool
  | .object _ | .array _ => true
  | _ => false

/-! ## Number(value) -/

mutual

/-- `String(value)`. -/
def text : Json → String
  | .null => "null"
  | .bool b => if b then "true" else "false"
  | .number n => n.toString
  | .string s => s
  | .array items => textItems items
  | .object _ => "[object Object]"

/-- `items.join(",")`, in which `null` is the empty string. -/
def textItems : List Json → String
  | [] => ""
  | [.null] => ""
  | [item] => text item
  | .null :: items => "," ++ textItems items
  | item :: items => text item ++ "," ++ textItems items

end

/-- `Number(value)`. -/
def toNumber : Json → Number
  | .null => .ofNat 0
  | .bool b => .ofNat (if b then 1 else 0)
  | .number n => n
  | .string s => .ofText (trim s).toList
  | .array items => .ofText (trim (textItems items)).toList
  | .object _ => .nan

/-! ## JSON.stringify -/

def hexDigit (n : Nat) : Char :=
  if n < 10 then Char.ofNat (48 + n) else Char.ofNat (87 + n)

/-- One character of `JSON.stringify` of a string. -/
def escape (c : Char) : List Char :=
  if c = '"' then ['\\', '"']
  else if c = '\\' then ['\\', '\\']
  else if c.toNat = 8 then ['\\', 'b']
  else if c.toNat = 9 then ['\\', 't']
  else if c.toNat = 10 then ['\\', 'n']
  else if c.toNat = 12 then ['\\', 'f']
  else if c.toNat = 13 then ['\\', 'r']
  else if c.toNat < 32 then
    ['\\', 'u', '0', '0', hexDigit (c.toNat / 16), hexDigit (c.toNat % 16)]
  else [c]

def quote (s : String) : String :=
  "\"" ++ String.ofList (s.toList.flatMap escape) ++ "\""

mutual

/-- `JSON.stringify(value)`. -/
def stringify : Json → String
  | .null => "null"
  | .bool b => if b then "true" else "false"
  | .number n => if n.isFinite then n.toString else "null"
  | .string s => quote s
  | .array items => "[" ++ stringifyItems items ++ "]"
  | .object members => "\x7b" ++ stringifyMembers members ++ "\x7d"

def stringifyItems : List Json → String
  | [] => ""
  | [item] => stringify item
  | item :: items => stringify item ++ "," ++ stringifyItems items

def stringifyMembers : List (String × Json) → String
  | [] => ""
  | [(key, value)] => quote key ++ ":" ++ stringify value
  | (key, value) :: members =>
      quote key ++ ":" ++ stringify value ++ "," ++ stringifyMembers members

end

/-! ## Object.fromEntries -/

/-- Set a property: an existing one keeps its place. -/
def setMember (members : List (String × Json)) (key : String) (value : Json) :
    List (String × Json) :=
  if members.any (·.1 == key) then
    members.map fun m => if m.1 == key then (key, value) else m
  else members ++ [(key, value)]

/-- The array index a property key spells in canonical decimal, if it spells one. -/
def arrayIndex (key : String) : Option Nat :=
  let digits := key.toList
  if digits ≠ [] ∧ digits.all Char.isDigit ∧ (digits.head? = some '0' → digits.length = 1) then
    let n := digits.foldl (fun n c => 10 * n + (c.toNat - 48)) 0
    if n < 2 ^ 32 - 1 then some n else none
  else none

/-- Own properties in the order of `OrdinaryOwnPropertyKeys`: array indices in ascending
order, then the other keys as they were added. -/
def propertyOrder (members : List (String × Json)) : List (String × Json) :=
  let indexed := members.filter fun m => (arrayIndex m.1).isSome
  let named := members.filter fun m => (arrayIndex m.1).isNone
  indexed.insertionSort (fun a b => (arrayIndex a.1).getD 0 ≤ (arrayIndex b.1).getD 0) ++ named

/-- `Object.fromEntries(entries)`. -/
def fromEntries (entries : List (String × Json)) : Json :=
  .object (propertyOrder (entries.foldl (fun ms e => setMember ms e.1 e.2) []))

example : stringify (.object [("a\n", .array [nat 120, .null]), ("b", .bool true)]) =
    "\x7b\"a\\n\":[120,null],\"b\":true\x7d" := by decide

end Json

end Data
