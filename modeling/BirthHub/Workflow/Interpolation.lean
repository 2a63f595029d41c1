import BirthHub.Data.Json

/-!
# Templates in the configuration of a step

The string values of a step's configuration may hold tokens, each a path in double braces.
`interpolateValue` replaces every token by the value that its path has in the context of
the execution. A path is followed with `in`, which also finds what objects and arrays inherit,
and an object is built by assignments, of which one to `__proto__` makes no member.
-/

namespace Workflow

open Data

/-- The parts of a text between the occurrences of a character. -/
def splitOn (separator : Char) : List Char → List (List Char)
  | [] => [[]]
  | c :: cs =>
      if c = separator then [] :: splitOn separator cs
      else
        match splitOn separator cs with
        | part :: parts => (c :: part) :: parts
        | [] => [[c]]

/-- The property of a value that a segment of a path names. -/
def segmentValue (cursor : Json) (segment : String) : Option Json :=
  match cursor with
  | .object members => members.lookup segment
  | .array items =>
      if segment = "length" then some (.nat items.length)
      else (Json.arrayIndex segment).bind fun index => items[index]?
  | _ => none

/-- What a path comes to: a value of the context, or something that its values inherit. -/
inductive Reached
  | own (value : Json)
  | objectPrototype
  | arrayPrototype
  | method

def objectMethods : List String := [
  "constructor", "__defineGetter__", "__defineSetter__", "hasOwnProperty", "__lookupGetter__",
  "__lookupSetter__", "isPrototypeOf", "propertyIsEnumerable", "toString", "valueOf",
  "toLocaleString"]

/-- The methods of arrays, with those that they share with objects. -/
def arrayMethods : List String := [
  "at", "concat", "copyWithin", "fill", "find", "findIndex", "findLast", "findLastIndex",
  "lastIndexOf", "pop", "push", "reverse", "shift", "unshift", "slice", "sort", "splice",
  "includes", "indexOf", "join", "keys", "entries", "values", "forEach", "filter", "flat",
  "flatMap", "map", "every", "some", "reduce", "reduceRight", "toReversed", "toSorted",
  "toSpliced", "with"] ++ objectMethods

/-- An inherited property of a value. -/
def inheritedProperty : Json → String → Option Reached
  | .object _, segment =>
      if segment = "__proto__" then some .objectPrototype
      else if segment ∈ objectMethods then some .method else none
  | .array _, segment =>
      if segment = "__proto__" then some .arrayPrototype
      else if segment ∈ arrayMethods then some .method else none
  | _, _ => none

/-- `cursor[segment]`, when the cursor is an object and `segment in cursor`. -/
def Reached.property : Reached → String → Option Reached
  | .own value, segment => ((segmentValue value segment).map .own).or (inheritedProperty value segment)
  | .objectPrototype, segment =>
      if segment = "__proto__" then some (.own .null)
      else if segment ∈ objectMethods then some .method else none
  | .arrayPrototype, segment =>
      if segment = "__proto__" then some .objectPrototype
      else if segment = "length" then some (.own (.nat 0))
      else if segment ∈ arrayMethods then some .method else none
  | .method, _ => none

/-- The loop over the segments. -/
def follow : Reached → List String → Option Reached
  | cursor, [] => some cursor
  | cursor, segment :: segments => (cursor.property segment).bind (follow · segments)

def pathSegments (pathExpression : String) : List String :=
  let path := pathExpression.toList
  let normalizedPath := if ['$', '.'].isPrefixOf path then path.drop 2 else path
  ((splitOn '.' normalizedPath).filter fun segment => !segment.isEmpty).map String.ofList

/-- `resolvePath` of a path without blanks around it; `none` is `undefined`. -/
def resolvePath (pathExpression : String) (context : Json) : Option Reached :=
  follow (.own context) (pathSegments pathExpression)

/-- The expression of a token at the start of a text, and the length of the token. -/
def tokenAt (text : List Char) : Option (String × Nat) :=
  match text with
  | '{' :: '{' :: rest =>
      let expression := rest.takeWhile fun c => c ≠ '{' ∧ c ≠ '}'
      if expression.isEmpty then none
      else
        match rest.drop expression.length with
        | '}' :: '}' :: _ => some (trim (String.ofList expression), expression.length + 4)
        | _ => none
  | _ => none

/-- The text of a value in a template. -/
def valueText : Json → String
  | .null => ""
  | .string s => s
  | resolved => resolved.stringify

/-- The text of what a path comes to. `JSON.stringify` of a function is `undefined`. -/
def reachedText : Option Reached → String
  | none => ""
  | some (.own value) => valueText value
  | some .objectPrototype => "\x7b\x7d"
  | some .arrayPrototype => "[]"
  | some .method => "undefined"

/-- What a token is replaced by. -/
def tokenText (expression : String) (context : Json) : String :=
  reachedText (resolvePath expression context)

/-- Replace the tokens of a text after `skip` characters, which belong to a token. -/
def replaceTokens (text : String → String) : (skip : Nat) → List Char → List Char
  | _, [] => []
  | skip + 1, _ :: cs => replaceTokens text skip cs
  | 0, c :: cs =>
      match tokenAt (c :: cs) with
      | some (expression, length) =>
          (text expression).toList ++ replaceTokens text (length - 1) cs
      | none => c :: replaceTokens text 0 cs

def interpolateTemplate (value : String) (context : Json) : String :=
  String.ofList (replaceTokens (tokenText · context) 0 value.toList)

mutual

def interpolateValue (context : Json) : Json → Json
  | .string s => .string (interpolateTemplate s context)
  | .array items => .array (interpolateItems context items)
  | .object members => .object (interpolateMembers context members)
  | value => value

def interpolateItems (context : Json) : List Json → List Json
  | [] => []
  | item :: items => interpolateValue context item :: interpolateItems context items

def interpolateMembers (context : Json) : List (String × Json) → List (String × Json)
  | [] => []
  | (key, value) :: members =>
      if key = "__proto__" then interpolateMembers context members
      else (key, interpolateValue context value) :: interpolateMembers context members

end

end Workflow
