import BirthHub.Data.Json

/-!
# Schemas of JSON values

Validation in the manner of zod: a `JsonSchema` refuses a value, or accepts it and returns
what it parses to, defaults filled in. `undefined` is a missing value on either side, so
that an optional property and a property with a default are schemas like any other.

The message and the path of a refusal are not modelled.
-/

namespace Data

/-- What a schema makes of a value; `none` if it refuses the value. -/
abbrev JsonSchema : Type := Option Json → Option (Option Json)

/-- The number of UTF-16 code units, `text.length`. -/
def unitLength (text : String) : Nat :=
  (text.toList.map fun c => if c.toNat < 0x10000 then 1 else 2).sum

/-- `text.includes(part)`. -/
def includes (text part : String) : Bool := decide (part.toList <:+: text.toList)

/-- The integer that a number is, if it is one. -/
def Number.asInt : Number → Option Int
  | .finite negative digits exponent =>
      let sign : Int := if negative then -1 else 1
      if 0 ≤ exponent then some (sign * (digits * 10 ^ exponent.toNat : Nat))
      else if digits % 10 ^ (-exponent).toNat = 0 then
        some (sign * (digits / 10 ^ (-exponent).toNat : Nat))
      else none
  | _ => none

namespace JsonSchema

/-- `z.string()` with the checks on its text. -/
def string (valid : String → Bool) : JsonSchema
  | some (.string text) => if valid text then some (some (.string text)) else none
  | _ => none

/-- `z.string().min(length)`. -/
def stringMin (length : Nat) : JsonSchema := string fun text => length ≤ unitLength text

/-- `z.number()`. -/
def number : JsonSchema
  | some (.number n) => if n.isFinite then some (some (.number n)) else none
  | _ => none

/-- `z.number().int()` between two bounds; a safe integer where there is no upper one. -/
def int (min : Int) (max : Int := 2 ^ 53 - 1) : JsonSchema
  | some (.number n) =>
      match n.asInt with
      | some value => if min ≤ value ∧ value ≤ max then some (some (.number n)) else none
      | none => none
  | _ => none

/-- `z.boolean()`. -/
def boolean : JsonSchema
  | some (.bool b) => some (some (.bool b))
  | _ => none

/-- `z.literal(true)`. -/
def isTrue : JsonSchema
  | some (.bool true) => some (some (.bool true))
  | _ => none

/-- `z.enum(values)`. -/
def enum (values : List String) : JsonSchema := string fun text => values.contains text

/-- `z.unknown()`. -/
def unknown : JsonSchema := some

/-- `schema.optional()`. -/
def optional (schema : JsonSchema) : JsonSchema
  | none => some none
  | some value => schema (some value)

/-- `schema.default(value)`. -/
def default (schema : JsonSchema) (value : Json) : JsonSchema
  | none => some (some value)
  | some given => schema (some given)

/-- `z.union(schemas)`: the first that accepts. -/
def union : List JsonSchema → JsonSchema
  | [], _ => none
  | schema :: schemas, value =>
      match schema value with
      | some parsed => some parsed
      | none => union schemas value

def items (schema : JsonSchema) : List Json → Option (List Json)
  | [] => some []
  | item :: rest =>
      match schema (some item), items schema rest with
      | some (some parsed), some others => some (parsed :: others)
      | _, _ => none

/-- `z.array(schema).min(length)`. -/
def array (schema : JsonSchema) (length : Nat := 0) : JsonSchema
  | some (.array values) =>
      if length ≤ values.length then (items schema values).map fun parsed => some (.array parsed)
      else none
  | _ => none

def entries (schema : JsonSchema) : List (String × Json) → Option (List (String × Json))
  | [] => some []
  | (key, value) :: rest =>
      match schema (some value), entries schema rest with
      | some (some parsed), some others => some ((key, parsed) :: others)
      | _, _ => none

/-- `z.record(z.string(), schema)`. -/
def record (schema : JsonSchema) : JsonSchema
  | some (.object members) => (entries schema members).map fun parsed => some (.object parsed)
  | _ => none

/-- The properties of a shape: one that parses to `undefined` is left out. -/
def fields (members : List (String × Json)) :
    List (String × JsonSchema) → Option (List (String × Json))
  | [] => some []
  | (key, schema) :: shape =>
      match schema (members.lookup key), fields members shape with
      | some (some parsed), some others => some ((key, parsed) :: others)
      | some none, some others => some others
      | _, _ => none

/-- No property is outside the shape. -/
def isStrict (shape : List (String × JsonSchema)) (members : List (String × Json)) : Bool :=
  members.all fun member => shape.any (·.1 == member.1)

/-- `z.object(shape).strict()`. -/
def strictObject (shape : List (String × JsonSchema)) : JsonSchema
  | some (.object members) =>
      if isStrict shape members then
        (fields members shape).map fun parsed => some (.object parsed)
      else none
  | _ => none

end JsonSchema

end Data
