import BirthHub.Data.JsonValue

/-!
# What the API makes of a request body

`express.json` parses a body, an object or an array, and
`apps/api/src/middleware/sanitize-input.ts` removes tags and outer blanks from every string
value in it before a route sees it. A value is *clean* if this leaves its strings as they are.
-/

namespace Http

open Data

/-- `value.replace(/<[^>]+>/g, "")`; a tag that was opened and not yet closed is kept apart. -/
def removeTags : Option (List Char) → List Char → List Char
  | none, [] => []
  | some inner, [] => '<' :: inner
  | none, c :: text => if c = '<' then removeTags (some []) text else c :: removeTags none text
  | some inner, c :: text =>
      if c = '>' then
        if inner = [] then '<' :: '>' :: removeTags none text else removeTags none text
      else removeTags (some (inner ++ [c])) text

def sanitizeText (value : String) : String := trim (String.ofList (removeTags none value.toList))

example : sanitizeText " a <> b <i>c</i> < d && e > f " = "a <> b c  f" := by decide

mutual

def sanitizeValue : Json → Json
  | .string value => .string (sanitizeText value)
  | .array items => .array (sanitizeItems items)
  | .object members => Json.fromEntries (sanitizeMembers members)
  | value => value

def sanitizeItems : List Json → List Json
  | [] => []
  | item :: items => sanitizeValue item :: sanitizeItems items

def sanitizeMembers : List (String × Json) → List (String × Json)
  | [] => []
  | (key, nestedValue) :: members => (key, sanitizeValue nestedValue) :: sanitizeMembers members

end

/-- `express.json`, of a text without white space between its tokens. -/
def parseBody (text : String) : Option Json :=
  ((Json.parse text).map Json.ofValue).filter (·.isObject)

/-- `request.body` as the routes see it. -/
def requestBody (text : String) : Option Json :=
  (parseBody text).map fun body => if body.truthy then sanitizeValue body else body

/-! ## Clean values -/

mutual

/-- No string of the value is changed. -/
def isClean : Json → Bool
  | .string value => sanitizeText value = value
  | .array items => areCleanItems items
  | .object members => areCleanMembers members
  | _ => true

def areCleanItems : List Json → Bool
  | [] => true
  | item :: items => isClean item && areCleanItems items

def areCleanMembers : List (String × Json) → Bool
  | [] => true
  | (_, nestedValue) :: members => isClean nestedValue && areCleanMembers members

end

theorem sanitizeMembers_eq (members : List (String × Json)) :
    sanitizeMembers members = members.map (Prod.map id sanitizeValue) := by
  induction members with
  | nil => rfl
  | cons member members ih => rw [sanitizeMembers, ih, List.map_cons]; rfl

theorem sanitizeValue_object {members : List (String × Json)}
    (ordered : Json.fromEntries members = .object members) :
    sanitizeValue (.object members) = .object (members.map (Prod.map id sanitizeValue)) := by
  rw [sanitizeValue, sanitizeMembers_eq, Json.fromEntries_map ordered]

mutual

theorem isClean_iff : ∀ v : Json, v.IsValue →
    (isClean v = true ↔ (sanitizeValue v).meaning = v.meaning)
  | .null, _ | .bool _, _ | .number _, _ => by simp [isClean, sanitizeValue]
  | .string s, _ => by simp [isClean, sanitizeValue, Json.meaning]
  | .array items, values => by
      rw [isClean, areCleanItems_iff items values, sanitizeValue, Json.meaning, Json.meaning,
        Value.array.injEq]
  | .object members, ⟨ordered, values⟩ => by
      rw [isClean, areCleanMembers_iff members values, sanitizeValue_object ordered,
        ← sanitizeMembers_eq, Json.meaning, Json.meaning, Value.object.injEq]

theorem areCleanItems_iff : ∀ items : List Json, Json.AreValues items →
    (areCleanItems items = true ↔
      Json.meaningItems (sanitizeItems items) = Json.meaningItems items)
  | [], _ => by simp [areCleanItems, sanitizeItems]
  | item :: items, ⟨value, values⟩ => by
      rw [areCleanItems, Bool.and_eq_true, isClean_iff item value, areCleanItems_iff items values,
        sanitizeItems, Json.meaningItems, Json.meaningItems, List.cons.injEq]

theorem areCleanMembers_iff : ∀ members : List (String × Json), Json.AreMembers members →
    (areCleanMembers members = true ↔
      Json.meaningMembers (sanitizeMembers members) = Json.meaningMembers members)
  | [], _ => by simp [areCleanMembers, sanitizeMembers]
  | (key, nestedValue) :: members, ⟨value, values⟩ => by
      rw [areCleanMembers, Bool.and_eq_true, isClean_iff nestedValue value,
        areCleanMembers_iff members values, sanitizeMembers, Json.meaningMembers,
        Json.meaningMembers, List.cons.injEq, Prod.mk.injEq]
      simp

end

mutual

theorem sanitizeValue_of_isClean : ∀ v : Json, v.IsValue → isClean v = true → sanitizeValue v = v
  | .null, _ | .bool _, _ | .number _, _ => by simp [sanitizeValue]
  | .string s, _ => by simp [isClean, sanitizeValue]
  | .array items, values => by
      intro clean
      rw [isClean] at clean
      rw [sanitizeValue, sanitizeItems_of_areClean items values clean]
  | .object members, ⟨ordered, values⟩ => by
      intro clean
      rw [isClean] at clean
      rw [sanitizeValue, sanitizeMembers_of_areClean members values clean, ordered]

theorem sanitizeItems_of_areClean : ∀ items : List Json, Json.AreValues items →
    areCleanItems items = true → sanitizeItems items = items
  | [], _ => by simp [sanitizeItems]
  | item :: items, ⟨value, values⟩ => by
      intro clean
      rw [areCleanItems, Bool.and_eq_true] at clean
      rw [sanitizeItems, sanitizeValue_of_isClean item value clean.1,
        sanitizeItems_of_areClean items values clean.2]

theorem sanitizeMembers_of_areClean : ∀ members : List (String × Json), Json.AreMembers members →
    areCleanMembers members = true → sanitizeMembers members = members
  | [], _ => by simp [sanitizeMembers]
  | (key, nestedValue) :: members, ⟨value, values⟩ => by
      intro clean
      rw [areCleanMembers, Bool.and_eq_true] at clean
      rw [sanitizeMembers, sanitizeValue_of_isClean nestedValue value clean.1,
        sanitizeMembers_of_areClean members values clean.2]

end

mutual

/-- A value and what is parsed of its text are both clean or both not. -/
theorem isClean_ofValue : ∀ v : Json, v.IsValue → isClean (Json.ofValue v.meaning) = isClean v
  | .null, _ | .bool _, _ | .string _, _ => by simp [Json.meaning, Json.ofValue, isClean]
  | .number n, _ => by
      rw [Json.meaning]
      cases n.value <;> simp [Json.ofValue, isClean]
  | .array items, values => by
      rw [Json.meaning, Json.ofValue, isClean, isClean, Json.ofItems_meaningItems]
      exact areCleanItems_ofItems items values
  | .object members, ⟨ordered, values⟩ => by
      rw [Json.meaning, Json.ofValue, Json.ofMembers_meaningMembers, Json.fromEntries_map ordered,
        isClean, isClean]
      exact areCleanMembers_ofMembers members values

theorem areCleanItems_ofItems : ∀ items : List Json, Json.AreValues items →
    areCleanItems (items.map fun v => Json.ofValue v.meaning) = areCleanItems items
  | [], _ => by simp
  | item :: items, ⟨value, values⟩ => by
      rw [List.map_cons, areCleanItems, areCleanItems, isClean_ofValue item value,
        areCleanItems_ofItems items values]

theorem areCleanMembers_ofMembers : ∀ members : List (String × Json), Json.AreMembers members →
    areCleanMembers (members.map (Prod.map id fun v => Json.ofValue v.meaning)) =
      areCleanMembers members
  | [], _ => by simp
  | (_, nestedValue) :: members, ⟨value, values⟩ => by
      rw [List.map_cons, Prod.map, areCleanMembers, areCleanMembers,
        isClean_ofValue nestedValue value, areCleanMembers_ofMembers members values]

end

mutual

theorem isValue_sanitizeValue : ∀ v : Json, v.IsValue → (sanitizeValue v).IsValue
  | .null, _ | .bool _, _ | .number _, _ | .string _, _ => by simp [sanitizeValue, Json.IsValue]
  | .array items, values => by
      rw [sanitizeValue, Json.IsValue]
      exact areValues_sanitizeItems items values
  | .object members, ⟨ordered, values⟩ => by
      rw [sanitizeValue_object ordered, Json.IsValue]
      refine ⟨Json.fromEntries_map ordered, ?_⟩
      rw [← sanitizeMembers_eq]
      exact areMembers_sanitizeMembers members values

theorem areValues_sanitizeItems : ∀ items : List Json, Json.AreValues items →
    Json.AreValues (sanitizeItems items)
  | [], _ => by simp [sanitizeItems, Json.AreValues]
  | item :: items, ⟨value, values⟩ => by
      rw [sanitizeItems]
      exact ⟨isValue_sanitizeValue item value, areValues_sanitizeItems items values⟩

theorem areMembers_sanitizeMembers : ∀ members : List (String × Json), Json.AreMembers members →
    Json.AreMembers (sanitizeMembers members)
  | [], _ => by simp [sanitizeMembers, Json.AreMembers]
  | (_, nestedValue) :: members, ⟨value, values⟩ => by
      rw [sanitizeMembers]
      exact ⟨isValue_sanitizeValue nestedValue value, areMembers_sanitizeMembers members values⟩

end

/-- A body that is neither an object nor an array is refused. -/
theorem requestBody_of_not_isObject {body : Json} (value : body.IsValue)
    (scalar : body.isObject = false) : requestBody body.stringify = none := by
  have other := Json.isObject_ofValue body value
  rw [scalar] at other
  simp [requestBody, parseBody, Json.parse_stringify, Option.filter, other]

/-- A route sees the text that was sent just when no string of it was changed. -/
theorem requestBody_of_isObject {body : Json} (value : body.IsValue) (object : body.isObject = true) :
    ∃ payload, requestBody body.stringify = some payload ∧
      (payload.stringify = body.stringify ↔ isClean body = true) := by
  have parsed := Json.isValue_ofValue body value
  have same := Json.stringify_ofValue body value
  have its := Json.isObject_ofValue body value
  rw [object] at its
  have truthy : (Json.ofValue body.meaning).truthy = true := by
    cases made : Json.ofValue body.meaning <;> rw [made] at its <;> first | rfl | cases its
  refine ⟨sanitizeValue (Json.ofValue body.meaning), ?_, ?_⟩
  · simp [requestBody, parseBody, Json.parse_stringify, Option.filter, its, truthy]
  · rw [← isClean_ofValue body value, ← same]
    constructor
    · intro text
      exact (isClean_iff _ parsed).mpr (Json.meaning_eq_of_stringify text)
    · intro clean
      rw [sanitizeValue_of_isClean _ parsed clean]

end Http
