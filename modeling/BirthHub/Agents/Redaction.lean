import BirthHub.Data.JsonPath

/-!
# Redaction of personal data

`packages/agents-core/src/execution/redaction.ts` puts `[REDACTED]` in the place of every value
whose key is the name of a sensitive field in any letter case. The rest of a value is kept, so that
what is redacted depends on nothing that stands under such a key. `toLowerCase` is a parameter.
-/

namespace Agents

open Data

def defaultSensitiveFields : List String :=
  ["authorization", "cpf", "credit_card", "email", "password", "token"]

section Fields

variable (toLowerCase : String → String)

def normalize (fields : List String) : List String := fields.map toLowerCase

/-- `sensitive.has(key.toLowerCase())`. -/
def isSensitive (sensitiveFields : List String) (key : String) : Bool :=
  (normalize toLowerCase sensitiveFields).contains (toLowerCase key)

end Fields

mutual

/-- The closure `visit` of `redactPII`. -/
def visit (sensitive : String → Bool) : Json → Json
  | .array items => .array (visitItems sensitive items)
  | .object entries => Json.fromEntries (visitEntries sensitive entries)
  | input => input

def visitItems (sensitive : String → Bool) : List Json → List Json
  | [] => []
  | item :: items => visit sensitive item :: visitItems sensitive items

def visitEntries (sensitive : String → Bool) : List (String × Json) → List (String × Json)
  | [] => []
  | (key, entry) :: entries =>
      (if sensitive key then (key, .string "[REDACTED]") else (key, visit sensitive entry)) ::
        visitEntries sensitive entries

end

def redactPII (toLowerCase : String → String) (value : Json)
    (sensitiveFields : List String := defaultSensitiveFields) : Json :=
  visit (isSensitive toLowerCase sensitiveFields) value

/-! ## What is kept -/

variable {sensitive : String → Bool} {v w : Json} {members : List (String × Json)}

/-- One entry of a redacted object. -/
def redactEntry (sensitive : String → Bool) (entry : String × Json) : String × Json :=
  if sensitive entry.1 then (entry.1, .string "[REDACTED]")
  else (entry.1, visit sensitive entry.2)

theorem redactEntry_key (entry : String × Json) : (redactEntry sensitive entry).1 = entry.1 := by
  unfold redactEntry
  split <;> rfl

theorem visitItems_eq (items : List Json) : visitItems sensitive items = items.map (visit sensitive) := by
  induction items with
  | nil => rfl
  | cons item items ih => rw [visitItems, ih, List.map_cons]

theorem visitEntries_eq (entries : List (String × Json)) :
    visitEntries sensitive entries = entries.map (redactEntry sensitive) := by
  induction entries with
  | nil => rfl
  | cons entry entries ih => rw [visitEntries, ih, List.map_cons]; rfl

theorem visit_object (ordered : Json.fromEntries members = .object members) :
    visit sensitive (.object members) = .object (members.map (redactEntry sensitive)) := by
  rw [visit, visitEntries_eq, Json.fromEntries_mapEntries redactEntry_key ordered]

theorem node_visit (value : v.IsValue) : (visit sensitive v).node = v.node := by
  cases v with
  | array items => rw [visit, visitItems_eq, Json.node, Json.node, List.length_map]
  | object members =>
      rw [visit_object value.1, Json.node, Json.node, List.map_map]
      exact congrArg Json.Node.object (List.map_congr_left fun entry _ => redactEntry_key entry)
  | null | bool | number | string => rfl

theorem child_visit (value : v.IsValue) (step : Json.Step)
    (clear : ∀ key, step = .key key → sensitive key = false) :
    Json.child step (visit sensitive v) = (Json.child step v).map (visit sensitive) := by
  cases v with
  | array items =>
      cases step with
      | key key => rfl
      | index i => rw [visit, visitItems_eq, Json.child, Json.child, List.getElem?_map]
  | object members =>
      rw [visit_object value.1]
      cases step with
      | index i => rfl
      | key key =>
          rw [Json.child, Json.child, Json.lookup_mapEntries redactEntry_key]
          refine congrArg (Option.map · (members.lookup key)) (funext fun entry => ?_)
          simp [redactEntry, clear key rfl]
  | null | bool | number | string => cases step <;> rfl

theorem child_visit_sensitive {key : String} (value : v.IsValue) (hides : sensitive key = true) :
    Json.child (.key key) (visit sensitive v) =
      (Json.child (.key key) v).map fun _ => .string "[REDACTED]" := by
  cases v with
  | object members =>
      rw [visit_object value.1, Json.child, Json.child, Json.lookup_mapEntries redactEntry_key]
      refine congrArg (Option.map · (members.lookup key)) (funext fun entry => ?_)
      simp [redactEntry, hides]
  | array items => rfl
  | null | bool | number | string => rfl

/-- A redacted value has the nodes of the value, but for what stands under a sensitive key. -/
theorem visit_alike (value : v.IsValue) : Json.AlikeBeside sensitive (visit sensitive v) v := by
  intro path
  induction path generalizing v with
  | nil => exact fun _ => congrArg some (node_visit value)
  | cons step path ih =>
      intro clear
      obtain ⟨first, rest⟩ := Json.isOpen_cons.mp clear
      rw [Json.atPath, Json.atPath, child_visit value step first]
      cases found : Json.child step v with
      | none => rfl
      | some w => exact ih (value.child found) rest

theorem atPath_visit {path : List Json.Step} {key : String} (value : v.IsValue)
    (clear : Json.isOpen sensitive path = true) (hides : sensitive key = true) :
    Json.atPath (path ++ [.key key]) (visit sensitive v) =
      (Json.atPath (path ++ [.key key]) v).map fun _ => .string "[REDACTED]" := by
  induction path generalizing v with
  | nil =>
      rw [List.nil_append, Json.atPath, Json.atPath, child_visit_sensitive value hides]
      cases Json.child (.key key) v <;> rfl
  | cons step path ih =>
      obtain ⟨first, rest⟩ := Json.isOpen_cons.mp clear
      rw [List.cons_append, Json.atPath, Json.atPath, child_visit value step first]
      cases found : Json.child step v with
      | none => rfl
      | some w => exact ih (value.child found) rest

/-! ## What it does not depend on -/

mutual

/-- A redacted value does not depend on what stands under sensitive keys. -/
theorem visit_eq_of_alike : ∀ v w : Json, v.IsValue → w.IsValue →
    Json.AlikeBeside sensitive v w → visit sensitive v = visit sensitive w
  | .array items, w, values, value, alike => by
      have nodes := alike.node
      cases w with
      | array items' =>
          rw [visit, visit, visitItems_eq_of_alike items items' values value alike.items_alike]
      | null | bool | number | string | object => cases nodes
  | .object members, w, given, value, alike => by
      have nodes := alike.node
      cases w with
      | object members' =>
          have same := alike.members_alike (Json.fromEntries_distinct given.1)
          rw [visit, visit, visitEntries_eq_of_alike members members' given.2 value.2 same]
      | null | bool | number | string | array => cases nodes
  | .null, w, _, _, alike | .bool _, w, _, _, alike | .number _, w, _, _, alike
  | .string _, w, _, _, alike => by
      have nodes := alike.node
      cases w
      all_goals cases nodes
      rfl

theorem visitItems_eq_of_alike : ∀ items items' : List Json, Json.AreValues items →
    Json.AreValues items' → List.Forall₂ (Json.AlikeBeside sensitive) items items' →
      visitItems sensitive items = visitItems sensitive items'
  | [], _, _, _, .nil => rfl
  | item :: items, item' :: items', ⟨value, values⟩, ⟨value', values'⟩, .cons first others => by
      rw [visitItems, visitItems, visit_eq_of_alike item item' value value' first,
        visitItems_eq_of_alike items items' values values' others]

theorem visitEntries_eq_of_alike : ∀ entries entries' : List (String × Json),
    Json.AreMembers entries → Json.AreMembers entries' →
      List.Forall₂ (fun e e' => e.1 = e'.1 ∧
        (sensitive e.1 = false → Json.AlikeBeside sensitive e.2 e'.2)) entries entries' →
      visitEntries sensitive entries = visitEntries sensitive entries'
  | [], _, _, _, .nil => rfl
  | (key, entry) :: entries, (key', entry') :: entries', ⟨value, values⟩, ⟨value', values'⟩,
      .cons ⟨named, first⟩ others => by
      have same : key = key' := named
      subst same
      rw [visitEntries, visitEntries, visitEntries_eq_of_alike entries entries' values values' others]
      cases hides : sensitive key with
      | true => rfl
      | false => rw [visit_eq_of_alike entry entry' value value' (first hides)]

end

mutual

theorem isValue_visit : ∀ v : Json, v.IsValue → (visit sensitive v).IsValue
  | .null, _ | .bool _, _ | .number _, _ | .string _, _ => trivial
  | .array items, values => areValues_visitItems items values
  | .object members, ⟨ordered, values⟩ => by
      have fixed : Json.fromEntries (members.map (redactEntry sensitive)) =
          .object (members.map (redactEntry sensitive)) :=
        Json.fromEntries_mapEntries redactEntry_key ordered
      rw [visit_object ordered]
      refine ⟨fixed, ?_⟩
      rw [← visitEntries_eq]
      exact areMembers_visitEntries members values

theorem areValues_visitItems : ∀ items : List Json, Json.AreValues items →
    Json.AreValues (visitItems sensitive items)
  | [], _ => trivial
  | item :: items, ⟨value, values⟩ => ⟨isValue_visit item value, areValues_visitItems items values⟩

theorem areMembers_visitEntries : ∀ entries : List (String × Json), Json.AreMembers entries →
    Json.AreMembers (visitEntries sensitive entries)
  | [], _ => trivial
  | (key, entry) :: entries, ⟨value, values⟩ => by
      rw [visitEntries]
      split
      · exact ⟨trivial, areMembers_visitEntries entries values⟩
      · exact ⟨isValue_visit entry value, areMembers_visitEntries entries values⟩

end

theorem visit_visit (value : v.IsValue) : visit sensitive (visit sensitive v) = visit sensitive v :=
  visit_eq_of_alike _ _ (isValue_visit v value) value (visit_alike value)

/-- **Redaction is complete.** Keys, lengths and leaves are kept but under sensitive keys, where
`[REDACTED]` stands; what else stood there makes no difference, and redacting twice is redacting
once. -/
theorem redactPII_complete (toLowerCase : String → String) (sensitiveFields : List String)
    (v : Json) (value : v.IsValue) :
    Json.AlikeBeside (isSensitive toLowerCase sensitiveFields)
        (redactPII toLowerCase v sensitiveFields) v ∧
      (∀ path key, Json.isOpen (isSensitive toLowerCase sensitiveFields) path = true →
        isSensitive toLowerCase sensitiveFields key = true →
        Json.atPath (path ++ [.key key]) (redactPII toLowerCase v sensitiveFields) =
          (Json.atPath (path ++ [.key key]) v).map fun _ => .string "[REDACTED]") ∧
      (∀ w : Json, w.IsValue → Json.AlikeBeside (isSensitive toLowerCase sensitiveFields) v w →
        redactPII toLowerCase v sensitiveFields = redactPII toLowerCase w sensitiveFields) ∧
      redactPII toLowerCase (redactPII toLowerCase v sensitiveFields) sensitiveFields =
        redactPII toLowerCase v sensitiveFields :=
  ⟨visit_alike value, fun _ _ clear hides => atPath_visit value clear hides,
    fun w value' alike => visit_eq_of_alike v w value value' alike, visit_visit value⟩

/-- Users with an address in the place of a token, and a token within a token. -/
def users : Json := .object [("users", .array [.object [("Token", .object [("token", .null)]),
  ("age", Json.nat 7)], .object [("E-mail", .str "a@b")]]), ("email", .array [])]

def lowerCase (text : String) : String := String.ofList (text.toList.map Char.toLower)

example : (redactPII lowerCase users).stringify = Json.stringify (.object [("users", .array [
    .object [("Token", .str "[REDACTED]"), ("age", Json.nat 7)],
    .object [("E-mail", .str "a@b")]]), ("email", .str "[REDACTED]")]) := by
  decide

theorem users_complete :
    Json.AlikeBeside (isSensitive lowerCase defaultSensitiveFields)
        (redactPII lowerCase users) users ∧
      (∀ path key, Json.isOpen (isSensitive lowerCase defaultSensitiveFields) path = true →
        isSensitive lowerCase defaultSensitiveFields key = true →
        Json.atPath (path ++ [.key key]) (redactPII lowerCase users) =
          (Json.atPath (path ++ [.key key]) users).map fun _ => .string "[REDACTED]") ∧
      (∀ w : Json, w.IsValue →
        Json.AlikeBeside (isSensitive lowerCase defaultSensitiveFields) users w →
          redactPII lowerCase users = redactPII lowerCase w) ∧
      redactPII lowerCase (redactPII lowerCase users) = redactPII lowerCase users :=
  redactPII_complete lowerCase defaultSensitiveFields users
    ⟨rfl, ⟨⟨rfl, ⟨rfl, trivial, trivial⟩, trivial, trivial⟩, ⟨rfl, trivial, trivial⟩, trivial⟩,
      trivial, trivial⟩

end Agents
