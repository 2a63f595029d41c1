import BirthHub.Data.JsonValue
import BirthHub.Data.Schema

/-!
# What a schema does to a value

A schema *keeps* values if it returns those it accepts as it got them; only properties that
are missing may get a default. Under a strict object whose schemas keep values, each given
member is a member of what is returned.
-/

namespace Data

namespace Json

theorem fromEntries_distinct {entries members : List (String × Json)}
    (made : fromEntries entries = .object members) : (members.map Prod.fst).Nodup := by
  have distinct (entries before : List (String × Json)) (first : (before.map Prod.fst).Nodup) :
      ((entries.foldl (fun ms e => setMember ms e.1 e.2) before).map Prod.fst).Nodup := by
    induction entries generalizing before with
    | nil => exact first
    | cons entry entries ih => exact ih _ (setMember_distinct first)
  have own := Json.object.inj made
  rw [← own]
  exact (List.Perm.map Prod.fst propertyOrder_perm).nodup_iff.mpr
    (distinct entries [] List.nodup_nil)

theorem AreMembers.mem {members : List (String × Json)} (values : AreMembers members)
    {member : String × Json} (there : member ∈ members) : member.2.IsValue := by
  induction members with
  | nil => cases there
  | cons first members ih =>
      rcases List.mem_cons.mp there with rfl | there
      · exact values.1
      · exact ih values.2 there

theorem AreValues.mem {items : List Json} (values : AreValues items) {item : Json}
    (there : item ∈ items) : item.IsValue := by
  induction items with
  | nil => cases there
  | cons first items ih =>
      rcases List.mem_cons.mp there with rfl | there
      · exact values.1
      · exact ih values.2 there

theorem mem_of_lookup {members : List (String × Json)} {key : String} {value : Json}
    (found : members.lookup key = some value) : (key, value) ∈ members := by
  induction members with
  | nil => cases found
  | cons member members ih =>
      rw [List.lookup_cons] at found
      split at found
      · rename_i same
        rw [eq_of_beq same]
        cases found
        exact List.mem_cons_self
      · exact List.mem_cons_of_mem _ (ih found)

end Json

namespace JsonSchema

/-- An accepted value is returned as it was given. -/
def Keeps (schema : JsonSchema) : Prop :=
  ∀ v : Json, v.IsValue → ∀ parsed, schema (some v) = some parsed → parsed = some v

variable {schema : JsonSchema}

theorem Keeps.string {valid : String → Bool} : Keeps (string valid) := by
  intro v _ parsed accepted
  cases v with
  | string text =>
      simp only [JsonSchema.string] at accepted
      split at accepted
      · exact (Option.some.inj accepted).symm
      · cases accepted
  | _ => cases accepted

theorem Keeps.stringMin {length : Nat} : Keeps (stringMin length) := .string

theorem Keeps.enum {values : List String} : Keeps (enum values) := .string

theorem Keeps.number : Keeps number := by
  intro v _ parsed accepted
  cases v with
  | number n =>
      simp only [JsonSchema.number] at accepted
      split at accepted
      · exact (Option.some.inj accepted).symm
      · cases accepted
  | _ => cases accepted

theorem Keeps.int {min max : Int} : Keeps (int min max) := by
  intro v _ parsed accepted
  cases v with
  | number n =>
      simp only [JsonSchema.int] at accepted
      split at accepted
      · split at accepted
        · exact (Option.some.inj accepted).symm
        · cases accepted
      · cases accepted
  | _ => cases accepted

theorem Keeps.boolean : Keeps boolean := by
  intro v _ parsed accepted
  cases v with
  | bool b => exact (Option.some.inj accepted).symm
  | _ => cases accepted

theorem Keeps.unknown : Keeps unknown := by
  intro v _ parsed accepted
  exact (Option.some.inj accepted).symm

theorem Keeps.optional (keeps : Keeps schema) : Keeps (optional schema) := keeps

theorem Keeps.default (keeps : Keeps schema) (value : Json) : Keeps (default schema value) := keeps

theorem Keeps.union {schemas : List JsonSchema} (each : ∀ schema ∈ schemas, Keeps schema) :
    Keeps (union schemas) := by
  intro v value parsed accepted
  induction schemas with
  | nil => cases accepted
  | cons schema schemas ih =>
      simp only [JsonSchema.union] at accepted
      cases first : schema (some v) with
      | some result =>
          rw [first] at accepted
          cases accepted
          exact each schema List.mem_cons_self v value _ first
      | none =>
          rw [first] at accepted
          exact ih (fun other there => each other (List.mem_cons_of_mem _ there)) accepted

theorem items_eq (keeps : Keeps schema) {given parsed : List Json} (values : Json.AreValues given)
    (accepted : items schema given = some parsed) : parsed = given := by
  induction given generalizing parsed with
  | nil => exact (Option.some.inj accepted).symm
  | cons item given ih =>
      simp only [items] at accepted
      split at accepted
      · rename_i first others firstly rest
        cases accepted
        rw [Option.some.inj (keeps item values.1 _ firstly), ih values.2 rest]
      · cases accepted

theorem Keeps.array {length : Nat} (keeps : Keeps schema) : Keeps (array schema length) := by
  intro v value parsed accepted
  cases v with
  | array given =>
      simp only [JsonSchema.array] at accepted
      split at accepted
      · obtain ⟨found, whole, rfl⟩ := Option.map_eq_some_iff.mp accepted
        rw [items_eq keeps value whole]
      · cases accepted
  | _ => cases accepted

theorem entries_eq (keeps : Keeps schema) {given parsed : List (String × Json)}
    (values : Json.AreMembers given) (accepted : entries schema given = some parsed) :
    parsed = given := by
  induction given generalizing parsed with
  | nil => exact (Option.some.inj accepted).symm
  | cons entry given ih =>
      obtain ⟨key, nested⟩ := entry
      simp only [entries] at accepted
      split at accepted
      · rename_i first others firstly rest
        cases accepted
        rw [Option.some.inj (keeps nested values.1 _ firstly), ih values.2 rest]
      · cases accepted

theorem Keeps.record (keeps : Keeps schema) : Keeps (record schema) := by
  intro v value parsed accepted
  cases v with
  | object given =>
      obtain ⟨found, whole, rfl⟩ := Option.map_eq_some_iff.mp accepted
      rw [entries_eq keeps value.2 whole]
  | _ => cases accepted

/-! ## Objects -/

end JsonSchema

end Data
