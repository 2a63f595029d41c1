import BirthHub.Data.SchemaKeeps

/-!
# Encrypted connectors

`encryptConnectorsMap` replaces the strings of a nested map of connectors, each under an
initialization vector of its own; a nested array becomes a map of its indices. `leaves` lists
the strings of a value with the path of keys that leads to each.
-/

namespace Packs

open Data

/-- AES-256-GCM under the key of the deployment: the encrypted text and the authentication tag,
in hexadecimal, of a text under an initialization vector. -/
structure Cipher where
  encrypted : (iv text : String) → String
  authTag : (iv text : String) → String

def encryptConnectorToken (cipher : Cipher) (iv text : String) : String :=
  if text = "" then text
  else iv ++ ":" ++ cipher.authTag iv text ++ ":" ++ cipher.encrypted iv text

/-- Properties set on `{}` one after another: one named `__proto__` would not be its own. -/
def assignMembers (entries : List (String × Json)) : Json :=
  Json.fromEntries (entries.filter (·.1 ≠ "__proto__"))

section

-- `ivs` gives the vector that is drawn for the string at a path.
variable (cipher : Cipher) (ivs : List String → String)

mutual

def encryptEntry (path : List String) : Json → Json
  | .string value => .string (encryptConnectorToken cipher (ivs path) value)
  | .array items => assignMembers (encryptItems path 0 items)
  | .object members => assignMembers (encryptMembers path members)
  | value => value

def encryptItems (path : List String) (index : Nat) : List Json → List (String × Json)
  | [] => []
  | item :: items => (toString index, encryptEntry (path ++ [toString index]) item) ::
      encryptItems path (index + 1) items

def encryptMembers (path : List String) : List (String × Json) → List (String × Json)
  | [] => []
  | (key, value) :: members =>
      (key, encryptEntry (path ++ [key]) value) :: encryptMembers path members

end

def encryptConnectorsMap (connectors : Json) : Json := encryptEntry cipher ivs [] connectors

end

mutual

/-- On a JSON value `toPrismaJsonValue` copies. -/
def toPrismaJsonValue : Json → Json
  | .array items => .array (toPrismaItems items)
  | .object members => assignMembers (toPrismaMembers members)
  | value => value

def toPrismaItems : List Json → List Json
  | [] => []
  | entry :: items => toPrismaJsonValue entry :: toPrismaItems items

def toPrismaMembers : List (String × Json) → List (String × Json)
  | [] => []
  | (key, entry) :: members => (key, toPrismaJsonValue entry) :: toPrismaMembers members

end

/-! ## The strings of a value -/

mutual

def leaves : Json → List (List String × String)
  | .string s => [([], s)]
  | .array items => leavesOfItems 0 items
  | .object members => leavesOfMembers members
  | _ => []

def leavesOfItems (index : Nat) : List Json → List (List String × String)
  | [] => []
  | item :: items =>
      (leaves item).map (fun leaf => (toString index :: leaf.1, leaf.2)) ++
        leavesOfItems (index + 1) items

def leavesOfMembers : List (String × Json) → List (List String × String)
  | [] => []
  | (key, value) :: members =>
      (leaves value).map (fun leaf => (key :: leaf.1, leaf.2)) ++ leavesOfMembers members

end

theorem mem_leavesOfMembers {members : List (String × Json)} {path : List String} {s : String} :
    (path, s) ∈ leavesOfMembers members ↔
      ∃ key value rest, (key, value) ∈ members ∧ path = key :: rest ∧ (rest, s) ∈ leaves value := by
  induction members with
  | nil => simp [leavesOfMembers]
  | cons member members ih =>
      obtain ⟨key, value⟩ := member
      rw [leavesOfMembers, List.mem_append, ih, List.mem_map]
      constructor
      · rintro (⟨⟨rest, s'⟩, there, same⟩ | ⟨key', value', rest, inside, shape, there⟩)
        · cases same
          exact ⟨key, value, rest, List.mem_cons_self, rfl, there⟩
        · exact ⟨key', value', rest, List.mem_cons_of_mem _ inside, shape, there⟩
      · rintro ⟨key', value', rest, inside, shape, there⟩
        rcases List.mem_cons.mp inside with same | inside
        · cases same
          exact .inl ⟨(rest, s), there, by rw [shape]⟩
        · exact .inr ⟨key', value', rest, inside, shape, there⟩

/-- The items of an array from `index` on, as the members of a map of indices. -/
def indexed (index : Nat) : List Json → List (String × Json)
  | [] => []
  | item :: items => (toString index, item) :: indexed (index + 1) items

theorem leavesOfItems_eq (items : List Json) (index : Nat) :
    leavesOfItems index items = leavesOfMembers (indexed index items) := by
  induction items generalizing index with
  | nil => rfl
  | cons item items ih => rw [leavesOfItems, indexed, leavesOfMembers, ih]

theorem encryptItems_eq (cipher : Cipher) (ivs : List String → String) (path : List String)
    (items : List Json) (index : Nat) : encryptItems cipher ivs path index items =
      encryptMembers cipher ivs path (indexed index items) := by
  induction items generalizing index with
  | nil => rfl
  | cons item items ih => rw [encryptItems, indexed, encryptMembers, ih]

/-! ## Assigned members -/

theorem mem_of_fromEntries {entries members : List (String × Json)} {entry : String × Json}
    (made : Json.fromEntries entries = .object members) (there : entry ∈ members) :
    entry ∈ entries := by
  obtain ⟨built, same, each⟩ := Json.mem_fromEntries entries
  cases same.symm.trans made
  exact each entry there

/-- What is assigned comes from an entry with another name than `__proto__`. -/
theorem mem_leaves_assignMembers {entries : List (String × Json)} {path : List String}
    {s : String} (there : (path, s) ∈ leaves (assignMembers entries)) :
    ∃ key value rest, (key, value) ∈ entries ∧ key ≠ "__proto__" ∧ path = key :: rest ∧
      (rest, s) ∈ leaves value := by
  have made : assignMembers entries = .object
      (Json.propertyOrder ((entries.filter (·.1 ≠ "__proto__")).foldl
        (fun ms e => Json.setMember ms e.1 e.2) [])) := rfl
  rw [made, leaves] at there
  obtain ⟨key, value, rest, inside, shape, leaf⟩ := mem_leavesOfMembers.mp there
  obtain ⟨listed, named⟩ := List.mem_filter.mp (mem_of_fromEntries made inside)
  exact ⟨key, value, rest, listed, by simpa using named, shape, leaf⟩

/-- Entries with different names are all assigned, but for `__proto__`. -/
theorem mem_leaves_assignMembers_of {entries : List (String × Json)} {key : String}
    {value : Json} {rest : List String} {s : String} (distinct : (entries.map Prod.fst).Nodup)
    (inside : (key, value) ∈ entries) (named : key ≠ "__proto__") (leaf : (rest, s) ∈ leaves value) :
    (key :: rest, s) ∈ leaves (assignMembers entries) := by
  have kept : (key, value) ∈ entries.filter (·.1 ≠ "__proto__") :=
    List.mem_filter.mpr ⟨inside, by simpa using named⟩
  have keys : ((entries.filter (·.1 ≠ "__proto__")).map Prod.fst).Nodup :=
    distinct.sublist (List.Sublist.map Prod.fst List.filter_sublist)
  obtain ⟨before, after, shape⟩ := List.append_of_mem kept
  have last : ∀ e ∈ after, e.1 ≠ key := by
    intro e late same
    rw [shape, List.map_append, List.map_cons, List.nodup_append, List.nodup_cons] at keys
    exact keys.2.1.1 (List.mem_map.mpr ⟨e, late, same⟩)
  have found : (Json.fromEntries (before ++ (key, value) :: after)).member key = some value :=
    Json.member_fromEntries last
  rw [← shape] at found
  exact mem_leavesOfMembers.mpr ⟨key, value, rest, Json.mem_of_lookup found, rfl, leaf⟩

/-! ## What is encrypted, and what is copied -/

section

variable {cipher : Cipher} {ivs : List String → String}

theorem mem_encryptMembers {members : List (String × Json)} {path : List String} {key : String}
    {value : Json} (there : (key, value) ∈ encryptMembers cipher ivs path members) :
    ∃ given, (key, given) ∈ members ∧ value = encryptEntry cipher ivs (path ++ [key]) given := by
  induction members with
  | nil => cases there
  | cons member members ih =>
      rw [encryptMembers] at there
      rcases List.mem_cons.mp there with same | there
      · cases same
        exact ⟨member.2, List.mem_cons_self, rfl⟩
      · obtain ⟨given, inside, same⟩ := ih there
        exact ⟨given, List.mem_cons_of_mem _ inside, same⟩

theorem index_of_indexed {items : List Json} {index : Nat} {key : String}
    (there : key ∈ (indexed index items).map Prod.fst) : ∃ i, index ≤ i ∧ key = toString i := by
  induction items generalizing index with
  | nil => cases there
  | cons first items ih =>
      rw [indexed, List.map_cons] at there
      rcases List.mem_cons.mp there with same | there
      · exact ⟨index, Nat.le_refl _, same⟩
      · obtain ⟨i, later, same⟩ := ih there
        exact ⟨i, by omega, same⟩

theorem indexed_keys (items : List Json) (index : Nat) :
    ((indexed index items).map Prod.fst).Nodup := by
  induction items generalizing index with
  | nil => exact List.nodup_nil
  | cons first items ih =>
      rw [indexed, List.map_cons, List.nodup_cons]
      refine ⟨fun again => ?_, ih (index + 1)⟩
      obtain ⟨i, later, same⟩ := index_of_indexed again
      have equal : index = i := Nat.repr_injective same
      omega

/-- An index is no name. -/
theorem toString_ne_proto (i : Nat) : toString i ≠ "__proto__" := by
  intro same
  have first : '_' ∈ Nat.toDigits 10 i := by
    have chars := congrArg String.toList same
    rw [Nat.toString_eq_repr, Nat.toList_repr] at chars
    rw [chars]
    decide
  have digit := Nat.isDigit_of_mem_toDigits (by norm_num) (by norm_num) first
  revert digit
  decide

theorem mem_of_indexed {items : List Json} {index : Nat} {key : String} {item : Json}
    (there : (key, item) ∈ indexed index items) : item ∈ items := by
  induction items generalizing index with
  | nil => cases there
  | cons first items ih =>
      rcases List.mem_cons.mp there with same | there
      · cases same
        exact List.mem_cons_self
      · exact List.mem_cons_of_mem _ (ih there)

/-- A string of encrypted connectors is the token of the string that was at its place. -/
theorem mem_leaves_encryptEntry {given : Json} {path rest : List String} {s : String}
    (there : (rest, s) ∈ leaves (encryptEntry cipher ivs path given)) :
    ∃ text, (rest, text) ∈ leaves given ∧
      s = encryptConnectorToken cipher (ivs (path ++ rest)) text := by
  have inMembers (members : List (String × Json))
      (ih : ∀ member ∈ members, ∀ {path rest s},
        (rest, s) ∈ leaves (encryptEntry cipher ivs path member.2) → ∃ text,
          (rest, text) ∈ leaves member.2 ∧ s = encryptConnectorToken cipher (ivs (path ++ rest)) text)
      (there : (rest, s) ∈ leaves (assignMembers (encryptMembers cipher ivs path members))) :
      ∃ text, (rest, text) ∈ leavesOfMembers members ∧
        s = encryptConnectorToken cipher (ivs (path ++ rest)) text := by
    obtain ⟨key, value, below, inside, _, rfl, leaf⟩ := mem_leaves_assignMembers there
    obtain ⟨own, listed, rfl⟩ := mem_encryptMembers inside
    obtain ⟨text, found, same⟩ := ih _ listed leaf
    rw [List.append_assoc, List.singleton_append] at same
    exact ⟨text, mem_leavesOfMembers.mpr ⟨key, own, below, listed, rfl, found⟩, same⟩
  match given with
  | .string text =>
      rw [encryptEntry, leaves, List.mem_singleton] at there
      cases there
      exact ⟨text, by rw [leaves]; exact List.mem_singleton_self _, by rw [List.append_nil]⟩
  | .array items =>
      rw [encryptEntry, encryptItems_eq] at there
      rw [leaves, leavesOfItems_eq]
      refine inMembers _ (fun member listed _ _ _ leaf => ?_) there
      have smaller := List.sizeOf_lt_of_mem (mem_of_indexed listed)
      exact mem_leaves_encryptEntry leaf
  | .object members =>
      rw [encryptEntry] at there
      rw [leaves]
      refine inMembers _ (fun member listed _ _ _ leaf => ?_) there
      have smaller := List.sizeOf_lt_of_mem listed
      exact mem_leaves_encryptEntry leaf
  | .null | .bool _ | .number _ => simp [encryptEntry, leaves] at there
termination_by sizeOf given
decreasing_by
  · simp only [Json.array.sizeOf_spec]
    omega
  · obtain ⟨key, value⟩ := member
    simp only [Prod.mk.sizeOf_spec, Json.object.sizeOf_spec] at smaller ⊢
    omega

end

theorem mem_toPrismaMembers {members : List (String × Json)} {key : String} {value : Json} :
    (key, value) ∈ toPrismaMembers members ↔
      ∃ given, (key, given) ∈ members ∧ value = toPrismaJsonValue given := by
  induction members with
  | nil => simp [toPrismaMembers]
  | cons member members ih =>
      rw [toPrismaMembers, List.mem_cons, ih]
      constructor
      · rintro (same | ⟨given, inside, same⟩)
        · cases same
          exact ⟨member.2, List.mem_cons_self, rfl⟩
        · exact ⟨given, List.mem_cons_of_mem _ inside, same⟩
      · rintro ⟨given, inside, rfl⟩
        rcases List.mem_cons.mp inside with same | inside
        · rw [← same]
          exact .inl rfl
        · exact .inr ⟨given, inside, rfl⟩

theorem toPrismaMembers_keys (members : List (String × Json)) :
    (toPrismaMembers members).map Prod.fst = members.map Prod.fst := by
  induction members with
  | nil => rfl
  | cons member members ih => rw [toPrismaMembers, List.map_cons, List.map_cons, ih]

theorem indexed_toPrismaItems (items : List Json) (index : Nat) :
    indexed index (toPrismaItems items) = toPrismaMembers (indexed index items) := by
  induction items generalizing index with
  | nil => rfl
  | cons item items ih => rw [toPrismaItems, indexed, indexed, toPrismaMembers, ih]

/-- A string that is copied was at its place, which is not below a member `__proto__`. -/
theorem mem_leaves_of_toPrisma {given : Json} {path : List String} {s : String}
    (there : (path, s) ∈ leaves (toPrismaJsonValue given)) :
    (path, s) ∈ leaves given ∧ "__proto__" ∉ path := by
  match given with
  | .string text =>
      have own : (path, s) ∈ [(([] : List String), text)] := by simpa [toPrismaJsonValue, leaves] using there
      cases List.mem_singleton.mp own
      exact ⟨by rwa [leaves], List.not_mem_nil⟩
  | .array items =>
      rw [toPrismaJsonValue, leaves, leavesOfItems_eq, indexed_toPrismaItems] at there
      obtain ⟨key, value, rest, inside, rfl, leaf⟩ := mem_leavesOfMembers.mp there
      obtain ⟨own, listed, rfl⟩ := mem_toPrismaMembers.mp inside
      have smaller := List.sizeOf_lt_of_mem (mem_of_indexed listed)
      obtain ⟨i, _, index⟩ := index_of_indexed (List.mem_map_of_mem listed)
      obtain ⟨below, named⟩ := mem_leaves_of_toPrisma leaf
      rw [leaves, leavesOfItems_eq]
      refine ⟨mem_leavesOfMembers.mpr ⟨key, own, rest, listed, rfl, below⟩, fun proto => ?_⟩
      rcases List.mem_cons.mp proto with same | proto
      · exact toString_ne_proto i (index.symm.trans same.symm)
      · exact named proto
  | .object members =>
      rw [toPrismaJsonValue] at there
      obtain ⟨key, value, rest, inside, own, rfl, leaf⟩ := mem_leaves_assignMembers there
      obtain ⟨given, listed, rfl⟩ := mem_toPrismaMembers.mp inside
      have smaller := List.sizeOf_lt_of_mem listed
      obtain ⟨below, named⟩ := mem_leaves_of_toPrisma leaf
      rw [leaves]
      refine ⟨mem_leavesOfMembers.mpr ⟨key, given, rest, listed, rfl, below⟩, fun proto => ?_⟩
      rcases List.mem_cons.mp proto with same | proto
      · exact own same.symm
      · exact named proto
  | .null | .bool _ | .number _ => simp [toPrismaJsonValue, leaves] at there
termination_by sizeOf given
decreasing_by
  · simp only [Json.array.sizeOf_spec]
    omega
  · simp only [Prod.mk.sizeOf_spec, Json.object.sizeOf_spec] at smaller ⊢
    omega

/-- A string is copied to its place, unless a key on its path is `__proto__`. -/
theorem mem_leaves_toPrisma {given : Json} (value : given.IsValue) {path : List String} {s : String}
    (there : (path, s) ∈ leaves given) (named : "__proto__" ∉ path) :
    (path, s) ∈ leaves (toPrismaJsonValue given) := by
  match given, value with
  | .string text, _ => exact there
  | .array items, values =>
      rw [leaves, leavesOfItems_eq] at there
      obtain ⟨key, own, rest, listed, rfl, leaf⟩ := mem_leavesOfMembers.mp there
      have inside := mem_of_indexed listed
      have smaller := List.sizeOf_lt_of_mem inside
      have copied := mem_leaves_toPrisma (Json.AreValues.mem values inside) leaf
        fun below => named (List.mem_cons_of_mem _ below)
      rw [toPrismaJsonValue, leaves, leavesOfItems_eq, indexed_toPrismaItems]
      exact mem_leavesOfMembers.mpr
        ⟨key, _, rest, mem_toPrismaMembers.mpr ⟨own, listed, rfl⟩, rfl, copied⟩
  | .object members, ⟨ordered, values⟩ =>
      rw [leaves] at there
      obtain ⟨key, own, rest, listed, rfl, leaf⟩ := mem_leavesOfMembers.mp there
      have smaller := List.sizeOf_lt_of_mem listed
      have copied := mem_leaves_toPrisma (Json.AreMembers.mem values listed) leaf
        fun below => named (List.mem_cons_of_mem _ below)
      rw [toPrismaJsonValue]
      refine mem_leaves_assignMembers_of ?_ (mem_toPrismaMembers.mpr ⟨own, listed, rfl⟩)
        (fun same => named (same ▸ List.mem_cons_self)) copied
      rw [toPrismaMembers_keys]
      exact Json.fromEntries_distinct ordered
  | .null, _ | .bool _, _ | .number _, _ => simp [leaves] at there
termination_by sizeOf given
decreasing_by
  · simp only [Json.array.sizeOf_spec]
    omega
  · simp only [Prod.mk.sizeOf_spec, Json.object.sizeOf_spec] at smaller ⊢
    omega

theorem leaves_unique {given : Json} (value : given.IsValue) {path : List String} {s s' : String}
    (there : (path, s) ∈ leaves given) (there' : (path, s') ∈ leaves given) : s = s' := by
  have inMembers {members : List (String × Json)} (distinct : (members.map Prod.fst).Nodup)
      (there : (path, s) ∈ leavesOfMembers members) (there' : (path, s') ∈ leavesOfMembers members) :
      ∃ key value rest, (key, value) ∈ members ∧ (rest, s) ∈ leaves value ∧ (rest, s') ∈ leaves value := by
    obtain ⟨key, value, rest, inside, rfl, leaf⟩ := mem_leavesOfMembers.mp there
    obtain ⟨key', value', rest', inside', shape, leaf'⟩ := mem_leavesOfMembers.mp there'
    cases shape
    have found := (Json.lookup_eq_some distinct).mpr inside
    have found' := (Json.lookup_eq_some distinct).mpr inside'
    cases found.symm.trans found'
    exact ⟨key, value, rest, inside, leaf, leaf'⟩
  match given, value with
  | .string text, _ =>
      rw [leaves, List.mem_singleton] at there there'
      exact (Prod.mk.inj (there.trans there'.symm)).2
  | .array items, values =>
      rw [leaves, leavesOfItems_eq] at there there'
      obtain ⟨key, own, rest, listed, leaf, leaf'⟩ := inMembers (indexed_keys items 0) there there'
      have inside := mem_of_indexed listed
      have smaller := List.sizeOf_lt_of_mem inside
      exact leaves_unique (Json.AreValues.mem values inside) leaf leaf'
  | .object members, ⟨ordered, values⟩ =>
      rw [leaves] at there there'
      obtain ⟨key, own, rest, listed, leaf, leaf'⟩ :=
        inMembers (Json.fromEntries_distinct ordered) there there'
      have smaller := List.sizeOf_lt_of_mem listed
      exact leaves_unique (Json.AreMembers.mem values listed) leaf leaf'
  | .null, _ | .bool _, _ | .number _, _ => simp [leaves] at there
termination_by sizeOf given
decreasing_by
  · simp only [Json.array.sizeOf_spec]
    omega
  · simp only [Prod.mk.sizeOf_spec, Json.object.sizeOf_spec] at smaller ⊢
    omega

end Packs
