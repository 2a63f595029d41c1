import BirthHub.Data.KeyOrder
import BirthHub.Registry.Versions

/-!
# The digest of a manifest

`hashManifest` writes the members of every object in the order of `localeCompare`. Manifests with
one digest are equal up to the order of members. The other way it holds for a manifest exactly
when no object in it has two keys that compare equal, array indices apart: such keys stay as they
were given.
-/

namespace Registry

open Data
open Data.Json (SameValue ordered arrayIndex)

/-- `localeCompare` is the comparison of a collation, under which texts may be equal. -/
structure Libraries.Collates (lib : Libraries) : Prop where
  swap : ∀ a b, lib.localeCompare a b ≤ 0 ↔ 0 ≤ lib.localeCompare b a
  trans : ∀ {a b c}, lib.localeCompare a b ≤ 0 → lib.localeCompare b c ≤ 0 →
    lib.localeCompare a c ≤ 0

section

variable (lib : Libraries)

mutual

/-- No object in the value has two keys that compare equal, array indices apart. -/
def Untied : Json → Prop
  | .array items => ItemsUntied items
  | .object members => members.Pairwise (fun a b => arrayIndex a.1 = none → arrayIndex b.1 = none →
      lib.localeCompare a.1 b.1 ≠ 0) ∧ MembersUntied members
  | _ => True

def ItemsUntied : List Json → Prop
  | [] => True
  | item :: items => Untied item ∧ ItemsUntied items

def MembersUntied : List (String × Json) → Prop
  | [] => True
  | (_, value) :: members => Untied value ∧ MembersUntied members

end

end

section

variable {lib : Libraries}

theorem itemsUntied_iff {items : List Json} :
    ItemsUntied lib items ↔ ∀ item ∈ items, Untied lib item := by
  induction items with
  | nil => simp [ItemsUntied]
  | cons item items ih => simp [ItemsUntied, ih]

theorem membersUntied_iff {members : List (String × Json)} :
    MembersUntied lib members ↔ ∀ member ∈ members, Untied lib member.2 := by
  induction members with
  | nil => simp [MembersUntied]
  | cons member members ih => simp [MembersUntied, ih]

/-! ## The canonical form -/

/-- A member with the canonical form of its value. -/
def stableEntry (lib : Libraries) (entry : String × Json) : String × Json :=
  (entry.1, stableJson lib entry.2)

/-- The members of an object in their canonical order. -/
def stableOrder (lib : Libraries) (members : List (String × Json)) : List (String × Json) :=
  ordered (fun left right => lib.localeCompare left right ≤ 0) members

theorem stableItems_eq (items : List Json) : stableItems lib items = items.map (stableJson lib) := by
  induction items with
  | nil => rfl
  | cons item items ih => rw [stableItems, ih, List.map_cons]

theorem stableMembers_eq (members : List (String × Json)) :
    stableMembers lib members = members.map (stableEntry lib) := by
  induction members with
  | nil => rfl
  | cons member members ih => rw [stableMembers, ih, List.map_cons, stableEntry]

theorem stableJson_object {members : List (String × Json)}
    (distinct : (members.map Prod.fst).Nodup) :
    stableJson lib (.object members) = .object ((stableOrder lib members).map (stableEntry lib)) := by
  have keys : ((stableMembers lib members).map Prod.fst) = members.map Prod.fst := by
    rw [stableMembers_eq, List.map_map]
    rfl
  have sorted : (((stableMembers lib members).insertionSort
      fun left right => lib.localeCompare left.1 right.1 ≤ 0).map Prod.fst).Nodup := by
    rw [((List.perm_insertionSort _ _).map Prod.fst).nodup_iff, keys]
    exact distinct
  have mapped : ordered (fun left right => lib.localeCompare left right ≤ 0)
      (members.map (stableEntry lib)) = (stableOrder lib members).map (stableEntry lib) :=
    Json.ordered_mapEntries fun _ => rfl
  rw [stableJson, Json.fromEntries_of_distinct sorted, stableMembers_eq]
  exact congrArg Json.object mapped

/-- What the canonical form of an object means. -/
theorem meaning_stableJson_object {members : List (String × Json)}
    (distinct : (members.map Prod.fst).Nodup) :
    (stableJson lib (.object members)).meaning = .object ((stableOrder lib members).map
      fun entry => (entry.1, (stableJson lib entry.2).meaning)) := by
  rw [stableJson_object distinct, Json.meaning, Json.meaningMembers_eq, List.map_map]
  rfl

theorem meaning_stableJson_array (items : List Json) :
    (stableJson lib (.array items)).meaning =
      .array (items.map fun item => (stableJson lib item).meaning) := by
  rw [stableJson, Json.meaning, Json.meaningItems_eq, stableItems_eq, List.map_map]
  rfl

theorem stableJson_plain {v : Json} (plain : v.isObject = false) : stableJson lib v = v := by
  cases v with
  | array _ | object _ => cases plain
  | null | bool _ | number _ | string _ => rfl

theorem isObject_of_stable {v w : Json}
    (same : (stableJson lib v).meaning = (stableJson lib w).meaning) : v.isObject = w.isObject := by
  have kept (v : Json) : (stableJson lib v).isObject = v.isObject := by cases v <;> rfl
  rw [← kept v, ← kept w]
  exact Json.isObject_of_meaning same

/-- Values with one canonical form are equal up to the order of members. -/
theorem sameValue_of_stable {v : Json} (value : v.IsValue) : ∀ w : Json, w.IsValue →
    (stableJson lib v).meaning = (stableJson lib w).meaning → SameValue v w := by
  refine value.induction (fun v plain => ?_) (fun items values ih => ?_)
    fun members made values ih => ?_
  · intro w _ same
    have plain' := (isObject_of_stable same).symm.trans plain
    rw [stableJson_plain plain, stableJson_plain plain'] at same
    exact (Json.sameValue_plain plain).mpr same
  · intro w value' same
    cases w with
    | null | bool _ | number _ | string _ => cases isObject_of_stable same
    | object members => rw [meaning_stableJson_array] at same; cases same
    | array items' =>
        rw [meaning_stableJson_array, meaning_stableJson_array] at same
        have lists := Value.array.inj same
        rw [← List.forall₂_eq_eq_eq, List.forall₂_map_left_iff, List.forall₂_map_right_iff,
          List.forall₂_iff_zip] at lists
        refine Json.sameValue_array.mpr (List.forall₂_iff_zip.mpr ⟨lists.1, fun pair => ?_⟩)
        obtain ⟨there, there'⟩ := List.of_mem_zip pair
        exact ih _ there _ (Json.AreValues.mem value' there') (lists.2 pair)
  · intro w value' same
    cases w with
    | null | bool _ | number _ | string _ => cases isObject_of_stable same
    | array items => rw [meaning_stableJson_array] at same; cases same
    | object members' =>
        obtain ⟨made', values'⟩ := value'
        have distinct := Json.fromEntries_distinct made
        have distinct' := Json.fromEntries_distinct made'
        rw [meaning_stableJson_object distinct, meaning_stableJson_object distinct'] at same
        have lists := Value.object.inj same
        have keys := congrArg (List.map Prod.fst) lists
        rw [List.map_map, List.map_map] at keys
        have perm : (members.map Prod.fst).Perm (members'.map Prod.fst) :=
          (Json.ordered_perm.map Prod.fst).symm.trans
            ((List.Perm.of_eq keys).trans (Json.ordered_perm.map Prod.fst))
        refine Json.sameValue_object.mpr ⟨perm, fun key own there => ?_⟩
        have listed : (key, (stableJson lib own).meaning) ∈ (stableOrder lib members').map
            fun entry => (entry.1, (stableJson lib entry.2).meaning) := by
          rw [← lists]
          exact List.mem_map.mpr ⟨(key, own), Json.ordered_perm.mem_iff.mpr there, rfl⟩
        obtain ⟨⟨key', own'⟩, inside, equal⟩ := List.mem_map.mp listed
        obtain ⟨rfl, means⟩ := Prod.mk.inj equal
        have there' := Json.ordered_perm.mem_iff.mp inside
        exact ⟨own', (Json.lookup_eq_some distinct').mpr there',
          ih _ there _ (Json.AreMembers.mem values' there') means.symm⟩

theorem Libraries.Collates.total (collates : lib.Collates) (a b : String) :
    lib.localeCompare a b ≤ 0 ∨ lib.localeCompare b a ≤ 0 :=
  (le_total (lib.localeCompare a b) 0).imp_right (collates.swap b a).mpr

theorem Libraries.Collates.tied (collates : lib.Collates) {a b : String}
    (le : lib.localeCompare a b ≤ 0) (ge : lib.localeCompare b a ≤ 0) : lib.localeCompare a b = 0 :=
  le_antisymm le ((collates.swap b a).mp ge)

theorem Libraries.Collates.tied_symm (collates : lib.Collates) {a b : String}
    (zero : lib.localeCompare a b = 0) : lib.localeCompare b a = 0 :=
  le_antisymm ((collates.swap b a).mpr zero.ge) ((collates.swap a b).mp zero.le)

/-- In a value without tied keys the canonical order is the same from any order. -/
theorem stableOrder_eq (collates : lib.Collates) {members members' : List (String × Json)}
    (distinct : (members.map Prod.fst).Nodup) (perm : members.Perm members')
    (untied : members.Pairwise fun a b => arrayIndex a.1 = none → arrayIndex b.1 = none →
      lib.localeCompare a.1 b.1 ≠ 0) : stableOrder lib members = stableOrder lib members' := by
  refine Json.ordered_eq collates.total collates.trans distinct perm ?_
  intro a there b there' named named' le ge
  by_contra other
  have differ : a ≠ b := fun same => other (congrArg Prod.fst same)
  have symmetric : Std.Symm fun a b : String × Json => arrayIndex a.1 = none →
      arrayIndex b.1 = none → lib.localeCompare a.1 b.1 ≠ 0 :=
    ⟨fun a b apart named named' zero => apart named' named (collates.tied_symm zero)⟩
  exact untied.forall there there' differ named named' (collates.tied le ge)

/-- Members without their values. -/
def keyed (members : List (String × Json)) : List (String × Json) :=
  members.map fun entry => (entry.1, .null)

/-- A key with the value that a list of members has for it. -/
def withValue (members : List (String × Json)) (entry : String × Json) : String × Json :=
  (entry.1, (members.lookup entry.1).getD .null)

theorem map_withValue {members : List (String × Json)} (distinct : (members.map Prod.fst).Nodup) :
    (keyed members).map (withValue members) = members := by
  have each : ∀ entry ∈ members,
      (withValue members ∘ fun entry => (entry.1, Json.null)) entry = id entry := by
    intro entry there
    have found : members.lookup entry.1 = some entry.2 := (Json.lookup_eq_some distinct).mpr there
    rw [Function.comp_apply, withValue, found]
    rfl
  rw [keyed, List.map_map, List.map_congr_left each, List.map_id]

theorem stableOrder_keyed {members : List (String × Json)}
    (distinct : (members.map Prod.fst).Nodup) :
    stableOrder lib members = (stableOrder lib (keyed members)).map (withValue members) := by
  have mapped : stableOrder lib ((keyed members).map (withValue members)) =
      (stableOrder lib (keyed members)).map (withValue members) :=
    Json.ordered_mapEntries fun _ => rfl
  rw [map_withValue distinct] at mapped
  exact mapped

theorem keyed_perm {members members' : List (String × Json)}
    (keys : (members.map Prod.fst).Perm (members'.map Prod.fst)) :
    (keyed members).Perm (keyed members') := by
  have mapped := keys.map fun key => (key, Json.null)
  rw [List.map_map, List.map_map] at mapped
  exact mapped

/-- Values that are equal up to the order of members have one canonical form, if no keys are
tied. -/
theorem stable_of_sameValue (collates : lib.Collates) {v : Json} (value : v.IsValue) :
    Untied lib v → ∀ w : Json, w.IsValue → SameValue v w →
      (stableJson lib v).meaning = (stableJson lib w).meaning := by
  refine value.induction (fun v plain => ?_) (fun items values ih => ?_)
    fun members made values ih => ?_
  · intro _ w _ same
    have plain' := same.isObject.symm.trans plain
    rw [stableJson_plain plain, stableJson_plain plain']
    exact (Json.sameValue_plain plain).mp same
  · intro untied w value' same
    rw [SameValue] at same
    obtain ⟨items', rfl, all⟩ := same
    rw [Json.sameItems_iff, List.forall₂_iff_zip] at all
    rw [meaning_stableJson_array, meaning_stableJson_array]
    refine congrArg Value.array ?_
    rw [← List.forall₂_eq_eq_eq, List.forall₂_map_left_iff, List.forall₂_map_right_iff,
      List.forall₂_iff_zip]
    refine ⟨all.1, fun pair => ?_⟩
    obtain ⟨there, there'⟩ := List.of_mem_zip pair
    rw [Untied, itemsUntied_iff] at untied
    exact ih _ there (untied _ there) _ (Json.AreValues.mem value' there') (all.2 pair)
  · intro untied w value' same
    rw [SameValue] at same
    obtain ⟨members', rfl, keys, all⟩ := same
    rw [Json.sameMembers_iff] at all
    obtain ⟨made', values'⟩ := value'
    have distinct := Json.fromEntries_distinct made
    have distinct' := Json.fromEntries_distinct made'
    rw [Untied, membersUntied_iff] at untied
    have own : ((keyed members).map Prod.fst).Nodup := by
      rw [keyed, List.map_map]
      exact distinct
    have order : stableOrder lib (keyed members) = stableOrder lib (keyed members') :=
      stableOrder_eq collates own (keyed_perm keys) (List.pairwise_map.mpr untied.1)
    rw [meaning_stableJson_object distinct, meaning_stableJson_object distinct',
      stableOrder_keyed distinct, stableOrder_keyed distinct', ← order, List.map_map, List.map_map]
    refine congrArg Value.object (List.map_congr_left fun entry there => ?_)
    obtain ⟨⟨key, value⟩, listed, rfl⟩ := List.mem_map.mp (Json.ordered_perm.mem_iff.mp there)
    obtain ⟨value', found', same⟩ := all key value listed
    have found : members.lookup key = some value := (Json.lookup_eq_some distinct).mpr listed
    have means := ih _ listed (untied.2 _ listed) value'
      (Json.AreMembers.mem values' (Json.mem_of_lookup found')) same
    simp only [Function.comp_apply, withValue, found, found', Option.getD_some, means]

/-! ## Tied keys -/

/-- Members that come after each other only once are not in the other order as well. -/
theorem not_sublist_swap {α : Type*} {a b : α} {l : List α} (distinct : l.Nodup)
    (pair : [a, b].Sublist l) : ¬ [b, a].Sublist l := by
  induction l with
  | nil => cases pair
  | cons first l ih =>
      obtain ⟨fresh, distinct⟩ := List.nodup_cons.mp distinct
      intro swapped
      cases pair with
      | cons _ pair =>
          cases swapped with
          | cons _ swapped => exact ih distinct pair swapped
          | cons_cons _ _ => exact fresh (pair.subset (by simp))
      | cons_cons _ rest =>
          cases swapped with
          | cons _ swapped => exact fresh (swapped.subset (by simp))
          | cons_cons _ _ => exact fresh (rest.subset (by simp))

/-- Two tied members in the other order have another canonical form. -/
theorem exists_unstable_swap (collates : lib.Collates) {members : List (String × Json)}
    (made : Json.fromEntries members = .object members)
    (values : ∀ member ∈ members, member.2.IsValue)
    (tied : ¬ members.Pairwise fun a b => arrayIndex a.1 = none → arrayIndex b.1 = none →
      lib.localeCompare a.1 b.1 ≠ 0) :
    ∃ members', Json.fromEntries members' = .object members' ∧ members'.Perm members ∧
      SameValue (.object members) (.object members') ∧
      (stableJson lib (.object members)).meaning ≠ (stableJson lib (.object members')).meaning := by
  rw [List.pairwise_iff_forall_sublist] at tied
  push Not at tied
  obtain ⟨a, b, pair, named, named', zero⟩ := tied
  obtain ⟨members', made', perm, swapped⟩ := Json.exists_swapped made pair named named'
  have distinct := Json.fromEntries_distinct made
  have distinct' := Json.fromEntries_distinct made'
  refine ⟨members', made', perm, Json.sameValue_object.mpr ⟨perm.symm.map Prod.fst, ?_⟩, ?_⟩
  · intro key value there
    exact ⟨value, (Json.lookup_eq_some distinct').mpr (perm.mem_iff.mpr there),
      Json.sameValue_refl (values _ there)⟩
  · intro same
    rw [meaning_stableJson_object distinct, meaning_stableJson_object distinct'] at same
    have keys := congrArg (List.map Prod.fst) (Value.object.inj same)
    rw [List.map_map, List.map_map] at keys
    have order : [a.1, b.1].Sublist ((stableOrder lib members).map Prod.fst) :=
      (Json.ordered_pair pair named named' zero.le).map Prod.fst
    have order' : [b.1, a.1].Sublist ((stableOrder lib members').map Prod.fst) :=
      (Json.ordered_pair swapped named' named (collates.tied_symm zero).le).map Prod.fst
    have once : ((stableOrder lib members).map Prod.fst).Nodup :=
      (Json.ordered_perm.map Prod.fst).nodup_iff.mpr distinct
    have equal : (stableOrder lib members).map Prod.fst = (stableOrder lib members').map Prod.fst :=
      keys
    rw [← equal] at order'
    exact not_sublist_swap once order order'

/-- A value with tied keys has another value up to the order of members that is written
otherwise. -/
theorem exists_unstable (collates : lib.Collates) {v : Json} (value : v.IsValue) :
    v.IsFinite → ¬ Untied lib v → ∃ w : Json, w.IsValue ∧ w.IsFinite ∧ SameValue v w ∧
      (stableJson lib v).meaning ≠ (stableJson lib w).meaning := by
  refine value.induction (fun v plain => ?_) (fun items values ih => ?_)
    fun members made values ih => ?_
  · intro _ tied
    cases v with
    | array _ | object _ => cases plain
    | null | bool _ | number _ | string _ => exact absurd trivial tied
  · intro finite tied
    rw [Untied, itemsUntied_iff] at tied
    push Not at tied
    obtain ⟨item, there, below⟩ := tied
    have all := Json.areFinite_iff.mp finite
    obtain ⟨w, value, finite', same, differ⟩ := ih item there (all item there) below
    obtain ⟨first, last, rfl⟩ := List.append_of_mem there
    have keeps {P : Json → Prop} (each : ∀ item' ∈ first ++ item :: last, P item') (own : P w) :
        ∀ item' ∈ first ++ w :: last, P item' := by
      intro item' listed
      rcases List.mem_append.mp listed with early | late
      · exact each item' (List.mem_append_left _ early)
      rcases List.mem_cons.mp late with rfl | late
      · exact own
      · exact each item' (List.mem_append_right _ (List.mem_cons_of_mem _ late))
    refine ⟨.array (first ++ w :: last), Json.areValues_iff.mpr (keeps values value),
      Json.areFinite_iff.mpr (keeps all finite'), ?_, ?_⟩
    · refine Json.sameValue_array.mpr (List.rel_append ?_ (.cons same ?_))
      · exact List.forall₂_same.mpr fun other listed =>
          Json.sameValue_refl (values other (List.mem_append_left _ listed))
      · exact List.forall₂_same.mpr fun other listed =>
          Json.sameValue_refl (values other (List.mem_append_right _ (List.mem_cons_of_mem _ listed)))
    · rw [meaning_stableJson_array, meaning_stableJson_array]
      intro equal
      have lists := Value.array.inj equal
      rw [List.map_append, List.map_append, List.map_cons, List.map_cons] at lists
      exact differ (List.cons.inj (List.append_cancel_left lists)).1
  · intro finite tied
    have all := Json.membersFinite_iff.mp finite
    have distinct := Json.fromEntries_distinct made
    by_cases names : members.Pairwise fun a b => arrayIndex a.1 = none → arrayIndex b.1 = none →
        lib.localeCompare a.1 b.1 ≠ 0
    · rw [Untied, membersUntied_iff] at tied
      push Not at tied
      obtain ⟨⟨key, own⟩, there, below⟩ := tied names
      obtain ⟨w, value, finite', same, differ⟩ := ih _ there (all _ there) below
      let change (entry : String × Json) : String × Json :=
        (entry.1, if entry.1 = key then w else entry.2)
      have made' : Json.fromEntries (members.map change) = .object (members.map change) :=
        Json.fromEntries_mapEntries (fun _ => rfl) made
      have distinct' := Json.fromEntries_distinct made'
      have keeps {P : Json → Prop} (each : ∀ entry ∈ members, P entry.2) (own : P w) :
          ∀ entry ∈ members.map change, P entry.2 := by
        intro entry listed
        obtain ⟨given, inside, rfl⟩ := List.mem_map.mp listed
        dsimp only [change]
        split
        · exact own
        · exact each given inside
      refine ⟨.object (members.map change), ⟨made', Json.areMembers_iff.mpr (keeps values value)⟩,
        Json.membersFinite_iff.mpr (keeps all finite'), ?_, ?_⟩
      · refine Json.sameValue_object.mpr ⟨?_, fun key' value' inside => ?_⟩
        · rw [List.map_map]
          exact .refl _
        · refine ⟨if key' = key then w else value', (Json.lookup_eq_some distinct').mpr
            (List.mem_map.mpr ⟨(key', value'), inside, rfl⟩), ?_⟩
          split
          · rename_i hit
            subst hit
            cases Json.entry_unique distinct there inside rfl
            exact same
          · exact Json.sameValue_refl (values _ inside)
      · intro equal
        have mapped : stableOrder lib (members.map change) = (stableOrder lib members).map change :=
          Json.ordered_mapEntries fun _ => rfl
        rw [meaning_stableJson_object distinct, meaning_stableJson_object distinct', mapped,
          List.map_map] at equal
        have entry := List.map_inj_left.mp (Value.object.inj equal) (key, own)
          (Json.ordered_perm.mem_iff.mpr there)
        have means := (Prod.mk.inj entry).2
        simp only [change, if_pos] at means
        exact differ means
    · obtain ⟨members', made', perm, same, differ⟩ := exists_unstable_swap collates made values names
      exact ⟨.object members', ⟨made', Json.areMembers_iff.mpr fun entry inside =>
        values entry (perm.mem_iff.mp inside)⟩, Json.membersFinite_iff.mpr fun entry inside =>
          all entry (perm.mem_iff.mp inside), same, differ⟩

/-! ## The digest -/

theorem stable_finite {v : Json} (value : v.IsValue) :
    v.IsFinite → (stableJson lib v).IsFinite := by
  refine value.induction (fun v plain => ?_) (fun items values ih => ?_)
    fun members made values ih => ?_
  · intro finite
    rw [stableJson_plain plain]
    exact finite
  · intro finite
    have all := Json.areFinite_iff.mp finite
    rw [stableJson, stableItems_eq]
    refine Json.areFinite_iff.mpr fun item there => ?_
    obtain ⟨own, listed, rfl⟩ := List.mem_map.mp there
    exact ih own listed (all own listed)
  · intro finite
    have all := Json.membersFinite_iff.mp finite
    rw [stableJson_object (Json.fromEntries_distinct made)]
    refine Json.membersFinite_iff.mpr fun entry there => ?_
    obtain ⟨own, listed, rfl⟩ := List.mem_map.mp there
    have inside := Json.ordered_perm.mem_iff.mp listed
    exact ih own inside (all own inside)

/-- A manifest has the digest of exactly the manifests that are equal up to the order of members,
if and only if no keys in it are tied. -/
theorem hashManifest_canonical_iff (collates : lib.Collates)
    (injective : Function.Injective lib.sha256) {members : List (String × Json)}
    (value : (Json.object members).IsValue) (finite : (Json.object members).IsFinite) :
    (∀ members', (Json.object members').IsValue → (Json.object members').IsFinite →
      (hashManifest lib (.object members) = hashManifest lib (.object members') ↔
        SameValue (.object members) (.object members'))) ↔ Untied lib (.object members) := by
  constructor
  · intro canonical
    by_contra tied
    obtain ⟨w, value', finite', same, differ⟩ := exists_unstable collates value finite tied
    have shape := same
    rw [SameValue] at shape
    obtain ⟨members', rfl, _⟩ := shape
    have equal := injective ((canonical members' value' finite').mpr same)
    exact differ (Json.meaning_eq_of_stringify equal)
  · intro untied members' value' finite'
    constructor
    · intro equal
      exact sameValue_of_stable value _ value' (Json.meaning_eq_of_stringify (injective equal))
    · intro same
      have means := stable_of_sameValue collates value untied _ value' same
      exact congrArg lib.sha256 (Json.stringify_of_meaning _ _ (stable_finite value finite)
        (stable_finite value' finite') means)

end

/-! ### A collation that takes canonically equivalent texts for equal -/

/-- A comparison by a rank. -/
theorem Libraries.Collates.of_rank {lib : Libraries} {α : Type*} [LinearOrder α] (rank : String → α)
    (less : ∀ left right, rank left < rank right → lib.localeCompare left right = -1)
    (equal : ∀ left right, rank left = rank right → lib.localeCompare left right = 0)
    (more : ∀ left right, rank right < rank left → lib.localeCompare left right = 1) :
    lib.Collates := by
  have le_iff (left right : String) : lib.localeCompare left right ≤ 0 ↔ rank left ≤ rank right := by
    rcases lt_trichotomy (rank left) (rank right) with below | same | above
    · simp [less left right below, below.le]
    · simp [equal left right same, same]
    · simp [more left right above, above.not_ge]
  have ge_iff (left right : String) : 0 ≤ lib.localeCompare left right ↔ rank right ≤ rank left := by
    rcases lt_trichotomy (rank left) (rank right) with below | same | above
    · simp [less left right below, below.not_ge]
    · simp [equal left right same, same]
    · simp [more left right above, above.le]
  refine ⟨fun a b => by rw [le_iff, ge_iff], fun {a b c} first second => ?_⟩
  rw [le_iff] at first second ⊢
  exact first.trans second

/-- A text with its accents apart from their letters. -/
def decomposed (text : String) : List Char :=
  text.toList.flatMap fun c => if c = 'é' then ['e', '\u0301'] else [c]

def accentLibraries : Libraries :=
  { releaseLibraries with
    localeCompare := fun left right =>
      if decomposed left < decomposed right then -1
      else if decomposed left = decomposed right then 0
      else 1 }

theorem accentLibraries_collates : accentLibraries.Collates := by
  refine .of_rank decomposed (fun left right below => if_pos below) (fun left right same => ?_)
    fun left right above => ?_
  · exact (if_neg (fun below => lt_irrefl _ (same ▸ below))).trans (if_pos same)
  · exact (if_neg above.not_gt).trans (if_neg above.ne')

theorem tagged_canonical :
    Untied accentLibraries (.object [("name", .string "a"), ("tags", .array [.string "x"])]) ∧
      ∀ members', (Json.object members').IsValue → (Json.object members').IsFinite →
        (hashManifest accentLibraries
            (.object [("name", .string "a"), ("tags", .array [.string "x"])]) =
          hashManifest accentLibraries (.object members') ↔
            SameValue (.object [("name", .string "a"), ("tags", .array [.string "x"])])
              (.object members')) := by
  have untied : Untied accentLibraries
      (.object [("name", .string "a"), ("tags", .array [.string "x"])]) := by
    have apart : accentLibraries.localeCompare "name" "tags" ≠ 0 := by decide
    exact ⟨List.pairwise_pair.mpr fun _ _ => apart, trivial, ⟨trivial, trivial⟩, trivial⟩
  have value : (Json.object [("name", .string "a"), ("tags", .array [.string "x"])]).IsValue :=
    ⟨rfl, trivial, ⟨trivial, trivial⟩, trivial⟩
  have finite : (Json.object [("name", .string "a"), ("tags", .array [.string "x"])]).IsFinite :=
    ⟨trivial, ⟨trivial, trivial⟩, trivial⟩
  exact ⟨untied, (hashManifest_canonical_iff accentLibraries_collates (fun _ _ same => same)
    value finite).mpr untied⟩

/-- An accented letter and the same letter with a combining accent are two keys that compare
equal. -/
theorem accents_misdigested :
    SameValue (.object [("é", .nat 1), ("e\u0301", .nat 2)])
        (.object [("e\u0301", .nat 2), ("é", .nat 1)]) ∧
      hashManifest accentLibraries (.object [("é", .nat 1), ("e\u0301", .nat 2)]) ≠
        hashManifest accentLibraries (.object [("e\u0301", .nat 2), ("é", .nat 1)]) := by
  constructor
  · refine Json.sameValue_object.mpr ⟨List.Perm.swap _ _ _, fun key value there => ?_⟩
    rcases List.mem_cons.mp there with same | there
    · cases same
      exact ⟨.nat 1, rfl, (Json.sameValue_plain rfl).mpr rfl⟩
    · cases List.mem_singleton.mp there
      exact ⟨.nat 2, rfl, (Json.sameValue_plain rfl).mpr rfl⟩
  · decide

end Registry
