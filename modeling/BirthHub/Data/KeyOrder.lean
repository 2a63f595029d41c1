import BirthHub.Data.SchemaKeeps

/-!
# Members in an order of their keys

Members are sorted by their keys and made an object of, in which array indices come first. Two
objects with the same members are then written alike if no two other keys are tied; keys that are
tied stay as they were. `SameValue` is equality of JSON values up to the order of members.
-/

namespace Data

namespace Json

/-! ## Entries with different keys -/

theorem foldl_setMember {entries before : List (String × Json)}
    (distinct : ((before ++ entries).map Prod.fst).Nodup) :
    entries.foldl (fun ms e => setMember ms e.1 e.2) before = before ++ entries := by
  induction entries generalizing before with
  | nil => rw [List.append_nil, List.foldl_nil]
  | cons entry entries ih =>
      have absent : before.any (·.1 == entry.1) = false := by
        rw [List.any_eq_false]
        intro earlier there same
        rw [List.map_append, List.map_cons, List.nodup_append] at distinct
        exact distinct.2.2 _ (List.mem_map_of_mem there) _ List.mem_cons_self (by simpa using same)
      have set : setMember before entry.1 entry.2 = before ++ [entry] := by
        rw [setMember, if_neg (by simp [absent])]
      rw [List.foldl_cons, set, ih (by simpa using distinct), List.append_assoc,
        List.singleton_append]

theorem fromEntries_of_distinct {entries : List (String × Json)}
    (distinct : (entries.map Prod.fst).Nodup) :
    fromEntries entries = .object (propertyOrder entries) := by
  have built := @foldl_setMember entries [] distinct
  rw [List.nil_append] at built
  rw [fromEntries, built]

theorem fromEntries_of_names {entries : List (String × Json)}
    (distinct : (entries.map Prod.fst).Nodup)
    (names : ∀ name ∈ entries.map Prod.fst, arrayIndex name = none) :
    fromEntries entries = .object entries := by
  have each : ∀ entry ∈ entries, arrayIndex entry.1 = none := fun entry there =>
    names entry.1 (List.mem_map_of_mem there)
  have none' : entries.filter (fun entry => (arrayIndex entry.1).isSome) = [] :=
    List.filter_eq_nil_iff.mpr fun entry there => by simp [each entry there]
  have all : entries.filter (fun entry => (arrayIndex entry.1).isNone) = entries :=
    List.filter_eq_self.mpr fun entry there => by simp [each entry there]
  rw [fromEntries_of_distinct distinct, propertyOrder, none', all]
  rfl

/-! ## Array indices -/

theorem foldl_digits (digits : List Char) :
    digits.foldl (fun n c => 10 * n + (c.toNat - 48)) 0 =
      Nat.ofDigits 10 (digits.reverse.map fun c => c.toNat - 48) := by
  rw [Nat.ofDigits_eq_foldr, List.foldr_map, List.foldr_reverse]
  congr 1
  funext n c
  exact Nat.add_comm _ _

theorem digit_bounds {c : Char} (digit : c.isDigit = true) : 48 ≤ c.toNat ∧ c.toNat ≤ 57 := by
  rw [Char.isDigit, Bool.and_eq_true, decide_eq_true_eq, decide_eq_true_eq] at digit
  exact digit

/-- A key spells zero, or its digits are those of the index. -/
theorem spelled_arrayIndex {key : String} {n : Nat} (index : arrayIndex key = some n) :
    key.toList = ['0'] ∧ n = 0 ∨
      n ≠ 0 ∧ key.toList.all Char.isDigit = true ∧
        Nat.digits 10 n = key.toList.reverse.map fun c => c.toNat - 48 := by
  unfold arrayIndex at index
  dsimp only at index
  split at index
  · rename_i shape
    obtain ⟨nonempty, digits, leading⟩ := shape
    split at index
    · have value := Option.some.inj index
      rw [foldl_digits] at value
      by_cases zero : key.toList.head? = some '0'
      · obtain ⟨rest, shape⟩ := List.head?_eq_some_iff.mp zero
        have single := leading zero
        rw [shape, List.length_cons] at single
        have none' : rest = [] := List.length_eq_zero_iff.mp (by omega)
        rw [none'] at shape
        rw [shape] at value
        exact .inl ⟨shape, value.symm⟩
      · have each : ∀ d ∈ key.toList.reverse.map (fun c => c.toNat - 48), d < 10 := by
          intro d there
          obtain ⟨c, listed, rfl⟩ := List.mem_map.mp there
          have bounds := digit_bounds (List.all_eq_true.mp digits c (List.mem_reverse.mp listed))
          omega
        have last : ∀ h : key.toList.reverse.map (fun c => c.toNat - 48) ≠ [],
            (key.toList.reverse.map fun c => c.toNat - 48).getLast h ≠ 0 := by
          intro some'
          rw [List.getLast_map, List.getLast_reverse]
          intro small
          have head := List.head?_eq_some_head nonempty
          have bounds := digit_bounds (List.all_eq_true.mp digits _ (List.head_mem nonempty))
          have code : (key.toList.head nonempty).toNat = '0'.toNat :=
            Nat.le_antisymm (Nat.le_of_sub_eq_zero small) bounds.1
          rw [Char.toNat_inj.mp code] at head
          exact zero head
        have spelled := Nat.digits_ofDigits 10 (by decide) _ each last
        rw [value] at spelled
        refine .inr ⟨?_, digits, spelled⟩
        rintro rfl
        rw [Nat.digits_zero] at spelled
        exact nonempty (List.reverse_eq_nil_iff.mp (List.map_eq_nil_iff.mp spelled.symm))
    · cases index
  · cases index

theorem arrayIndex_injective {key key' : String} {n : Nat} (index : arrayIndex key = some n)
    (index' : arrayIndex key' = some n) : key = key' := by
  have back {digits : List Char} (all : digits.all Char.isDigit = true) :
      (digits.reverse.map fun c => c.toNat - 48).map (fun d => Char.ofNat (48 + d)) =
        digits.reverse := by
    have each : ∀ c ∈ digits.reverse,
        ((fun d => Char.ofNat (48 + d)) ∘ fun c : Char => c.toNat - 48) c = id c := by
      intro c listed
      have bounds := digit_bounds (List.all_eq_true.mp all c (List.mem_reverse.mp listed))
      have code : 48 + (c.toNat - 48) = c.toNat := by omega
      rw [Function.comp_apply, code, Char.ofNat_toNat, id]
    rw [List.map_map, List.map_congr_left each, List.map_id]
  rw [← String.toList_inj]
  rcases spelled_arrayIndex index with ⟨zero, none'⟩ | ⟨positive, digits, spelled⟩
  · rcases spelled_arrayIndex index' with ⟨zero', _⟩ | ⟨positive', _⟩
    · rw [zero, zero']
    · exact absurd none' positive'
  · rcases spelled_arrayIndex index' with ⟨_, none'⟩ | ⟨_, digits', spelled'⟩
    · exact absurd none' positive
    · rw [← List.reverse_inj, ← back digits, ← back digits', ← spelled, ← spelled']

/-! ## Sorted members -/

section Ordered

variable (before : String → String → Prop) [DecidableRel before]

/-- The members of an object that is made of members in the order of their keys. -/
def ordered (members : List (String × Json)) : List (String × Json) :=
  propertyOrder (members.insertionSort fun left right => before left.1 right.1)

variable {before} {members members' : List (String × Json)}

theorem ordered_perm : (ordered before members).Perm members :=
  propertyOrder_perm.trans (List.perm_insertionSort _ _)

theorem ordered_mapEntries {change : String × Json → String × Json}
    (same : ∀ entry, (change entry).1 = entry.1) :
    ordered before (members.map change) = (ordered before members).map change := by
  have sorted : (members.map change).insertionSort (fun left right => before left.1 right.1) =
      (members.insertionSort fun left right => before left.1 right.1).map change :=
    (List.map_insertionSort (r := fun left right : String × Json => before left.1 right.1)
      (s := fun left right : String × Json => before left.1 right.1) change members
      fun a _ b _ => by rw [same, same]).symm
  rw [ordered, sorted, propertyOrder_mapEntries same, ordered]

theorem entry_unique (distinct : (members.map Prod.fst).Nodup) {a b : String × Json}
    (there : a ∈ members) (there' : b ∈ members) (same : a.1 = b.1) : a = b :=
  List.inj_on_of_nodup_map distinct there there' same

/-- The order of the members that are sorted does not matter, if no two keys other than indices
are tied. -/
theorem ordered_eq (total : ∀ a b, before a b ∨ before b a)
    (trans : ∀ {a b c}, before a b → before b c → before a c)
    (distinct : (members.map Prod.fst).Nodup) (perm : members.Perm members')
    (strict : ∀ a ∈ members, ∀ b ∈ members, arrayIndex a.1 = none → arrayIndex b.1 = none →
      before a.1 b.1 → before b.1 a.1 → a.1 = b.1) :
    ordered before members = ordered before members' := by
  let byKey (left right : String × Json) : Prop := before left.1 right.1
  let byIndex (a b : String × Json) : Prop := (arrayIndex a.1).getD 0 ≤ (arrayIndex b.1).getD 0
  have totalKey : Std.Total byKey := ⟨fun a b => total a.1 b.1⟩
  have transKey : IsTrans (String × Json) byKey := ⟨fun _ _ _ => trans⟩
  have totalIndex : Std.Total byIndex := ⟨fun a b => Nat.le_total _ _⟩
  have transIndex : IsTrans (String × Json) byIndex := ⟨fun _ _ _ => Nat.le_trans⟩
  have sorted : (members.insertionSort byKey).Perm (members'.insertionSort byKey) :=
    (List.perm_insertionSort _ _).trans (perm.trans (List.perm_insertionSort _ _).symm)
  have own {a : String × Json} (there : a ∈ members.insertionSort byKey) : a ∈ members :=
    (List.mem_insertionSort byKey).mp there
  have own' {a : String × Json} (there : a ∈ members'.insertionSort byKey) : a ∈ members :=
    perm.mem_iff.mpr ((List.mem_insertionSort byKey).mp there)
  refine congrArg₂ (· ++ ·) ?_ ?_
  · refine List.Perm.eq_of_pairwise ?_ (List.pairwise_insertionSort byIndex _)
      (List.pairwise_insertionSort byIndex _) ((List.perm_insertionSort _ _).trans
        ((sorted.filter _).trans (List.perm_insertionSort _ _).symm))
    intro a b first second le ge
    obtain ⟨listed, indexed⟩ := List.mem_filter.mp ((List.mem_insertionSort byIndex).mp first)
    obtain ⟨listed', indexed'⟩ := List.mem_filter.mp ((List.mem_insertionSort byIndex).mp second)
    obtain ⟨n, index⟩ := Option.isSome_iff_exists.mp indexed
    obtain ⟨n', index'⟩ := Option.isSome_iff_exists.mp indexed'
    have equal : n = n' := by
      simp only [byIndex, index, index', Option.getD_some] at le ge
      omega
    rw [← equal] at index'
    exact entry_unique distinct (own listed) (own' listed') (arrayIndex_injective index index')
  · refine List.Perm.eq_of_pairwise ?_
      ((List.pairwise_insertionSort byKey _).sublist List.filter_sublist)
      ((List.pairwise_insertionSort byKey _).sublist List.filter_sublist) (sorted.filter _)
    intro a b first second le ge
    obtain ⟨listed, named⟩ := List.mem_filter.mp first
    obtain ⟨listed', named'⟩ := List.mem_filter.mp second
    exact entry_unique distinct (own listed) (own' listed')
      (strict a (own listed) b (own' listed') (Option.isNone_iff_eq_none.mp named)
        (Option.isNone_iff_eq_none.mp named') le ge)

/-- Members with keys that are tied stay in their order. -/
theorem ordered_pair {a b : String × Json} (pair : [a, b].Sublist members)
    (named : arrayIndex a.1 = none) (named' : arrayIndex b.1 = none) (le : before a.1 b.1) :
    [a, b].Sublist (ordered before members) := by
  have sorted := List.pair_sublist_insertionSort
    (r := fun left right : String × Json => before left.1 right.1) le pair
  have kept := sorted.filter fun m => (arrayIndex m.1).isNone
  rw [List.filter_cons_of_pos (by rw [named]; rfl), List.filter_cons_of_pos (by rw [named']; rfl),
    List.filter_nil] at kept
  exact kept.trans (List.sublist_append_right _ _)

/-- Two members of an object with names for keys can come in the other order. -/
theorem exists_swapped {a b : String × Json} (made : fromEntries members = .object members)
    (pair : [a, b].Sublist members) (named : arrayIndex a.1 = none) (named' : arrayIndex b.1 = none) :
    ∃ members', fromEntries members' = .object members' ∧ members'.Perm members ∧
      [b, a].Sublist members' := by
  let byIndex (a b : String × Json) : Prop := (arrayIndex a.1).getD 0 ≤ (arrayIndex b.1).getD 0
  have totalIndex : Std.Total byIndex := ⟨fun a b => Nat.le_total _ _⟩
  have transIndex : IsTrans (String × Json) byIndex := ⟨fun _ _ _ => Nat.le_trans⟩
  have distinct := fromEntries_distinct made
  have own : propertyOrder members = members := by
    rw [fromEntries_of_distinct distinct] at made
    exact Json.object.inj made
  let indexed := (members.filter fun m => (arrayIndex m.1).isSome).insertionSort byIndex
  let names := members.filter fun m => (arrayIndex m.1).isNone
  have perm : (indexed ++ names.reverse).Perm members := by
    have parts : (indexed ++ names).Perm members := List.Perm.of_eq own
    exact ((List.Perm.refl indexed).append (List.reverse_perm names)).trans parts
  have distinct' : ((indexed ++ names.reverse).map Prod.fst).Nodup :=
    (perm.map Prod.fst).nodup_iff.mpr distinct
  refine ⟨indexed ++ names.reverse, ?_, perm, ?_⟩
  · have isIndex : ∀ m ∈ indexed, (arrayIndex m.1).isSome = true := fun m there =>
      (List.mem_filter.mp ((List.mem_insertionSort byIndex).mp there)).2
    have isName : ∀ m ∈ names.reverse, (arrayIndex m.1).isNone = true := fun m there =>
      (List.mem_filter.mp (List.mem_reverse.mp there)).2
    have first : (indexed ++ names.reverse).filter (fun m => (arrayIndex m.1).isSome) = indexed := by
      rw [List.filter_append, List.filter_eq_self.mpr isIndex, List.filter_eq_nil_iff.mpr, List.append_nil]
      intro m there
      simp [Option.isNone_iff_eq_none.mp (isName m there)]
    have second : (indexed ++ names.reverse).filter (fun m => (arrayIndex m.1).isNone) =
        names.reverse := by
      rw [List.filter_append, List.filter_eq_self.mpr isName, List.filter_eq_nil_iff.mpr, List.nil_append]
      intro m there
      simpa using Option.isSome_iff_ne_none.mp (isIndex m there)
    have sorted : indexed.insertionSort byIndex = indexed :=
      List.Pairwise.insertionSort_eq (List.pairwise_insertionSort _ _)
    rw [fromEntries_of_distinct distinct', propertyOrder, first, second]
    exact congrArg (fun sorted => Json.object (sorted ++ names.reverse)) sorted
  · have kept := (pair.filter fun m => (arrayIndex m.1).isNone).reverse
    rw [List.filter_cons_of_pos (by rw [named]; rfl), List.filter_cons_of_pos (by rw [named']; rfl),
      List.filter_nil] at kept
    exact kept.trans (List.sublist_append_right _ _)

end Ordered

/-! ## Equality up to the order of members -/

theorem meaningMembers_eq (members : List (String × Json)) :
    meaningMembers members = members.map (Prod.map id meaning) := by
  induction members with
  | nil => rfl
  | cons member members ih => rw [meaningMembers, ih, List.map_cons, Prod.map, id]

theorem areValues_iff {items : List Json} : AreValues items ↔ ∀ item ∈ items, item.IsValue := by
  refine ⟨fun values item => AreValues.mem values, fun all => ?_⟩
  induction items with
  | nil => trivial
  | cons item items ih =>
      exact ⟨all item List.mem_cons_self, ih fun other there => all other (List.mem_cons_of_mem _ there)⟩

theorem areMembers_iff {members : List (String × Json)} :
    AreMembers members ↔ ∀ member ∈ members, member.2.IsValue := by
  refine ⟨fun values member => AreMembers.mem values, fun all => ?_⟩
  induction members with
  | nil => trivial
  | cons member members ih =>
      exact ⟨all member List.mem_cons_self, ih fun other there => all other (List.mem_cons_of_mem _ there)⟩

mutual

/-- Equal as JSON values, up to the order of the members of objects. -/
def SameValue : Json → Json → Prop
  | .array items, w => ∃ items', w = .array items' ∧ SameItems items items'
  | .object members, w => ∃ members', w = .object members' ∧
      (members.map Prod.fst).Perm (members'.map Prod.fst) ∧ SameMembers members members'
  | v, w => v.meaning = w.meaning

def SameItems : List Json → List Json → Prop
  | [], items' => items' = []
  | item :: items, items' => ∃ item' rest, items' = item' :: rest ∧
      SameValue item item' ∧ SameItems items rest

/-- Each member has a value under its key on the other side. -/
def SameMembers : List (String × Json) → List (String × Json) → Prop
  | [], _ => True
  | (key, value) :: members, members' =>
      (∃ value', members'.lookup key = some value' ∧ SameValue value value') ∧
        SameMembers members members'

end

theorem sameMembers_iff {members members' : List (String × Json)} :
    SameMembers members members' ↔ ∀ key value, (key, value) ∈ members →
      ∃ value', members'.lookup key = some value' ∧ SameValue value value' := by
  induction members with
  | nil => simp [SameMembers]
  | cons member members ih =>
      obtain ⟨key, value⟩ := member
      rw [SameMembers, ih]
      constructor
      · rintro ⟨first, rest⟩ key' value' there
        rcases List.mem_cons.mp there with same | there
        · cases same
          exact first
        · exact rest key' value' there
      · intro all
        exact ⟨all key value List.mem_cons_self,
          fun key' value' there => all key' value' (List.mem_cons_of_mem _ there)⟩

theorem sameItems_iff {items items' : List Json} :
    SameItems items items' ↔ List.Forall₂ SameValue items items' := by
  induction items generalizing items' with
  | nil => rw [SameItems, List.forall₂_nil_left_iff]
  | cons item items ih =>
      rw [SameItems, List.forall₂_cons_left_iff]
      simp only [ih]
      constructor
      · rintro ⟨item', rest, rfl, same, all⟩
        exact ⟨item', rest, same, all, rfl⟩
      · rintro ⟨item', rest, same, all, rfl⟩
        exact ⟨item', rest, rfl, same, all⟩

theorem sameValue_plain {v w : Json} (plain : v.isObject = false) :
    SameValue v w ↔ v.meaning = w.meaning := by
  cases v with
  | array _ | object _ => cases plain
  | null | bool _ | number _ | string _ => rw [SameValue] <;> simp

theorem sameValue_array {items items' : List Json} :
    SameValue (.array items) (.array items') ↔ List.Forall₂ SameValue items items' := by
  rw [SameValue, ← sameItems_iff]
  constructor
  · rintro ⟨own, same, all⟩
    rw [Json.array.inj same]
    exact all
  · exact fun all => ⟨items', rfl, all⟩

theorem sameValue_object {members members' : List (String × Json)} :
    SameValue (.object members) (.object members') ↔
      (members.map Prod.fst).Perm (members'.map Prod.fst) ∧
        ∀ key value, (key, value) ∈ members →
          ∃ value', members'.lookup key = some value' ∧ SameValue value value' := by
  rw [SameValue, ← sameMembers_iff]
  constructor
  · rintro ⟨own, same, all⟩
    rw [Json.object.inj same]
    exact all
  · exact fun all => ⟨members', rfl, all⟩

/-- Induction on a value: a member of an object is a value too. -/
@[elab_as_elim]
theorem IsValue.induction {motive : Json → Prop} {v : Json} (value : v.IsValue)
    (plain : ∀ v : Json, v.isObject = false → motive v)
    (array : ∀ items : List Json, (∀ item ∈ items, item.IsValue) → (∀ item ∈ items, motive item) →
      motive (.array items))
    (object : ∀ members : List (String × Json), fromEntries members = .object members →
      (∀ member ∈ members, member.2.IsValue) → (∀ member ∈ members, motive member.2) →
      motive (.object members)) : motive v := by
  match v, value with
  | .array items, values =>
      refine array items (areValues_iff.mp values) fun item there => ?_
      have smaller := List.sizeOf_lt_of_mem there
      exact IsValue.induction (AreValues.mem values there) plain array object
  | .object members, ⟨made, values⟩ =>
      refine object members made (areMembers_iff.mp values) fun member there => ?_
      have smaller := List.sizeOf_lt_of_mem there
      exact IsValue.induction (AreMembers.mem values there) plain array object
  | .null, _ | .bool _, _ | .number _, _ | .string _, _ => exact plain _ rfl
termination_by sizeOf v
decreasing_by
  · simp only [Json.array.sizeOf_spec]
    omega
  · obtain ⟨key, own⟩ := member
    simp only [Prod.mk.sizeOf_spec, Json.object.sizeOf_spec] at smaller ⊢
    omega

theorem sameValue_refl {v : Json} (value : v.IsValue) : SameValue v v := by
  refine value.induction (fun v plain => ?_) (fun items _ ih => ?_) fun members made _ ih => ?_
  · exact (sameValue_plain plain).mpr rfl
  · exact sameValue_array.mpr (List.forall₂_same.mpr ih)
  · exact sameValue_object.mpr ⟨.refl _, fun key own there =>
      ⟨own, (lookup_eq_some (fromEntries_distinct made)).mpr there, ih (key, own) there⟩⟩

/-- Whether a value is an array or an object. -/
def isNested : Value → Bool
  | .array _ | .object _ => true
  | _ => false

theorem isNested_meaning (v : Json) : isNested v.meaning = v.isObject := by
  cases v with
  | number n =>
      unfold Json.meaning
      cases n.value <;> rfl
  | null | bool _ | string _ | array _ | object _ => rfl

theorem isObject_of_meaning {v w : Json} (same : v.meaning = w.meaning) : v.isObject = w.isObject := by
  rw [← isNested_meaning, same, isNested_meaning]

theorem SameValue.isObject {v w : Json} (same : SameValue v w) : v.isObject = w.isObject := by
  cases v with
  | array items =>
      rw [SameValue] at same
      obtain ⟨items', rfl, _⟩ := same
      rfl
  | object members =>
      rw [SameValue] at same
      obtain ⟨members', rfl, _⟩ := same
      rfl
  | null | bool _ | number _ | string _ =>
      exact isObject_of_meaning ((sameValue_plain rfl).mp same)

end Json

end Data
