import BirthHub.Data.KeyOrder
import BirthHub.Policies.Model

/-!
# Configs that are written back

A call writes the members of the config that it read, but for `managedPolicies`, which become
the merged policies. What is merged holds the policies that the call writes, and of every other
id what was there.
-/

namespace Policies

open Data

/-! ## Stored policies -/

theorem stringsOf_strings (actions : List String) :
    Agents.stringsOf (actions.map .string) = actions := by
  induction actions with
  | nil => rfl
  | cons action actions ih =>
      rw [List.map_cons, show Agents.stringsOf (.string action :: actions.map .string) =
        action :: Agents.stringsOf (actions.map .string) from rfl, ih]

theorem toPrismaItems_strings (actions : List String) :
    Packs.toPrismaItems (actions.map .string) = actions.map .string := by
  induction actions with
  | nil => rfl
  | cons action actions ih =>
      rw [List.map_cons, Packs.toPrismaItems, ih]
      rfl

/-- A stored policy is read as it was. -/
theorem parse_policyJson (policy : ManagedAgentPolicy) :
    parseManagedPolicy (policyJson policy) = some policy := by
  obtain ⟨actions, effect, enabled, id, name, reason⟩ := policy
  have same := stringsOf_strings actions
  cases enabled <;> cases reason <;> cases effect <;>
    simp [parseManagedPolicy, policyJson, Json.member, enabledMember, reasonMember, effectText,
      List.lookup, same]

/-- A policy is copied as it is. -/
theorem toPrisma_policyJson (policy : ManagedAgentPolicy) :
    Packs.toPrismaJsonValue (policyJson policy) = policyJson policy := by
  obtain ⟨actions, effect, enabled, id, name, reason⟩ := policy
  have same := toPrismaItems_strings actions
  have copied (members : List (String × Json)) (names : members.map Prod.fst ∈ [
        ["actions", "effect", "id", "name"], ["actions", "effect", "id", "name", "reason"],
        ["actions", "effect", "enabled", "id", "name"],
        ["actions", "effect", "enabled", "id", "name", "reason"]]) :
      Packs.assignMembers members = .object members := by
    have each : ∀ names ∈ [
        ["actions", "effect", "id", "name"], ["actions", "effect", "id", "name", "reason"],
        ["actions", "effect", "enabled", "id", "name"],
        ["actions", "effect", "enabled", "id", "name", "reason"]],
        names.Nodup ∧ ∀ name ∈ names, name ≠ "__proto__" ∧ Json.arrayIndex name = none := by
      decide
    obtain ⟨distinct, named⟩ := each _ names
    have all : members.filter (·.1 ≠ "__proto__") = members :=
      List.filter_eq_self.mpr fun member there =>
        decide_eq_true (named _ (List.mem_map_of_mem there)).1
    rw [Packs.assignMembers, all]
    exact Json.fromEntries_of_names distinct fun name there => (named _ there).2
  rw [policyJson, Packs.toPrismaJsonValue]
  cases enabled <;> cases reason <;>
    simp only [enabledMember, reasonMember, List.cons_append, List.nil_append,
      List.append_nil, Packs.toPrismaJsonValue, Packs.toPrismaMembers, same] <;>
    exact copied _ (by simp)

theorem toPrismaItems_policies (policies : List ManagedAgentPolicy) :
    Packs.toPrismaItems (policies.map policyJson) = policies.map policyJson := by
  induction policies with
  | nil => rfl
  | cons policy policies ih => rw [List.map_cons, Packs.toPrismaItems, ih, toPrisma_policyJson]

theorem filterMap_parse (policies : List ManagedAgentPolicy) :
    (policies.map policyJson).filterMap parseManagedPolicy = policies := by
  induction policies with
  | nil => rfl
  | cons policy policies ih =>
      rw [List.map_cons, List.filterMap_cons_some (parse_policyJson policy), ih]

/-! ## Members -/

section

variable {members : List (String × Json)}

/-- With distinct keys, what is listed last is set, and the rest is as it was. -/
theorem member_fromEntries_append (distinct : (members.map Prod.fst).Nodup)
    (key name : String) (value : Json) :
    (Json.fromEntries (members ++ [(name, value)])).member key =
      if key = name then some value else (Json.object members).member key := by
  by_cases same : key = name
  · subst same
    rw [if_pos rfl]
    exact Json.member_fromEntries nofun
  rw [if_neg same]
  cases found : members.lookup key with
  | some old =>
      obtain ⟨before, after, rfl, _⟩ := List.lookup_eq_some_iff.mp found
      rw [Json.member, found, List.append_assoc, List.cons_append]
      refine Json.member_fromEntries fun e late is => ?_
      rcases List.mem_append.mp late with late | late
      · rw [List.map_append, List.map_cons, List.nodup_append, List.nodup_cons] at distinct
        exact distinct.2.1.1 (List.mem_map.mpr ⟨e, late, is⟩)
      · rw [List.mem_singleton.mp late] at is
        exact same is.symm
  | none =>
      rw [Json.member, found]
      cases set : (Json.fromEntries (members ++ [(name, value)])).member key with
      | none => rfl
      | some new =>
          have there := Packs.mem_of_fromEntries rfl (Json.mem_of_lookup set)
          rcases List.mem_append.mp there with there | there
          · rw [(Json.lookup_eq_some distinct).mpr there] at found
            cases found
          · exact (same (congrArg Prod.fst (List.mem_singleton.mp there))).elim

/-- What is copied has the members that were there, but for `__proto__`. -/
theorem member_toPrisma (distinct : (members.map Prod.fst).Nodup) (key : String) :
    (Packs.toPrismaJsonValue (.object members)).member key =
      if key = "__proto__" then none
      else ((Json.object members).member key).map Packs.toPrismaJsonValue := by
  have keys : (((Packs.toPrismaMembers members).filter (·.1 ≠ "__proto__")).map Prod.fst).Nodup :=
    (Packs.toPrismaMembers_keys members ▸ distinct).sublist
      (List.Sublist.map Prod.fst List.filter_sublist)
  have copied {value : Json} : (Packs.toPrismaJsonValue (.object members)).member key = some value ↔
      (key, value) ∈ (Packs.toPrismaMembers members).filter (·.1 ≠ "__proto__") := by
    constructor
    · intro found
      exact Packs.mem_of_fromEntries rfl (Json.mem_of_lookup found)
    · intro there
      obtain ⟨before, after, shape⟩ := List.append_of_mem there
      rw [Packs.toPrismaJsonValue, Packs.assignMembers, shape]
      refine Json.member_fromEntries fun e late is => ?_
      rw [shape, List.map_append, List.map_cons, List.nodup_append, List.nodup_cons] at keys
      exact keys.2.1.1 (List.mem_map.mpr ⟨e, late, is⟩)
  refine Option.ext fun value => ?_
  rw [copied, List.mem_filter, Packs.mem_toPrismaMembers, decide_eq_true_eq]
  split
  · rename_i proto
    simp [proto]
  · rename_i other
    simp only [Option.map_eq_some_iff, Json.member, Json.lookup_eq_some distinct]
    constructor
    · rintro ⟨⟨given, inside, rfl⟩, _⟩
      exact ⟨given, inside, rfl⟩
    · rintro ⟨given, inside, rfl⟩
      exact ⟨⟨given, inside, rfl⟩, other⟩

end

/-! ## Configs -/

/-- The config is an object as `toPrismaJsonValue` writes it. -/
structure Written (config : Json) : Prop where
  object : ∃ members, config = .object members
  copied : Packs.toPrismaJsonValue config = config

/-- The config has the members of the first, but for `managedPolicies`. -/
structure Carries (first config : Json) : Prop where
  object : ∃ members, config = .object members ∧ (members.map Prod.fst).Nodup
  same : ∀ key ≠ "managedPolicies", config.member key = first.member key

theorem Written.members {members : List (String × Json)} (written : Written (.object members)) :
    (members.map Prod.fst).Nodup ∧ ∀ member ∈ members,
      member.1 ≠ "__proto__" ∧ Packs.toPrismaJsonValue member.2 = member.2 := by
  have copied : Json.fromEntries ((Packs.toPrismaMembers members).filter (·.1 ≠ "__proto__")) =
      .object members := by
    have same := written.copied
    rwa [Packs.toPrismaJsonValue] at same
  have distinct := Json.fromEntries_distinct copied
  refine ⟨distinct, fun member there => ?_⟩
  obtain ⟨inside, named⟩ := List.mem_filter.mp (Packs.mem_of_fromEntries copied there)
  obtain ⟨given, own, value⟩ := Packs.mem_toPrismaMembers.mp inside
  have equal := Prod.mk.inj (List.inj_on_of_nodup_map distinct there own rfl)
  exact ⟨by simpa using named, (value.trans (congrArg _ equal.2.symm)).symm⟩

theorem Written.carries {config : Json} (written : Written config) : Carries config config := by
  obtain ⟨members, rfl⟩ := written.object
  exact ⟨⟨members, rfl, written.members.1⟩, fun _ _ => rfl⟩

/-- The config that a call writes has the members that it read, and the policies. -/
theorem member_updatedConfig {config : Json} (policies : List ManagedAgentPolicy)
    {members : List (String × Json)} (shape : config = .object members)
    (distinct : (members.map Prod.fst).Nodup) (key : String) :
    (updatedConfig config policies).member key =
      if key = "__proto__" then none
      else if key = "managedPolicies" then some (.array (policies.map policyJson))
      else (config.member key).map Packs.toPrismaJsonValue := by
  subst shape
  have merged := member_fromEntries_append distinct key "managedPolicies"
    (.array (policies.map policyJson))
  cases made : Json.fromEntries (members ++ [("managedPolicies",
      .array (policies.map policyJson))]) with
  | object entries =>
      rw [updatedConfig, normalizeConfigObject, made,
        member_toPrisma (Json.fromEntries_distinct made), ← made, merged]
      split
      · rfl
      split
      · rw [Option.map_some, Packs.toPrismaJsonValue, toPrismaItems_policies]
      · rfl
  | _ => cases made

theorem Carries.updated {first config : Json} {policies : List ManagedAgentPolicy}
    (written : Written first) (carries : Carries first config) :
    Carries first (updatedConfig config policies) := by
  obtain ⟨members, shape, distinct⟩ := carries.object
  refine ⟨?_, fun key other => ?_⟩
  · cases made : updatedConfig config policies with
    | object entries =>
        refine ⟨entries, rfl, ?_⟩
        cases merged : Json.fromEntries (normalizeConfigObject config ++
            [("managedPolicies", .array (policies.map policyJson))]) with
        | object members =>
            rw [updatedConfig, merged, Packs.toPrismaJsonValue] at made
            exact Json.fromEntries_distinct made
        | _ => cases merged
    | _ => cases made
  · rw [member_updatedConfig policies shape distinct, if_neg other, carries.same key other]
    obtain ⟨given, rfl⟩ := written.object
    obtain ⟨keys, each⟩ := written.members
    cases found : (Json.object given).member key with
    | none => split <;> rfl
    | some value =>
        obtain ⟨named, copied⟩ := each _ (Json.mem_of_lookup found)
        rw [if_neg named, Option.map_some, copied]

/-- The policies that are stored under an id. -/
def policiesOf (id : String) (config : Json) : List ManagedAgentPolicy :=
  (parseAgentConfig config).managedPolicies.filter (·.id = id)

/-- The policies are read as they were written. -/
theorem managedPolicies_updatedConfig {first config : Json} (policies : List ManagedAgentPolicy)
    (carries : Carries first config) :
    (updatedConfig config policies).member "managedPolicies" =
      some (.array (policies.map policyJson)) ∧
    (parseAgentConfig (updatedConfig config policies)).managedPolicies = policies := by
  obtain ⟨members, shape, distinct⟩ := carries.object
  have stored := member_updatedConfig policies shape distinct "managedPolicies"
  rw [if_neg (by decide), if_pos rfl] at stored
  refine ⟨stored, ?_⟩
  simp only [parseAgentConfig, stored]
  exact filterMap_parse policies

/-! ## Merging -/

/-- The policy is there, and the only one with its id. -/
def IsOnly (policy : ManagedAgentPolicy) (policies : List ManagedAgentPolicy) : Prop :=
  policy ∈ policies ∧ ∀ other ∈ policies, other.id = policy.id → other = policy

/-- The merged policies have those that are written, and of other ids what was there. -/
structure Merges (current written merged : List ManagedAgentPolicy) : Prop where
  own : ∀ policy ∈ written, IsOnly policy merged
  kept : ∀ policy, (∀ other ∈ written, other.id ≠ policy.id) → IsOnly policy current →
    IsOnly policy merged
  known : ∀ policy ∈ merged, policy ∈ written ∨ policy ∈ current
  there : ∀ policy ∈ current, ∃ other ∈ merged, other.id = policy.id

theorem mem_lastById {policies : List ManagedAgentPolicy} {policy : ManagedAgentPolicy} :
    policy ∈ lastById policies ↔ OrderedMap.IsLast ManagedAgentPolicy.id policies policy :=
  OrderedMap.mem_values_setAll

/-- Policies with different ids are the last ones of their ids. -/
theorem isLast_append {current written : List ManagedAgentPolicy}
    (distinct : (written.map ManagedAgentPolicy.id).Nodup) {policy : ManagedAgentPolicy} :
    OrderedMap.IsLast ManagedAgentPolicy.id (current ++ written) policy ↔
      policy ∈ written ∨ (∀ own ∈ written, own.id ≠ policy.id) ∧
        OrderedMap.IsLast ManagedAgentPolicy.id current policy := by
  constructor
  · rintro ⟨before, after, split, others⟩
    rcases List.append_eq_append_iff.mp split with ⟨part, rfl, rest⟩ | ⟨part, rfl, rest⟩
    · exact .inl (rest ▸ List.mem_append_right _ List.mem_cons_self)
    · cases part with
      | nil =>
          rw [List.nil_append] at rest
          exact .inl (rest ▸ List.mem_cons_self)
      | cons head part =>
          obtain ⟨rfl, rfl⟩ := List.cons.inj rest
          exact .inr ⟨fun own inside => others own (List.mem_append_right _ inside),
            before, part, rfl, fun other late => others other (List.mem_append_left _ late)⟩
  · rintro (inside | ⟨apart, before, after, rfl, others⟩)
    · obtain ⟨before, after, rfl⟩ := List.append_of_mem inside
      refine ⟨current ++ before, after, by simp, fun other late same => ?_⟩
      rw [List.map_append, List.map_cons, List.nodup_append, List.nodup_cons] at distinct
      exact distinct.2.1.1 (List.mem_map.mpr ⟨other, late, same⟩)
    · refine ⟨before, after ++ written, by simp, fun other late => ?_⟩
      rcases List.mem_append.mp late with late | own
      · exact others other late
      · exact apart other own

/-- Of each id there is a last policy. -/
theorem exists_mem_lastById {policies : List ManagedAgentPolicy} {policy : ManagedAgentPolicy}
    (inside : policy ∈ policies) : ∃ last ∈ lastById policies, last.id = policy.id := by
  have there : (policies.reverse.find? (decide <| ·.id = policy.id)).isSome := by
    rw [List.find?_isSome]
    exact ⟨policy, List.mem_reverse.mpr inside, decide_eq_true rfl⟩
  obtain ⟨last, found⟩ := Option.isSome_iff_exists.mp there
  refine ⟨last, OrderedMap.mem_values.mpr ⟨policy.id, ?_⟩, by simpa using List.find?_some found⟩
  rw [OrderedMap.get_setAll, found]
  rfl

theorem only_of_isLast {policies : List ManagedAgentPolicy} {policy : ManagedAgentPolicy}
    (only : IsOnly policy policies) : OrderedMap.IsLast ManagedAgentPolicy.id policies policy := by
  obtain ⟨last, inside, same⟩ := exists_mem_lastById only.1
  have isLast := mem_lastById.mp inside
  rw [← only.2 last isLast.mem same]
  exact isLast

theorem lastById_merges {current written : List ManagedAgentPolicy}
    (distinct : (written.map ManagedAgentPolicy.id).Nodup) :
    Merges current written (lastById (current ++ written)) := by
  have among {policy : ManagedAgentPolicy} : policy ∈ lastById (current ++ written) ↔
      policy ∈ written ∨ (∀ own ∈ written, own.id ≠ policy.id) ∧
        OrderedMap.IsLast ManagedAgentPolicy.id current policy :=
    mem_lastById.trans (isLast_append distinct)
  constructor
  case own =>
    intro policy inside
    refine ⟨among.mpr (.inl inside), fun other there same => ?_⟩
    rcases among.mp there with own | ⟨apart, _⟩
    · exact List.inj_on_of_nodup_map distinct own inside same
    · exact (apart policy inside same.symm).elim
  case kept =>
    intro policy apart only
    refine ⟨among.mpr (.inr ⟨apart, only_of_isLast only⟩), fun other there same => ?_⟩
    rcases among.mp there with own | ⟨_, isLast⟩
    · exact (apart other own same).elim
    · exact only.2 other isLast.mem same
  case known =>
    intro policy there
    rcases among.mp there with own | ⟨_, isLast⟩
    · exact .inl own
    · exact .inr isLast.mem
  case there =>
    intro policy inside
    exact exists_mem_lastById (List.mem_append_left _ inside)

theorem Merges.perm {current written merged merged' : List ManagedAgentPolicy}
    (perm : merged'.Perm merged) (merges : Merges current written merged) :
    Merges current written merged' := by
  have only {policy : ManagedAgentPolicy} (only : IsOnly policy merged) : IsOnly policy merged' :=
    ⟨perm.mem_iff.mpr only.1, fun other there => only.2 other (perm.mem_iff.mp there)⟩
  constructor
  case own => exact fun policy inside => only (merges.own policy inside)
  case kept => exact fun policy apart before => only (merges.kept policy apart before)
  case known => exact fun policy there => merges.known policy (perm.mem_iff.mp there)
  case there =>
    intro policy inside
    obtain ⟨other, there, same⟩ := merges.there policy inside
    exact ⟨other, perm.mem_iff.mpr there, same⟩

theorem mergeManagedPolicies_merges (localeCompare : String → String → Int)
    (current : List ManagedAgentPolicy) (next : ManagedAgentPolicy) :
    Merges current [next] (mergeManagedPolicies localeCompare current next) := by
  have merges : Merges current [next] (lastById (current ++ [next])) :=
    lastById_merges (List.nodup_singleton next.id)
  exact merges.perm (List.perm_insertionSort _ _)

/-- A policy that is there is replaced by one with its id. -/
theorem replaced_merges {current : List ManagedAgentPolicy} {old next : ManagedAgentPolicy}
    (inside : old ∈ current) (same : next.id = old.id) :
    Merges current [next]
      (current.map fun policy => if policy.id = old.id then next else policy) := by
  have cases {policy : ManagedAgentPolicy}
      (there : policy ∈ current.map fun policy => if policy.id = old.id then next else policy) :
      policy = next ∨ policy ∈ current ∧ policy.id ≠ old.id := by
    obtain ⟨before, listed, is⟩ := List.mem_map.mp there
    split at is
    · exact .inl is.symm
    · rename_i other
      exact .inr (is ▸ ⟨listed, other⟩)
  constructor
  case own =>
    intro policy own
    obtain rfl := List.mem_singleton.mp own
    refine ⟨List.mem_map.mpr ⟨old, inside, if_pos rfl⟩, fun other there is => ?_⟩
    rcases cases there with rfl | ⟨_, apart⟩
    · rfl
    · exact (apart (is.trans same)).elim
  case kept =>
    intro policy apart only
    have other : policy.id ≠ old.id := fun is =>
      apart next (List.mem_singleton_self _) (same.trans is.symm)
    refine ⟨List.mem_map.mpr ⟨policy, only.1, if_neg other⟩, fun found there is => ?_⟩
    rcases cases there with rfl | ⟨listed, _⟩
    · exact (other (is.symm.trans same)).elim
    · exact only.2 found listed is
  case known =>
    intro policy there
    rcases cases there with rfl | ⟨listed, _⟩
    · exact .inl (List.mem_singleton_self _)
    · exact .inr listed
  case there =>
    intro policy listed
    refine ⟨_, List.mem_map.mpr ⟨policy, listed, rfl⟩, ?_⟩
    split
    · rename_i is
      rw [same, is]
    · rfl

end Policies
