import BirthHub.Agents.Policy

/-!
# The store of managed policies

`InMemoryPolicyAdminStore` and `createPolicyTemplate` of `packages/agents-core`. The store lists
the policies of one agent of one tenant, but it keeps the policies of all of them in one map under
their ids, and the rules of a template have the same ids for every agent. So a policy of one agent
may take the place of a policy of another.
-/

namespace Agents

open Data

/-! ## Templates -/

inductive PolicyTemplateName
  | admin
  | readonly
  | standard
deriving DecidableEq

def PolicyTemplateName.text : PolicyTemplateName → String
  | .admin => "admin"
  | .readonly => "readonly"
  | .standard => "standard"

structure TemplateRule where
  action : String
  effect : PolicyEffect
  reason : String

def templateRules : PolicyTemplateName → List TemplateRule
  | .readonly => [
      ⟨"tool.http", .allow, "Read-only template allows HTTP reads."⟩,
      ⟨"tool.db-read", .allow, "Read-only template allows query-only access."⟩,
      ⟨"tool.db-write", .deny, "Read-only template blocks mutations."⟩,
      ⟨"tool.send-email", .deny, "Read-only template blocks external messages."⟩]
  | .standard => [
      ⟨"tool.http", .allow, "Standard template allows HTTP tool."⟩,
      ⟨"tool.db-read", .allow, "Standard template allows read access."⟩,
      ⟨"tool.db-write", .allow, "Standard template allows controlled writes."⟩,
      ⟨"tool.send-email", .allow, "Standard template allows email notifications."⟩]
  | .admin => [⟨"tool.*", .allow, "Admin template grants full tool access."⟩]

def createPolicyTemplate (template : PolicyTemplateName) (tenantId agentId : String) :
    List PolicyRule :=
  (templateRules template).mapIdx fun index rule => {
    action := rule.action
    effect := rule.effect
    reason := some rule.reason
    agentId := some agentId
    id := s!"{template.text}-{index + 1}"
    tenantId := some tenantId }

/-! ## The store -/

structure ManagedPolicy extends PolicyRule where
  name : String
deriving DecidableEq

/-- What `list` selects. -/
def ManagedPolicy.isOf (policy : ManagedPolicy) (tenantId agentId : String) : Bool :=
  policy.tenantId == some tenantId && policy.agentId == some agentId

structure InMemoryPolicyAdminStore where
  policies : OrderedMap String ManagedPolicy := .empty

namespace InMemoryPolicyAdminStore

def list (store : InMemoryPolicyAdminStore) (tenantId agentId : String) : List ManagedPolicy :=
  store.policies.values.filter (·.isOf tenantId agentId)

def upsert (store : InMemoryPolicyAdminStore) (policy : ManagedPolicy) :
    ManagedPolicy × InMemoryPolicyAdminStore :=
  (policy, { policies := store.policies.set policy.id policy })

def toggle (store : InMemoryPolicyAdminStore) (policyId : String) (enabled : Bool) :
    Option ManagedPolicy × InMemoryPolicyAdminStore :=
  match store.policies.get policyId with
  | none => (none, store)
  | some current =>
      let updated := { current with enabled := some enabled }
      (some updated, { policies := store.policies.set policyId updated })

end InMemoryPolicyAdminStore

/-! ## Calls -/

inductive PolicyCall
  | upsert (policy : ManagedPolicy)
  | toggle (policyId : String) (enabled : Bool)

def PolicyCall.perform (store : InMemoryPolicyAdminStore) : PolicyCall → InMemoryPolicyAdminStore
  | .upsert policy => (store.upsert policy).2
  | .toggle policyId enabled => (store.toggle policyId enabled).2

/-- The store after some calls. -/
def storeAfter (calls : List PolicyCall) : InMemoryPolicyAdminStore :=
  calls.foldl PolicyCall.perform {}

def PolicyCall.policy? : PolicyCall → Option ManagedPolicy
  | .upsert policy => some policy
  | .toggle .. => none

def upserts (calls : List PolicyCall) : List ManagedPolicy := calls.filterMap PolicyCall.policy?

/-- The ids under which policies are upserted for an agent. -/
def ownIds (tenantId agentId : String) (calls : List PolicyCall) : List String :=
  ((upserts calls).filter (·.isOf tenantId agentId)).map (·.id)

/-- The call upserts a policy of the agent, or toggles one of the ids. -/
def PolicyCall.isFor (tenantId agentId : String) (ids : List String) : PolicyCall → Bool
  | .upsert policy => policy.isOf tenantId agentId
  | .toggle policyId _ => ids.contains policyId

/-- The calls made for an agent. -/
def callsFor (tenantId agentId : String) (calls : List PolicyCall) : List PolicyCall :=
  calls.filter (PolicyCall.isFor tenantId agentId (ownIds tenantId agentId calls))

/-- What a call makes of the latest version of an agent's policy. -/
def PolicyCall.revise (tenantId agentId id : String) (latest : Option ManagedPolicy) :
    PolicyCall → Option ManagedPolicy
  | .upsert policy => if policy.id = id ∧ policy.isOf tenantId agentId then some policy else latest
  | .toggle policyId enabled =>
      if policyId = id then latest.map ({ · with enabled := some enabled }) else latest

/-- The latest version of the policy that was upserted for an agent under an id. -/
def latestVersion (tenantId agentId id : String) (calls : List PolicyCall) :
    Option ManagedPolicy :=
  calls.foldl (PolicyCall.revise tenantId agentId id) none

/-- Each agent's list depends on the calls made for it only, and has the latest version of each
policy that was upserted for it. -/
structure Separate (calls : List PolicyCall) : Prop where
  own : ∀ tenantId agentId, (storeAfter calls).list tenantId agentId =
    (storeAfter (callsFor tenantId agentId calls)).list tenantId agentId
  latest : ∀ tenantId agentId id policy, latestVersion tenantId agentId id calls = some policy →
    policy ∈ (storeAfter calls).list tenantId agentId

/-! ## Which calls are separate -/

def lastUpsert (id : String) (calls : List PolicyCall) : Option ManagedPolicy :=
  (upserts calls).reverse.find? (decide <| ·.id = id)

/-- The ids of some policies, each where it comes first. -/
def firstIds (policies : List ManagedPolicy) : List String :=
  policies.foldl (fun ids policy => if policy.id ∈ ids then ids else ids ++ [policy.id]) []

/-- No agent's policy is displaced by a policy of another scope, and the ids of an agent come up
in the order in which they are first upserted for it. -/
structure Undisturbed (calls : List PolicyCall) : Prop where
  kept : ∀ tenantId agentId, ∀ policy ∈ upserts calls, policy.isOf tenantId agentId = true →
    (lastUpsert policy.id calls).any (·.isOf tenantId agentId) = true
  ordered : ∀ tenantId agentId,
    (firstIds (upserts calls)).filter (· ∈ ownIds tenantId agentId calls) =
      firstIds ((upserts calls).filter (·.isOf tenantId agentId))

variable {calls : List PolicyCall} {call : PolicyCall} {store : InMemoryPolicyAdminStore}
  {policy : ManagedPolicy} {policies : List ManagedPolicy} {tenantId agentId id : String}
  {ids : List String}

/-! ## The map of the store -/

/-- What a call makes of the policy that the map has under an id. -/
def PolicyCall.become (id : String) (current : Option ManagedPolicy) :
    PolicyCall → Option ManagedPolicy
  | .upsert policy => if policy.id = id then some policy else current
  | .toggle policyId enabled =>
      if policyId = id then current.map ({ · with enabled := some enabled }) else current

def currentPolicy (id : String) (calls : List PolicyCall) : Option ManagedPolicy :=
  calls.foldl (PolicyCall.become id) none

theorem storeAfter_concat : storeAfter (calls ++ [call]) = call.perform (storeAfter calls) :=
  List.foldl_concat ..

theorem currentPolicy_concat :
    currentPolicy id (calls ++ [call]) = call.become id (currentPolicy id calls) :=
  List.foldl_concat ..

theorem latestVersion_concat : latestVersion tenantId agentId id (calls ++ [call]) =
    call.revise tenantId agentId id (latestVersion tenantId agentId id calls) :=
  List.foldl_concat ..

theorem upserts_upsert : upserts (calls ++ [.upsert policy]) = upserts calls ++ [policy] := by
  simp [upserts, PolicyCall.policy?]

theorem upserts_toggle {enabled : Bool} : upserts (calls ++ [.toggle id enabled]) = upserts calls := by
  simp [upserts, PolicyCall.policy?]

theorem firstIds_concat : firstIds (policies ++ [policy]) =
    if policy.id ∈ firstIds policies then firstIds policies else firstIds policies ++ [policy.id] :=
  List.foldl_concat ..

theorem mem_firstIds : id ∈ firstIds policies ↔ ∃ policy ∈ policies, policy.id = id := by
  induction policies using List.reverseRecOn with
  | nil => simp [firstIds]
  | append_singleton policies policy ih =>
      rw [firstIds_concat]
      split
      · rename_i there
        rw [ih]
        constructor
        · rintro ⟨first, inside, same⟩
          exact ⟨first, List.mem_append_left _ inside, same⟩
        · rintro ⟨first, inside, rfl⟩
          rcases List.mem_append.mp inside with inside | last
          · exact ⟨first, inside, rfl⟩
          · obtain rfl := List.mem_singleton.mp last
            exact ih.mp there
      · rw [List.mem_append, ih, List.mem_singleton]
        simp [or_and_right, exists_or, eq_comm]

theorem perform_toggle {enabled : Bool} {k : String} :
    ((PolicyCall.toggle id enabled).perform store).policies.keys = store.policies.keys ∧
    ((PolicyCall.toggle id enabled).perform store).policies.get k =
      (PolicyCall.toggle id enabled).become k (store.policies.get k) := by
  rw [PolicyCall.perform, InMemoryPolicyAdminStore.toggle, PolicyCall.become]
  cases found : store.policies.get id with
  | none =>
      refine ⟨rfl, ?_⟩
      show store.policies.get k = _
      by_cases same : id = k
      · rw [if_pos same, ← same, found]
        rfl
      · rw [if_neg same]
  | some current =>
      have there : id ∈ store.policies.keys := OrderedMap.mem_keys.mpr (by rw [found]; rfl)
      refine ⟨by rw [OrderedMap.keys_set, if_pos there], ?_⟩
      rw [OrderedMap.get_set]
      by_cases same : id = k
      · rw [if_pos same.symm, if_pos same, ← same, found]
        rfl
      · rw [if_neg (Ne.symm same), if_neg same]

theorem keys_storeAfter : (storeAfter calls).policies.keys = firstIds (upserts calls) := by
  induction calls using List.reverseRecOn with
  | nil => rfl
  | append_singleton calls call ih =>
      rw [storeAfter_concat]
      cases call with
      | upsert policy =>
          rw [upserts_upsert, firstIds_concat, ← ih]
          exact OrderedMap.keys_set
      | toggle id enabled => rw [upserts_toggle, (perform_toggle (k := "")).1, ih]

theorem get_storeAfter : (storeAfter calls).policies.get id = currentPolicy id calls := by
  induction calls using List.reverseRecOn with
  | nil => rfl
  | append_singleton calls call ih =>
      rw [storeAfter_concat, currentPolicy_concat, ← ih]
      cases call with
      | upsert policy =>
          rw [PolicyCall.become]
          exact OrderedMap.get_set.trans (by simp only [eq_comm])
      | toggle id enabled => exact perform_toggle.2

/-- The list of an agent, by the ids in the order of the map. -/
theorem list_storeAfter : (storeAfter calls).list tenantId agentId =
    (firstIds (upserts calls)).filterMap fun id =>
      (currentPolicy id calls).filter (·.isOf tenantId agentId) := by
  rw [InMemoryPolicyAdminStore.list, OrderedMap.values_eq, keys_storeAfter, List.filter_filterMap]
  simp only [get_storeAfter]

/-! ## Versions -/

theorem lastUpsert_upsert : lastUpsert id (calls ++ [.upsert policy]) =
    if policy.id = id then some policy else lastUpsert id calls := by
  rw [lastUpsert, upserts_upsert, List.reverse_append, List.reverse_singleton,
    List.singleton_append, List.find?_cons]
  by_cases same : policy.id = id
  · simp [same]
  · simp [same, lastUpsert]

theorem lastUpsert_toggle {enabled : Bool} {k : String} :
    lastUpsert id (calls ++ [.toggle k enabled]) = lastUpsert id calls := by
  rw [lastUpsert, upserts_toggle, lastUpsert]

/-- The map has under an id what was last upserted, whoever toggled it since. -/
theorem currentPolicy_isOf : (currentPolicy id calls).any (·.isOf tenantId agentId) =
    (lastUpsert id calls).any (·.isOf tenantId agentId) := by
  induction calls using List.reverseRecOn with
  | nil => rfl
  | append_singleton calls call ih =>
      rw [currentPolicy_concat]
      cases call with
      | upsert policy =>
          rw [lastUpsert_upsert, PolicyCall.become]
          split
          · rfl
          · exact ih
      | toggle k enabled =>
          rw [lastUpsert_toggle, PolicyCall.become, ← ih]
          split
          · cases currentPolicy id calls <;> rfl
          · rfl

theorem currentPolicy_id (found : currentPolicy id calls = some policy) : policy.id = id := by
  induction calls using List.reverseRecOn generalizing policy with
  | nil => cases found
  | append_singleton calls call ih =>
      rw [currentPolicy_concat] at found
      cases call with
      | upsert last =>
          rw [PolicyCall.become] at found
          split at found
          · cases found
            assumption
          · exact ih found
      | toggle k enabled =>
          rw [PolicyCall.become] at found
          split at found
          · obtain ⟨before, there, rfl⟩ := Option.map_eq_some_iff.mp found
            have named : before.id = id := ih there
            exact named
          · exact ih found

/-- Where the last policy under an id is the agent's, the map has the latest version of it. -/
theorem currentPolicy_eq (own : (lastUpsert id calls).any (·.isOf tenantId agentId) = true) :
    currentPolicy id calls = latestVersion tenantId agentId id calls := by
  induction calls using List.reverseRecOn with
  | nil => cases own
  | append_singleton calls call ih =>
      rw [currentPolicy_concat, latestVersion_concat]
      cases call with
      | upsert policy =>
          rw [lastUpsert_upsert] at own
          rw [PolicyCall.become, PolicyCall.revise]
          by_cases same : policy.id = id
          · rw [if_pos same] at own
            rw [if_pos same, if_pos ⟨same, own⟩]
          · rw [if_neg same] at own
            rw [if_neg same, if_neg fun both => same both.1, ih own]
      | toggle k enabled =>
          rw [lastUpsert_toggle] at own
          rw [PolicyCall.become, PolicyCall.revise, ih own]

theorem latestVersion_some (found : latestVersion tenantId agentId id calls = some policy) :
    policy.id = id ∧ policy.isOf tenantId agentId = true ∧
      id ∈ ownIds tenantId agentId calls := by
  induction calls using List.reverseRecOn generalizing policy with
  | nil => cases found
  | append_singleton calls call ih =>
      rw [latestVersion_concat] at found
      cases call with
      | upsert last =>
          rw [ownIds, upserts_upsert, List.filter_append, List.map_append, List.mem_append]
          rw [PolicyCall.revise] at found
          split at found
          · rename_i hit
            cases found
            exact ⟨hit.1, hit.2, .inr (by simp [hit])⟩
          · obtain ⟨named, isOf, own⟩ := ih found
            exact ⟨named, isOf, .inl own⟩
      | toggle k enabled =>
          rw [ownIds, upserts_toggle]
          rw [PolicyCall.revise] at found
          split at found
          · obtain ⟨before, there, rfl⟩ := Option.map_eq_some_iff.mp found
            obtain ⟨named, isOf, own⟩ := ih there
            exact ⟨named, isOf, own⟩
          · exact ih found

theorem latestVersion_isSome (inside : id ∈ ownIds tenantId agentId calls) :
    (latestVersion tenantId agentId id calls).isSome = true := by
  induction calls using List.reverseRecOn with
  | nil => cases inside
  | append_singleton calls call ih =>
      rw [latestVersion_concat]
      cases call with
      | upsert last =>
          rw [ownIds, upserts_upsert, List.filter_append, List.map_append, List.mem_append] at inside
          rw [PolicyCall.revise]
          split
          · rfl
          · rename_i other
            rcases inside with earlier | last
            · exact ih earlier
            · simp only [List.filter_cons, List.filter_nil] at last
              split at last
              · rename_i isOf
                exact (other ⟨(List.mem_singleton.mp last).symm, isOf⟩).elim
              · cases last
      | toggle k enabled =>
          rw [ownIds, upserts_toggle] at inside
          rw [PolicyCall.revise]
          split
          · rw [Option.isSome_map]
            exact ih inside
          · exact ih inside

/-! ## The calls made for one agent -/

theorem upserts_filter : upserts (calls.filter (PolicyCall.isFor tenantId agentId ids)) =
    (upserts calls).filter (·.isOf tenantId agentId) := by
  induction calls using List.reverseRecOn with
  | nil => rfl
  | append_singleton calls call ih =>
      rw [List.filter_append]
      cases call with
      | upsert policy =>
          rw [upserts_upsert, List.filter_append, ← ih, List.filter_singleton, List.filter_singleton,
            PolicyCall.isFor]
          cases policy.isOf tenantId agentId with
          | true => exact upserts_upsert
          | false => simp
      | toggle k enabled =>
          rw [upserts_toggle, ← ih]
          rw [List.filter_singleton, PolicyCall.isFor]
          cases ids.contains k with
          | true => exact upserts_toggle
          | false => simp

/-- The calls made for an agent leave the latest versions of its policies. -/
theorem currentPolicy_filter (known : id ∈ ids) :
    currentPolicy id (calls.filter (PolicyCall.isFor tenantId agentId ids)) =
      latestVersion tenantId agentId id calls := by
  induction calls using List.reverseRecOn with
  | nil => rfl
  | append_singleton calls call ih =>
      rw [List.filter_append, latestVersion_concat, List.filter_singleton]
      cases call with
      | upsert policy =>
          rw [PolicyCall.isFor, PolicyCall.revise]
          cases isOf : policy.isOf tenantId agentId with
          | true => simp [currentPolicy_concat, PolicyCall.become, ih]
          | false => simp [ih]
      | toggle k enabled =>
          rw [PolicyCall.isFor, PolicyCall.revise]
          by_cases same : k = id
          · subst same
            simp [known, currentPolicy_concat, PolicyCall.become, ih]
          · rw [if_neg same]
            cases ids.contains k with
            | true => simp [currentPolicy_concat, PolicyCall.become, ih, same]
            | false => simp [ih]

theorem mem_ownIds : id ∈ ownIds tenantId agentId calls ↔
    id ∈ firstIds ((upserts calls).filter (·.isOf tenantId agentId)) := by
  rw [mem_firstIds, ownIds, List.mem_map]

theorem list_callsFor : (storeAfter (callsFor tenantId agentId calls)).list tenantId agentId =
    (firstIds ((upserts calls).filter (·.isOf tenantId agentId))).filterMap fun id =>
      latestVersion tenantId agentId id calls := by
  rw [list_storeAfter, callsFor, upserts_filter]
  refine List.filterMap_congr fun id inside => ?_
  rw [currentPolicy_filter (mem_ownIds.mpr inside)]
  cases found : latestVersion tenantId agentId id calls with
  | none => rfl
  | some policy => rw [Option.filter_some, if_pos (latestVersion_some found).2.1]

/-! ## The two runs -/

theorem ids_filterMap {versions : String → Option ManagedPolicy}
    (named : ∀ id policy, versions id = some policy → policy.id = id) :
    (ids.filterMap versions).map (·.id) = ids.filter fun id => (versions id).isSome := by
  rw [List.map_filterMap, ← List.filterMap_eq_filter]
  refine List.filterMap_congr fun id _ => ?_
  cases found : versions id with
  | none => simp [found, Option.guard]
  | some policy => simp [found, Option.guard, named id policy found]

theorem mem_own_of_last (own : (lastUpsert id calls).any (·.isOf tenantId agentId) = true) :
    id ∈ ownIds tenantId agentId calls := by
  obtain ⟨policy, found, isOf⟩ := (Option.any_eq_true _ _).mp own
  have named := List.find?_some found
  have inside := List.mem_reverse.mp (List.mem_of_find?_eq_some found)
  rw [← of_decide_eq_true named, ownIds]
  exact List.mem_map_of_mem (List.mem_filter.mpr ⟨inside, isOf⟩)

/-- **Agents do not interfere where their ids are their own.** Each agent's list depends on the
calls made for it and has its latest versions if and only if no policy of it was displaced by a
policy of another scope, and its ids come up in the order of its own calls. -/
theorem separate_iff : Separate calls ↔ Undisturbed calls := by
  constructor
  · intro separate
    have kept : ∀ tenantId agentId, ∀ policy ∈ upserts calls,
        policy.isOf tenantId agentId = true →
        (lastUpsert policy.id calls).any (·.isOf tenantId agentId) = true := by
      intro tenantId agentId policy inside isOf
      have own : policy.id ∈ ownIds tenantId agentId calls :=
        List.mem_map_of_mem (List.mem_filter.mpr ⟨inside, isOf⟩)
      obtain ⟨latest, found⟩ := Option.isSome_iff_exists.mp (latestVersion_isSome own)
      have listed := separate.latest tenantId agentId policy.id latest found
      rw [list_storeAfter] at listed
      obtain ⟨id, _, there⟩ := List.mem_filterMap.mp listed
      obtain ⟨there, isOf⟩ := Option.filter_eq_some_iff.mp there
      have same : id = policy.id :=
        (currentPolicy_id there).symm.trans (latestVersion_some found).1
      rw [← currentPolicy_isOf, ← same, there]
      exact isOf
    refine ⟨kept, fun tenantId agentId => ?_⟩
    have same := congrArg (List.map (·.id)) (separate.own tenantId agentId)
    rw [list_storeAfter, list_callsFor, ids_filterMap, ids_filterMap] at same
    · refine Eq.trans (List.filter_congr fun id _ => ?_) (same.trans (List.filter_eq_self.mpr ?_))
      · rw [Option.isSome_filter, currentPolicy_isOf, Bool.eq_iff_iff, decide_eq_true_eq]
        constructor
        · intro own
          obtain ⟨policy, inside, rfl⟩ := List.mem_map.mp own
          obtain ⟨inside, isOf⟩ := List.mem_filter.mp inside
          exact kept tenantId agentId policy inside isOf
        · exact mem_own_of_last
      · intro id inside
        exact latestVersion_isSome (mem_ownIds.mpr inside)
    · exact fun id policy found => (latestVersion_some found).1
    · exact fun id policy found => currentPolicy_id (Option.filter_eq_some_iff.mp found).1
  · intro undisturbed
    have own : ∀ tenantId agentId, (storeAfter calls).list tenantId agentId =
        (storeAfter (callsFor tenantId agentId calls)).list tenantId agentId := by
      intro tenantId agentId
      rw [list_storeAfter, list_callsFor, ← undisturbed.ordered, List.filterMap_filter]
      refine List.filterMap_congr fun id _ => ?_
      by_cases inside : id ∈ ownIds tenantId agentId calls
      · rw [if_pos (decide_eq_true inside)]
        obtain ⟨policy, upserted, rfl⟩ := List.mem_map.mp inside
        obtain ⟨upserted, isOf⟩ := List.mem_filter.mp upserted
        have last := undisturbed.kept tenantId agentId policy upserted isOf
        have current := currentPolicy_isOf.trans last
        rw [← currentPolicy_eq last]
        obtain ⟨there, found, isOf⟩ := (Option.any_eq_true _ _).mp current
        rw [found, Option.filter_some, if_pos isOf]
      · rw [if_neg (by simpa using inside)]
        cases found : (currentPolicy id calls).filter (·.isOf tenantId agentId) with
        | none => rfl
        | some policy =>
            obtain ⟨there, isOf⟩ := Option.filter_eq_some_iff.mp found
            have last : (lastUpsert id calls).any (·.isOf tenantId agentId) = true := by
              rw [← currentPolicy_isOf, there]
              exact isOf
            exact (inside (mem_own_of_last last)).elim
    refine ⟨own, ?_⟩
    intro tenantId agentId id policy found
    rw [own, list_callsFor]
    exact List.mem_filterMap.mpr
      ⟨id, mem_ownIds.mp (latestVersion_some found).2.2, found⟩

/-- The same template for the same agent of two tenants. -/
theorem sameTemplate_not_separate :
    let policies (tenantId : String) := (createPolicyTemplate .admin tenantId "a").map fun rule =>
      { rule with name := "Admin" : ManagedPolicy }
    ¬ Separate ((policies "t" ++ policies "u").map .upsert) := by
  intro policies separate
  have own := separate.own "t" "a"
  revert own
  decide

end Agents
