import BirthHub.Registry.Versions

/-!
# Tenants of the registry

The calls carry the id of a tenant, but agents and versions are kept by the id of the agent
alone. As long as no call names the agent of another tenant (`Owns`), what a tenant has is
changed by its own calls only, and its index is the one that its own calls make: `Shares`
relates a history to the history of the calls of one tenant.
-/

namespace Registry

open Data Effect

def Call.tenantId : Call → String
  | .createVersion input => input.tenantId
  | .publishVersion _ _ tenantId => tenantId
  | .deprecateVersion _ _ tenantId => tenantId
  | .rollbackVersion input => input.tenantId
  | .listByTenant input => input.tenantId

/-- The agent that a call names. -/
def Call.agentId : Call → Option String
  | .createVersion input => some input.agentId
  | .publishVersion agentId _ _ => some agentId
  | .deprecateVersion agentId _ _ => some agentId
  | .rollbackVersion input => some input.agentId
  | .listByTenant _ => none

/-- The agents of this id belong to the tenant. -/
def MemoryStore.Owned (store : MemoryStore) (tenantId agentId : String) : Prop :=
  ∀ agent ∈ store.agents, agent.id = agentId → agent.tenantId = tenantId

instance (store : MemoryStore) (tenantId agentId : String) :
    Decidable (store.Owned tenantId agentId) :=
  inferInstanceAs (Decidable (∀ agent ∈ store.agents, agent.id = agentId →
    agent.tenantId = tenantId))

/-- The call names no agent of another tenant. -/
def Owns (store : MemoryStore) (call : Call) : Prop :=
  ∀ agentId ∈ call.agentId, store.Owned call.tenantId agentId

instance (store : MemoryStore) (call : Call) : Decidable (Owns store call) :=
  inferInstanceAs (Decidable (∀ agentId ∈ call.agentId, store.Owned call.tenantId agentId))

/-! ## What a call touches -/

/-- A call is confined to one agent, which it may make, and to its versions. -/
structure Touches (call : Call) (agentId : String) (s s' : MemoryStore) : Prop where
  names : call.agentId = some agentId
  others : ∀ other, other ≠ agentId → s'.versions other = s.versions other
  agents : s'.agents = s.agents ∧ (s.versions agentId = [] → s'.versions agentId = []) ∨
    ∃ input now, input.id = agentId ∧ input.tenantId = call.tenantId ∧
      s'.agents = (ensureAgent s.agents input now).2

variable {lib : Libraries} {s s' t : MemoryStore} {call : Call} {agentId tenantId : String}

theorem replaceVersion_nil {version : String} {patch : VersionPatch} :
    MemoryStore.replaceVersion version patch [] = [] := rfl

theorem release_nil {current : Option AgentVersionRecord} {version : String} {now : Int} :
    release current version now [] = [] := by
  cases current <;> rfl

theorem touches_setVersions {versions : List AgentVersionRecord}
    (names : call.agentId = some agentId) (empty : s.versions agentId = [] → versions = []) :
    Touches call agentId s (s.setVersions agentId versions) where
  names := names
  others _ differs := s.setVersions_other versions differs
  agents := .inl ⟨rfl, fun none => (s.setVersions_same agentId versions).trans (empty none)⟩

theorem exec_touches {x : Except String Response}
    (ran : (registry lib).Exec (serve lib call) s x s') :
    s' = s ∨ ∃ agentId, Touches call agentId s s' := by
  cases call with
  | createVersion input =>
      obtain ⟨y, ran, _⟩ := exec_answer ran
      rcases exec_createVersion ran with kept | ⟨_, now, rfl | ⟨created, _, rfl⟩⟩
      · exact .inl kept
      · exact .inr ⟨input.agentId, rfl, fun _ _ => rfl, .inr ⟨_, now, rfl, rfl, rfl⟩⟩
      · exact .inr ⟨input.agentId, rfl, fun _ differs => MemoryStore.setVersions_other _ _ differs,
          .inr ⟨_, now, rfl, rfl, rfl⟩⟩
  | publishVersion agentId version tenantId =>
      obtain ⟨y, ran, _⟩ := exec_answer ran
      rcases exec_publishVersion ran with kept | ⟨now, rfl⟩
      · exact .inl kept
      · refine .inr ⟨agentId, touches_setVersions rfl fun empty => ?_⟩
        rw [empty]
        exact release_nil
  | deprecateVersion agentId version tenantId =>
      obtain ⟨y, ran, _⟩ := exec_answer ran
      rcases exec_deprecateVersion ran with kept | rfl
      · exact .inl kept
      · refine .inr ⟨agentId, touches_setVersions rfl fun empty => ?_⟩
        rw [empty]
        exact replaceVersion_nil
  | rollbackVersion input =>
      obtain ⟨y, ran, _⟩ := exec_answer ran
      rcases exec_rollbackVersion ran with kept | ⟨now, rfl⟩
      · exact .inl kept
      · refine .inr ⟨input.agentId, touches_setVersions rfl fun empty => ?_⟩
        rw [empty]
        exact release_nil
  | listByTenant input =>
      obtain ⟨y, ran, _⟩ := exec_answer ran
      exact .inl (exec_listByTenant ran).1

/-! ### The agent is there -/

theorem ensureAgent_others {agents : List AgentRecord} {input : AgentInput} {now : Int}
    {agent : AgentRecord} (inside : agent ∈ agents) (differs : agent.id ≠ input.id) :
    agent ∈ (ensureAgent agents input now).2 := by
  unfold ensureAgent
  split
  · exact List.mem_map.mpr ⟨agent, inside, if_neg differs⟩
  · exact List.mem_append_left _ inside

theorem exists_ensureAgent (agents : List AgentRecord) (input : AgentInput) (now : Int) :
    ∃ agent ∈ (ensureAgent agents input now).2, agent.id = input.id := by
  unfold ensureAgent
  split
  · rename_i current found
    have same : current.id = input.id := by simpa using List.find?_some found
    exact ⟨_, List.mem_map.mpr ⟨current, List.mem_of_find?_eq_some found, if_pos same⟩, same⟩
  · exact ⟨_, List.mem_append_right _ List.mem_cons_self, rfl⟩

theorem ensureAgent_owned {agents : List AgentRecord} {input : AgentInput} {now : Int}
    (owned : ∀ agent ∈ agents, agent.id = input.id → agent.tenantId = tenantId)
    (asks : input.tenantId = tenantId) :
    ∀ agent ∈ (ensureAgent agents input now).2, agent.id = input.id →
      agent.tenantId = tenantId := by
  unfold ensureAgent
  split
  · rename_i current found
    intro agent' inside' hit
    obtain ⟨agent, inside, rfl⟩ := List.mem_map.mp inside'
    split at hit
    · rename_i isCurrent
      rw [if_pos isCurrent]
      exact owned current (List.mem_of_find?_eq_some found) hit
    · contradiction
  · intro agent inside hit
    rcases List.mem_append.mp inside with before | made
    · exact owned agent before hit
    · rw [List.mem_singleton.mp made]
      exact asks

theorem ensureAgent_ids {agents : List AgentRecord} {agent : AgentRecord} (input : AgentInput)
    (now : Int) (inside : agent ∈ agents) :
    ∃ agent' ∈ (ensureAgent agents input now).2, agent'.id = agent.id := by
  by_cases same : agent.id = input.id
  · rw [same]
    exact exists_ensureAgent agents input now
  · exact ⟨agent, ensureAgent_others inside same, rfl⟩

/-- What belongs to another tenant than the one that asks stays, and nothing is added to it. -/
theorem filter_ensureAgent_other {agents : List AgentRecord} {input : AgentInput} {now : Int}
    (owned : ∀ agent ∈ agents, agent.id = input.id → agent.tenantId = input.tenantId)
    (differs : input.tenantId ≠ tenantId) :
    (ensureAgent agents input now).2.filter (·.tenantId = tenantId) =
      agents.filter (·.tenantId = tenantId) := by
  unfold ensureAgent
  split
  · rename_i current found
    have same : current.id = input.id := by simpa using List.find?_some found
    have theirs : current.tenantId ≠ tenantId :=
      owned current (List.mem_of_find?_eq_some found) same ▸ differs
    clear found
    dsimp only
    induction agents with
    | nil => rfl
    | cons agent agents ih =>
        have ih := ih fun other inside => owned other (List.mem_cons_of_mem _ inside)
        rw [List.map_cons, List.filter_cons, List.filter_cons, ih]
        by_cases hit : agent.id = input.id
        · have also := owned agent List.mem_cons_self hit
          simp [hit, theirs, also, differs]
        · simp [hit]
  · simp [List.filter_append, differs]

/-- The agents of a tenant are made and updated among themselves. -/
theorem filter_ensureAgent_own {agents : List AgentRecord} {input : AgentInput} {now : Int}
    (owned : ∀ agent ∈ agents, agent.id = input.id → agent.tenantId = input.tenantId) :
    ensureAgent (agents.filter (·.tenantId = input.tenantId)) input now =
      ((ensureAgent agents input now).1,
        (ensureAgent agents input now).2.filter (·.tenantId = input.tenantId)) := by
  have found : (agents.filter (·.tenantId = input.tenantId)).find? (·.id = input.id) =
      agents.find? (·.id = input.id) := by
    induction agents with
    | nil => rfl
    | cons agent agents ih =>
        have ih := ih fun other inside => owned other (List.mem_cons_of_mem _ inside)
        by_cases hit : agent.id = input.id
        · simp [owned agent List.mem_cons_self hit, hit]
        · by_cases own : agent.tenantId = input.tenantId
          · simp [own, hit, ih]
          · simp [own, hit, ih]
  unfold ensureAgent
  rw [found]
  cases isFound : agents.find? (·.id = input.id) with
  | none => simp [List.filter_append]
  | some current =>
      have same : current.id = input.id := by simpa using List.find?_some isFound
      have ours := owned current (List.mem_of_find?_eq_some isFound) same
      refine congrArg (Prod.mk _) ?_
      clear found isFound
      dsimp only
      induction agents with
      | nil => rfl
      | cons agent agents ih =>
          have ih := ih fun other inside => owned other (List.mem_cons_of_mem _ inside)
          by_cases hit : agent.id = input.id
          · simpa [owned agent List.mem_cons_self hit, hit, ours] using ih
          · by_cases own : agent.tenantId = input.tenantId
            · simpa [own, hit] using ih
            · simpa [own, hit] using ih

/-! ## What a tenant has -/

/-- Versions belong to an agent that is there, and agents of one id to one tenant. -/
structure MemoryStore.Founded (store : MemoryStore) : Prop where
  versions : ∀ agentId, store.versions agentId ≠ [] → ∃ agent ∈ store.agents, agent.id = agentId
  single : ∀ agent ∈ store.agents, store.Owned agent.tenantId agent.id

theorem founded_empty : MemoryStore.Founded {} where
  versions _ some := (some rfl).elim
  single _ inside := (List.not_mem_nil inside).elim

/-- An agent keeps its tenant. -/
theorem ensureAgent_single {agents : List AgentRecord} {input : AgentInput} {now : Int}
    (single : ∀ agent ∈ agents, ∀ other ∈ agents, other.id = agent.id →
      other.tenantId = agent.tenantId) :
    ∀ agent ∈ (ensureAgent agents input now).2, ∀ other ∈ (ensureAgent agents input now).2,
      other.id = agent.id → other.tenantId = agent.tenantId := by
  unfold ensureAgent
  split
  · rename_i current found
    have same : current.id = input.id := by simpa using List.find?_some found
    intro agent' inside' other' otherInside' hit
    obtain ⟨agent, inside, rfl⟩ := List.mem_map.mp inside'
    obtain ⟨other, otherInside, rfl⟩ := List.mem_map.mp otherInside'
    split at hit
    · rename_i otherIs
      rw [if_pos otherIs]
      split at hit
      · rename_i agentIs
        rw [if_pos agentIs]
      · rename_i agentIs
        exact absurd (hit.symm.trans same) agentIs
    · rename_i otherIs
      rw [if_neg otherIs]
      split at hit
      · exact absurd (hit.trans same) otherIs
      · rename_i agentIs
        rw [if_neg agentIs]
        exact single agent inside other otherInside hit
  · rename_i missing
    have absent (agent : AgentRecord) (inside : agent ∈ agents) : agent.id ≠ input.id := by
      simpa using List.find?_eq_none.mp missing agent inside
    intro agent inside other otherInside hit
    rcases List.mem_append.mp inside with before | made
    · rcases List.mem_append.mp otherInside with otherBefore | otherMade
      · exact single agent before other otherBefore hit
      · rw [List.mem_singleton.mp otherMade] at hit
        exact absurd hit.symm (absent agent before)
    · rcases List.mem_append.mp otherInside with otherBefore | otherMade
      · rw [List.mem_singleton.mp made] at hit
        exact absurd hit (absent other otherBefore)
      · rw [List.mem_singleton.mp made, List.mem_singleton.mp otherMade]

theorem Touches.founded (touches : Touches call agentId s s') (founded : s.Founded) :
    s'.Founded := by
  have stays (other : String) (there : ∃ agent ∈ s.agents, agent.id = other) :
      ∃ agent ∈ s'.agents, agent.id = other := by
    rcases touches.agents with ⟨same, _⟩ | ⟨input, now, _, _, same⟩
    · rw [same]
      exact there
    · obtain ⟨agent, inside, isOther⟩ := there
      obtain ⟨agent', inside', sameId⟩ := ensureAgent_ids input now inside
      rw [same]
      exact ⟨agent', inside', sameId.trans isOther⟩
  refine ⟨fun other versions => ?_, ?_⟩
  · by_cases hit : other = agentId
    · subst hit
      rcases touches.agents with ⟨same, empty⟩ | ⟨input, now, named, _, same⟩
      · exact stays other (founded.versions other fun none => versions (empty none))
      · rw [same, ← named]
        exact exists_ensureAgent s.agents input now
    · rw [touches.others other hit] at versions
      exact stays other (founded.versions other versions)
  · unfold MemoryStore.Owned
    rcases touches.agents with ⟨same, _⟩ | ⟨input, now, _, _, same⟩
    · rw [same]
      exact founded.single
    · rw [same]
      exact ensureAgent_single founded.single

/-- What belongs to another tenant stays. -/
theorem Touches.keeps (touches : Touches call agentId s s')
    (owned : s.Owned call.tenantId agentId) {agent : AgentRecord} (inside : agent ∈ s.agents)
    (differs : agent.tenantId ≠ call.tenantId) :
    agent ∈ s'.agents ∧ s'.versions agent.id = s.versions agent.id := by
  have other : agent.id ≠ agentId := fun same => differs (owned agent inside same)
  refine ⟨?_, touches.others agent.id other⟩
  rcases touches.agents with ⟨same, _⟩ | ⟨input, now, named, _, same⟩
  · rw [same]
    exact inside
  · rw [same]
    exact ensureAgent_others inside (named ▸ other)

/-- A store has what the tenant has in another one, and only that. -/
structure Shares (tenantId : String) (s t : MemoryStore) : Prop where
  agents : t.agents = s.agents.filter (·.tenantId = tenantId)
  versions : ∀ agentId, s.Owned tenantId agentId → t.versions agentId = s.versions agentId

/-- The calls of the others leave alone what the tenant has. -/
theorem Touches.shares (touches : Touches call agentId s s') (founded : s.Founded)
    (owned : s.Owned call.tenantId agentId) (differs : call.tenantId ≠ tenantId)
    (shares : Shares tenantId s t) : Shares tenantId s' t := by
  rcases touches.agents with ⟨same, empty⟩ | ⟨input, now, named, asks, same⟩
  · refine ⟨by rw [same, shares.agents], fun other ownedAfter => ?_⟩
    have ownedBefore : s.Owned tenantId other := fun agent inside =>
      ownedAfter agent (same.symm ▸ inside)
    rw [shares.versions other ownedBefore]
    by_cases hit : other = agentId
    · subst hit
      -- an agent of this id would belong to both tenants
      have none : s.versions other = [] := by
        by_contra some
        obtain ⟨agent, inside, isOther⟩ := founded.versions other some
        exact differs ((owned agent inside isOther).symm.trans (ownedBefore agent inside isOther))
      rw [none, empty none]
    · exact (touches.others other hit).symm
  · have kept : (ensureAgent s.agents input now).2.filter (·.tenantId = tenantId) =
        s.agents.filter (·.tenantId = tenantId) :=
      filter_ensureAgent_other (named ▸ asks ▸ owned) (asks ▸ differs)
    refine ⟨by rw [same, kept, shares.agents], fun other ownedAfter => ?_⟩
    have hit : other ≠ agentId := by
      rintro rfl
      obtain ⟨agent, inside, isOther⟩ := exists_ensureAgent s.agents input now
      have theirs := ensureAgent_owned (named ▸ owned) asks agent inside isOther
      exact differs (theirs.symm.trans (ownedAfter agent (same.symm ▸ inside)
        (isOther.trans named)))
    rw [touches.others other hit]
    refine shares.versions other fun agent inside isOther => ?_
    exact ownedAfter agent (same ▸ ensureAgent_others inside (by rw [isOther, named]; exact hit))
      isOther

/-! ## The calls of the tenant itself -/

/-- An operation on one agent, for a tenant. -/
def RegistryOp.On (tenantId agentId : String) : RegistryOp → Prop
  | .ensureAgent input => input.id = agentId ∧ input.tenantId = tenantId
  | .createVersion input => input.agentId = agentId
  | .listVersions agentId' => agentId' = agentId
  | .updateVersion agentId' _ _ => agentId' = agentId
  | .listAgentsByTenant _ => False
  | .now => True
  | .record _ => True

theorem deprecateCurrent_within (agentId : String) (current : Option AgentVersionRecord) :
    (deprecateCurrent agentId current).Within (RegistryOp.On tenantId agentId) := by
  cases current with
  | none => exact trivial
  | some current => exact .bind (.perform rfl) fun _ => trivial

theorem publishNow_within (agentId version : String) :
    (publishNow agentId version).Within (RegistryOp.On tenantId agentId) :=
  .bind (.perform trivial) fun _ => .perform rfl

theorem requireChronologicalConsistency_within (latest : Option AgentVersionRecord) :
    (requireChronologicalConsistency latest).Within (RegistryOp.On tenantId agentId) := by
  cases latest with
  | none => exact trivial
  | some latest => exact .bind (.perform trivial) fun _ => .ite trivial trivial

theorem serve_within (names : call.agentId = some agentId) :
    (serve lib call).Within (RegistryOp.On call.tenantId agentId) := by
  cases call with
  | createVersion input =>
      cases names
      refine .bind (.ite trivial (.bind (.perform ⟨rfl, rfl⟩) fun _ => ?_)) fun _ => trivial
      refine .bind (.perform rfl) fun versions => ?_
      refine .bind (requireChronologicalConsistency_within _) fun _ => ?_
      refine .bind .ofExcept fun _ => .bind .ofExcept fun _ => ?_
      exact .bind (.perform rfl) fun _ => .bind (.perform trivial) fun _ => trivial
  | publishVersion agentId version tenantId =>
      cases names
      refine .bind (.bind (.perform rfl) fun versions => ?_) fun _ => trivial
      cases versions.find? (·.version = version) with
      | none => exact trivial
      | some target =>
          refine .bind (deprecateCurrent_within _ _) fun _ => ?_
          exact .bind (publishNow_within _ _) fun _ => .bind (.perform trivial) fun _ => trivial
  | deprecateVersion agentId version tenantId =>
      cases names
      refine .bind (.bind (.perform rfl) fun _ => ?_) fun _ => trivial
      exact .bind (.perform trivial) fun _ => trivial
  | rollbackVersion input =>
      cases names
      refine .bind (.bind (.perform rfl) fun versions => ?_) fun _ => trivial
      dsimp only
      cases versions.find? (·.version = input.targetVersion) with
      | none => exact trivial
      | some target =>
          refine .bind (deprecateCurrent_within _ _) fun _ => ?_
          exact .bind (publishNow_within _ _) fun _ => .bind (.perform trivial) fun _ => trivial
  | listByTenant input => cases names

/-- A store of the tenant's, and the agent belongs to it. -/
structure SharesOwn (tenantId agentId : String) (s t : MemoryStore) : Prop where
  shares : Shares tenantId s t
  owned : s.Owned tenantId agentId

theorem SharesOwn.setVersions (own : SharesOwn tenantId agentId s t)
    (versions : List AgentVersionRecord) :
    SharesOwn tenantId agentId (s.setVersions agentId versions) (t.setVersions agentId versions) where
  shares := {
    agents := own.shares.agents
    versions := fun other owned => by
      by_cases hit : other = agentId
      · subst hit
        rw [MemoryStore.setVersions_same, MemoryStore.setVersions_same]
      · rw [MemoryStore.setVersions_other t versions hit,
          MemoryStore.setVersions_other s versions hit]
        exact own.shares.versions other owned }
  owned := own.owned

/-- What an operation of the tenant on its agent does, it does in the tenant's own store. -/
theorem SharesOwn.perform {o : RegistryOp} {choice : Choice} {answer : RegistryIface.Answer o}
    (on : o.On tenantId agentId) (own : SharesOwn tenantId agentId s t)
    (answered : s.perform lib choice o = (answer, s')) :
    ∃ t', t.perform lib choice o = (answer, t') ∧ SharesOwn tenantId agentId s' t' := by
  have versions := own.shares.versions agentId own.owned
  cases o with
  | now =>
      cases answered
      exact ⟨t, rfl, own⟩
  | ensureAgent input =>
      obtain ⟨rfl, rfl⟩ := on
      have made : (Except.ok (Registry.ensureAgent s.agents input choice.now).1,
          { s with agents := (Registry.ensureAgent s.agents input choice.now).2 }) =
            (answer, s') := answered
      obtain ⟨rfl, rfl⟩ := Prod.mk.inj made
      have ownAgents : Registry.ensureAgent t.agents input choice.now = _ :=
        own.shares.agents ▸ filter_ensureAgent_own own.owned
      refine ⟨{ t with agents := (Registry.ensureAgent t.agents input choice.now).2 }, ?_, ?_⟩
      · simp only [MemoryStore.perform, ownAgents]
        rfl
      · refine ⟨⟨by simp only [ownAgents], fun other ownedAfter => ?_⟩,
          ensureAgent_owned own.owned rfl⟩
        refine own.shares.versions other fun agent inside isOther => ?_
        by_cases hit : agent.id = input.id
        · exact own.owned agent inside hit
        · exact ownedAfter agent (ensureAgent_others inside hit) isOther
  | createVersion input =>
      cases on
      cases answered
      refine ⟨_, ?_, own.setVersions _⟩
      simp only [MemoryStore.perform, versions]
  | listVersions agentId' =>
      cases on
      cases answered
      refine ⟨t, ?_, own⟩
      simp only [MemoryStore.perform, MemoryStore.listVersions, versions]
  | updateVersion agentId' version patch =>
      cases on
      simp only [MemoryStore.perform] at answered ⊢
      rw [versions]
      cases found : (s.versions agentId).find? (·.version = version) with
      | none =>
          rw [found] at answered
          cases answered
          exact ⟨t, rfl, own⟩
      | some current =>
          rw [found] at answered
          cases answered
          exact ⟨_, rfl, own.setVersions _⟩
  | listAgentsByTenant tenantId' => exact on.elim
  | record event =>
      cases answered
      exact ⟨t, rfl, own⟩

/-- A listing ends with the page of what it reads. -/
theorem exec_listByTenant_iff {input : ListAgentIndexInput} {x : Except String CursorPage} :
    (registry lib).Exec (listByTenant lib input) s x s ↔ x = .ok (pageOf lib input
      ((s.agents.filter (·.tenantId = input.tenantId)).map fun agent =>
        indexAgent input agent (s.listVersions lib agent.id))) := by
  refine ⟨fun ran => (exec_listByTenant ran).2, fun same => ?_⟩
  obtain ⟨y, s', ran⟩ : ∃ y s', (registry lib).Exec (listByTenant lib input) s y s' :=
    System.exists_exec (A := fun _ => True) (Prog.Within.all _)
      (fun o s _ => ⟨({} : Choice), _, _, rfl⟩) s
  obtain ⟨rfl, rfl⟩ := exec_listByTenant ran
  rw [same]
  exact ran

/-- The index of the tenant is the one of its own store. -/
theorem Shares.listByTenant (shares : Shares tenantId s t) (founded : s.Founded)
    {input : ListAgentIndexInput} (asks : input.tenantId = tenantId) {x : Except String CursorPage} :
    (registry lib).Exec (Registry.listByTenant lib input) s x s ↔
      (registry lib).Exec (Registry.listByTenant lib input) t x t := by
  have listed : (t.agents.filter (·.tenantId = input.tenantId)).map (fun agent =>
        indexAgent input agent (t.listVersions lib agent.id)) =
      (s.agents.filter (·.tenantId = input.tenantId)).map fun agent =>
        indexAgent input agent (s.listVersions lib agent.id) := by
    rw [shares.agents, asks, List.filter_filter]
    simp only [Bool.and_self]
    refine List.map_congr_left fun agent inside => ?_
    obtain ⟨inside, own⟩ := List.mem_filter.mp inside
    have owned : s.Owned tenantId agent.id :=
      of_decide_eq_true own ▸ founded.single agent inside
    simp only [MemoryStore.listVersions, shares.versions agent.id owned]
  rw [exec_listByTenant_iff, exec_listByTenant_iff, listed]

/-! ## Histories -/

variable {calls : List (Effect.Call RegistryIface Call Response)}

/-- The calls of a tenant. -/
def callsOf (tenantId : String) (calls : List (Effect.Call RegistryIface Call Response)) :
    List (Effect.Call RegistryIface Call Response) :=
  calls.filter fun call => call.request.tenantId = tenantId

theorem serves_founded {guard : MemoryStore → Call → Prop}
    (served : (registry lib).Serves guard {} calls s) : s.Founded := by
  refine served.invariant (P := MemoryStore.Founded) (fun founded _ ran => ?_) founded_empty
  rcases exec_touches ran with rfl | ⟨agentId, touches⟩
  · exact founded
  · exact touches.founded founded

theorem Shares.own (shares : Shares tenantId s t) (founded : s.Founded)
    (asks : call.tenantId = tenantId) (owns : Owns s call) {x : Except String Response}
    (ran : (registry lib).Exec (serve lib call) s x s') :
    ∃ t', (registry lib).Exec (serve lib call) t x t' ∧ Shares tenantId s' t' := by
  subst asks
  cases names : call.agentId with
  | some agentId =>
      obtain ⟨t', ran', own⟩ := System.Exec.simulate
        (fun on own answered => by
          obtain ⟨t', answered', own'⟩ := SharesOwn.perform on own (Option.some.inj answered)
          exact ⟨t', congrArg some answered', own'⟩)
        (serve_within names) (SharesOwn.mk shares (owns agentId names)) ran
      exact ⟨t', ran', own.shares⟩
  | none =>
      cases call with
      | listByTenant input =>
          obtain ⟨y, listing, rfl⟩ := exec_answer ran
          have kept := (exec_listByTenant listing).1
          rw [kept] at listing
          have listing' := (shares.listByTenant founded rfl).mp listing
          refine ⟨t, System.exec_bind.mpr ?_, kept.symm ▸ shares⟩
          cases y with
          | error e => exact .inl ⟨e, rfl, listing'⟩
          | ok page => exact .inr ⟨page, t, listing', .pure⟩
      | createVersion input => cases names
      | publishVersion agentId version tenantId => cases names
      | deprecateVersion agentId version tenantId => cases names
      | rollbackVersion input => cases names

/-- The history of one tenant's calls goes with a history, and shares what the tenant has. -/
theorem exists_own_history (served : (registry lib).Serves Owns {} calls s) (tenantId : String) :
    ∃ t, (registry lib).Serves Owns {} (callsOf tenantId calls) t ∧ Shares tenantId s t := by
  induction served with
  | refl => exact ⟨{}, .refl, rfl, fun _ _ => rfl⟩
  | @call s₁ s₂ calls call result before owns ran ih =>
      obtain ⟨t, served, shares⟩ := ih
      have founded := serves_founded before
      by_cases asks : call.tenantId = tenantId
      · obtain ⟨t', ran', shares'⟩ := shares.own founded asks owns ran
        refine ⟨t', ?_, shares'⟩
        have last : callsOf tenantId (calls ++ [⟨call, result⟩]) =
            callsOf tenantId calls ++ [⟨call, result⟩] := by
          simp [callsOf, List.filter_append, asks]
        rw [last]
        refine .call served (fun agentId names agent inside isAgent => ?_) ran'
        rw [shares.agents] at inside
        exact owns agentId names agent (List.mem_filter.mp inside).1 isAgent
      · refine ⟨t, ?_, ?_⟩
        · have last : callsOf tenantId (calls ++ [⟨call, result⟩]) = callsOf tenantId calls := by
            simp [callsOf, List.filter_append, asks]
          rw [last]
          exact served
        · rcases exec_touches ran with rfl | ⟨agentId, touches⟩
          · exact shares
          · exact touches.shares founded (owns agentId touches.names) asks shares

/-- **Tenants of the registry are apart.** In every history in which no call names the agent of
another tenant, a call leaves the agents of the other tenants and their versions as they are, and
the index of a tenant, whatever is asked of it, is the one after the calls of the tenant alone,
which have the results that they have in the history. -/
theorem tenants_apart (served : (registry lib).Serves Owns {} calls s) :
    (∀ call x s', Owns s call → (registry lib).Exec (serve lib call) s x s' →
      ∀ agent ∈ s.agents, agent.tenantId ≠ call.tenantId →
        agent ∈ s'.agents ∧ s'.versions agent.id = s.versions agent.id) ∧
    ∀ tenantId, ∃ t, (registry lib).Serves Owns {} (callsOf tenantId calls) t ∧
      ∀ input : ListAgentIndexInput, input.tenantId = tenantId → ∀ x,
        (registry lib).Exec (listByTenant lib input) s x s ↔
        (registry lib).Exec (listByTenant lib input) t x t := by
  refine ⟨fun call x s' owns ran agent inside differs => ?_, fun tenantId => ?_⟩
  · rcases exec_touches ran with rfl | ⟨agentId, touches⟩
    · exact ⟨inside, rfl⟩
    · exact touches.keeps (owns agentId touches.names) inside differs
  · obtain ⟨t, served', shares⟩ := exists_own_history served tenantId
    exact ⟨t, served', fun input asks x => shares.listByTenant (serves_founded served) asks⟩

/-- Two tenants make a version each, and each publishes its own. -/
def twoTenants : Option (List (Effect.Call RegistryIface Call Response) × MemoryStore) :=
  (registry releaseLibraries).serve (fun s call => Owns s call) {}
    [(.createVersion (newVersion "1.0.0"), atTime 1),
     (.createVersion { newVersion "2.0.0" with agentId := "theirs", tenantId := "other" }, atTime 2),
     (.publishVersion "agent" "1.0.0" "tenant", atTime 3),
     (.publishVersion "theirs" "2.0.0" "other", atTime 4)]

theorem twoTenants_apart :
    ∃ t, (registry releaseLibraries).Serves Owns {}
        (callsOf "tenant" (twoTenants.get (by decide)).1) t ∧
      ∀ x, (registry releaseLibraries).Exec (listByTenant releaseLibraries
          { tenantId := "tenant" }) (twoTenants.get (by decide)).2 x
          (twoTenants.get (by decide)).2 ↔
        (registry releaseLibraries).Exec (listByTenant releaseLibraries { tenantId := "tenant" })
          t x t := by
  have served : (registry releaseLibraries).Serves Owns {} _ _ :=
    .of_serve_get (fun _ _ allowed => of_decide_eq_true allowed)
      (show twoTenants.isSome by decide)
  obtain ⟨t, own, listings⟩ := (tenants_apart served).2 "tenant"
  exact ⟨t, own, listings _ rfl⟩

/-- Another tenant deprecates the version that was published. -/
def deprecatedByOther : Option (Except String Response × MemoryStore) :=
  (registry releaseLibraries).alone (serve releaseLibraries
    (.deprecateVersion "agent" "1.10.0" "other")) (atTime 4) secondPublished

theorem deprecatedByOther_changes :
    ¬ ∀ call x s', (registry releaseLibraries).Exec (serve releaseLibraries call) secondPublished
        x s' → ∀ agent ∈ secondPublished.agents, agent.tenantId ≠ call.tenantId →
      (s'.versions agent.id).map (·.status) =
        (secondPublished.versions agent.id).map (·.status) := by
  intro all
  have ran := System.Exec.of_alone_get (show deprecatedByOther.isSome by decide)
  have same := all (.deprecateVersion "agent" "1.10.0" "other") _ _ ran
    (secondPublished.agents.get ⟨0, by decide⟩) (List.get_mem _ _) (by decide)
  exact absurd same (by decide)

end Registry
