import BirthHub.Effect.Moves
import BirthHub.Policies.Config

/-!
# Administration loses no policy

Every call writes back the whole config that it read. When, as a call writes, the policies of
other ids are still those that it read, then the stored policies are the last versions that
calls have written, and nothing else of the config changes. Another call may have written
between, under the ids that this one writes too.
-/

namespace Policies

open Data Effect

/-! ## The property -/

abbrev PolicyWorld (β : Type) := World PolicyIface PolicyTask Store β

abbrev PolicyState := PolicyWorld (Prog PolicyIface PolicyResponse)

def Store.config (store : Store) (agentId : String) : Option Json :=
  (store.agents.get agentId).map (·.config)

def templateIds (template : PolicyTemplateName) : List String :=
  (List.range (templateRules template).length).map fun index =>
    template.text ++ "-" ++ toString (index + 1)

/-- The policies that a call has written, among those that it returns. -/
def PolicyTask.written : PolicyTask → PolicyResponse → List ManagedAgentPolicy
  | .template input, .managedPolicies policies =>
      policies.filter (·.id ∈ templateIds input.template)
  | _, .managedPolicies policies => policies
  | _, .policy policy => [policy]

/-- The policies that call `i` has written, once it has returned. -/
def PolicyState.acknowledged (w : PolicyState) (i : Nat) : List ManagedAgentPolicy :=
  match w.threads[i]? with
  | some ⟨task, .pure response, _⟩ => task.written response
  | _ => []

/-- The event is that a call has written the config. -/
def Commits : Event PolicyIface → Bool
  | ⟨_, .writePolicies .., .ok _⟩ => true
  | _ => false

/-- The policy is stored, and no other under its id. -/
def Stores (store : Store) (agentId : String) (policy : ManagedAgentPolicy) : Prop :=
  ∃ config policies, store.config agentId = some config ∧
    config.member "managedPolicies" = some (.array (policies.map policyJson)) ∧
    IsOnly policy policies

structure Intact (agentId : String) (first : Json) (w : PolicyState) : Prop where
  committed : ∀ {i policy}, policy ∈ w.acknowledged i →
    ∃ e ∈ w.trace, e.actor = i ∧ Commits e = true
  /-- A policy is stored as the call has written it that wrote its id last. -/
  latest : ∀ {newer older : List (Event PolicyIface)} {e policy}, w.trace = newer ++ e :: older →
    Commits e = true → policy ∈ w.acknowledged e.actor →
    (∀ later ∈ newer, Commits later = true → ∀ other ∈ w.acknowledged later.actor,
      other.id ≠ policy.id) →
    Stores w.store agentId policy
  /-- A policy that no call has written is one that was there at first. -/
  untouched : ∀ policy ∈ (parseAgentConfig first).managedPolicies,
    (∀ i, ∀ other ∈ w.acknowledged i, other.id ≠ policy.id) →
    ∃ config, w.store.config agentId = some config ∧
      ∃ kept ∈ (parseAgentConfig config).managedPolicies, kept.id = policy.id ∧
        kept ∈ (parseAgentConfig first).managedPolicies
  others : ∃ config, w.store.config agentId = some config ∧
    ∀ key ≠ "managedPolicies", config.member key = first.member key

/-! ## The condition -/

/-- The request names the id as that of a policy that it writes. -/
def PolicyTask.names (id : String) : PolicyTask → Bool
  | .upsert input => input.policyId = some id
  | .patch input => input.policyId = id
  | .template input => id ∈ templateIds input.template

/-- As a call writes the config, the policies under ids that its request does not name are
those that it read. -/
def Current (w : PolicyState) : Act Choice PolicyTask → Prop
  | .env _ => True
  | .run i _ => ∀ t agentId config log id tenantId row stored, w.threads[i]? = some t →
      t.body.pending = some (.writePolicies agentId config log) →
      ⟨i, .findAgent id tenantId, .ok (some row)⟩ ∈ w.trace →
      w.store.config agentId = some stored → ∀ policyId, t.tag.names policyId = false →
      policiesOf policyId stored = policiesOf policyId row.config

/-- No call has been started. -/
def start {β : Type} (store : Store) : PolicyWorld β := ⟨store, [], []⟩

/-! ## The stages of a call -/

inductive Stage
  /-- The agent has not been read. -/
  | begun
  | read (row : Packs.AgentRow)
  | done (written : List ManagedAgentPolicy)
  | failed

namespace Stage

def isOpen : Stage → Bool
  | .begun => true
  | .read _ => true
  | _ => false

/-- The operation reads only. -/
def Reads : PolicyOp → Prop
  | .writePolicies .. => False
  | _ => True

inductive Move (task : PolicyTask) :
    Stage → (o : PolicyOp) → PolicyIface.Answer o → Stage → Prop
  | stop {s : Stage} {o : PolicyOp} {answer : PolicyIface.Answer o} (here : s.isOpen = true)
      (reads : Reads o) : Move task s o answer .failed
  | organization {reference : String}
      {answer : PolicyIface.Answer (.findOrganization reference)} :
      Move task .begun (.findOrganization reference) answer .begun
  | read {tenantId : String} {row : Packs.AgentRow} :
      Move task .begun (.findAgent task.installedAgentId tenantId) (.ok (some row)) (.read row)
  | catalog {row : Packs.AgentRow} {answer : PolicyIface.Answer .getCatalog} :
      Move task (.read row) .getCatalog answer (.read row)
  | uuid {row : Packs.AgentRow} {answer : PolicyIface.Answer .randomUUID} :
      Move task (.read row) .randomUUID answer (.read row)
  | write {row : Packs.AgentRow} {written policies : List ManagedAgentPolicy}
      {log : Packs.AuditLog}
      (merges : task.replacesExisting = false →
        Merges (parseAgentConfig row.config).managedPolicies written policies)
      (names : ∀ id, task.names id = true → ∃ policy ∈ written, policy.id = id) :
      Move task (.read row) (.writePolicies row.id (updatedConfig row.config policies) log)
        (.ok ()) (.done written)
  | lost {row : Packs.AgentRow} {agentId : String} {config : Json} {log : Packs.AuditLog}
      {e : PolicyError} :
      Move task (.read row) (.writePolicies agentId config log) (.error e) .failed

/-- A call returns when it has written, with the policies that it has written. -/
def ends (task : PolicyTask) : Except PolicyError PolicyResponse → Stage → Prop
  | .ok response, s => ∃ written, s = .done written ∧
      (task.replacesExisting = false → ∀ policy, policy ∈ task.written response ↔ policy ∈ written)
  | .error _, _ => True

end Stage

/-! ### The calls follow the moves -/

section Follows

variable {task : PolicyTask}

theorem findTenant_follows (tenantId : String) :
    (findTenant tenantId).Follows (Stage.Move task)
      (fun x s => ∀ organization, x = .ok organization → s = .begun) .begun := by
  refine Prog.Follows.performBind (fun organization => ⟨_, .organization, ?_⟩)
    fun e => ⟨_, .organization, fun _ same => (nomatch same)⟩
  cases organization with
  | none => exact fun _ same => (nomatch same)
  | some organization => exact fun _ _ => rfl

theorem resolveOrganization_follows (tenantReference : String) :
    (resolveOrganization tenantReference).Follows (Stage.Move task)
      (fun x s => ∀ organization, x = .ok organization → s = .begun) .begun := by
  unfold resolveOrganization
  dsimp only
  split
  · exact fun _ same => (nomatch same)
  · refine Prog.Follows.tryCatch (Prog.Follows.mono (fun x s before => ?_)
      (findTenant_follows (trim tenantReference)))
    cases x with
    | ok organization => exact before
    | error e => exact fun _ same => (nomatch same)

/-- The agent is read, or the call fails. -/
theorem resolveInstalledAgent_follows (task : PolicyTask) (tenantReference : String) :
    (resolveInstalledAgent task.installedAgentId tenantReference).Follows (Stage.Move task)
      (fun x s => ∀ resolved, x = .ok resolved →
        s = .read resolved.agent ∧ resolved.config = parseAgentConfig resolved.agent.config)
      .begun := by
  rw [resolveInstalledAgent]
  refine Prog.Follows.bind (Prog.Follows.mono (fun x s before => ?_)
    (resolveOrganization_follows tenantReference))
  cases x with
  | error e => exact fun _ same => (nomatch same)
  | ok organization =>
      obtain rfl := before organization rfl
      refine Prog.Follows.performBind (fun agent => ?_)
        fun e => ⟨_, .stop rfl trivial, fun _ same => (nomatch same)⟩
      cases agent with
      | none => exact ⟨_, .stop rfl trivial, fun _ same => (nomatch same)⟩
      | some row =>
          refine ⟨_, .read, ?_⟩
          dsimp only
          split
          · exact fun _ same => (nomatch same)
          · refine Prog.Follows.performBind (fun catalog => ⟨_, .catalog, ?_⟩)
              fun e => ⟨_, .catalog, fun _ same => (nomatch same)⟩
            split
            · intro resolved same
              cases same
              exact ⟨rfl, rfl⟩
            · exact fun _ same => (nomatch same)

/-- A call goes on with the agent that it has read, or fails. -/
theorem resolved_follows {α : Type} {rest : Resolved → Prog PolicyIface α}
    {Q : Except PolicyError α → Stage → Prop} {installedAgentId : String}
    (named : task.installedAgentId = installedAgentId) {tenantReference : String}
    (each : ∀ resolved, resolved.config = parseAgentConfig resolved.agent.config →
      (rest resolved).Follows (Stage.Move task) Q (.read resolved.agent))
    (fails : ∀ e s, Q (.error e) s) :
    ((resolveInstalledAgent installedAgentId tenantReference).bind rest).Follows
      (Stage.Move task) Q .begun := by
  subst named
  have follows := resolveInstalledAgent_follows task tenantReference
  generalize resolveInstalledAgent task.installedAgentId tenantReference = p at follows ⊢
  refine Prog.Follows.bind (Prog.Follows.mono (fun x s before => ?_) follows)
  cases x with
  | error e => exact fails e s
  | ok resolved =>
      obtain ⟨rfl, parsed⟩ := before resolved rfl
      exact each resolved parsed

/-- The end of a call that returns `a`, of which it has written a part. -/
def Wrote {α : Type} (task : PolicyTask) (part : α → List ManagedAgentPolicy)
    (x : Except PolicyError α) (s : Stage) : Prop :=
  ∀ a, x = .ok a → ∃ written, s = .done written ∧
    (task.replacesExisting = false → ∀ policy, policy ∈ part a ↔ policy ∈ written)

/-- The call writes the config of the agent that it has read, and returns. -/
theorem writePolicies_follows {α : Type} {part : α → List ManagedAgentPolicy} {a : α}
    {row : Packs.AgentRow} (written : List ManagedAgentPolicy)
    {policies : List ManagedAgentPolicy} {log : Packs.AuditLog}
    (merges : task.replacesExisting = false →
      Merges (parseAgentConfig row.config).managedPolicies written policies)
    (names : ∀ id, task.names id = true → ∃ policy ∈ written, policy.id = id)
    (wrote : task.replacesExisting = false → ∀ policy, policy ∈ part a ↔ policy ∈ written) :
    ((await (.writePolicies row.id (updatedConfig row.config policies) log)).bind
      fun _ => (Prog.pure a : Prog PolicyIface α)).Follows (Stage.Move task) (Wrote task part)
        (.read row) := by
  refine Prog.Follows.performBind (fun _ => ⟨_, .write merges names, ?_⟩)
    fun e => ⟨_, .lost, fun _ same => (nomatch same)⟩
  intro a' same
  cases same
  exact ⟨written, rfl, wrote⟩

theorem choosePolicyId_follows (row : Packs.AgentRow) (given : Option String) :
    (choosePolicyId row.id given).Follows (Stage.Move task)
      (fun x s => ∀ id, x = .ok id → s = .read row ∧ ∀ policyId ∈ given, policyId = id)
      (.read row) := by
  cases given with
  | some policyId =>
      intro id same
      cases same
      exact ⟨rfl, fun other is => (Option.some.inj is).symm⟩
  | none =>
      refine Prog.Follows.performBind (fun uuid => ⟨_, .uuid, ?_⟩)
        fun e => ⟨_, .uuid, fun _ same => (nomatch same)⟩
      exact fun _ _ => ⟨rfl, fun _ is => (nomatch is)⟩

theorem upsert_follows (localeCompare : String → String → Int) (input : UpsertInput) :
    (upsertInstalledAgentPolicy localeCompare input).Follows (Stage.Move (.upsert input))
      (Wrote (.upsert input) fun policy => [policy]) .begun := by
  apply resolved_follows rfl
  case fails => exact fun _ _ _ same => (nomatch same)
  intro resolved parsed
  have write (id : String) (named : ∀ policyId ∈ input.policyId, policyId = id) :
      ((await (.writePolicies resolved.agent.id
        (updatedConfig resolved.agent.config (mergeManagedPolicies localeCompare
          resolved.config.managedPolicies (upsertedPolicy input id)))
        (policyLog resolved "AGENT_POLICY_UPSERTED" input.userId
          (upsertedPolicy input id)))).bind
        fun _ => (Prog.pure (upsertedPolicy input id) :
          Prog PolicyIface ManagedAgentPolicy)).Follows (Stage.Move (.upsert input))
        (Wrote (.upsert input) fun policy => [policy]) (.read resolved.agent) := by
    rw [parsed]
    refine writePolicies_follows [upsertedPolicy input id]
      (fun _ => mergeManagedPolicies_merges _ _ _) (fun policyId own => ?_)
      fun _ policy => Iff.rfl
    exact ⟨_, List.mem_singleton_self _, (named policyId (of_decide_eq_true own)).symm⟩
  refine Prog.Follows.bind (Prog.Follows.mono (fun x s chosen => ?_)
    (choosePolicyId_follows resolved.agent input.policyId))
  cases x with
  | error e => exact fun _ same => (nomatch same)
  | ok id =>
      obtain ⟨rfl, named⟩ := chosen id rfl
      exact write id named

theorem patch_follows (input : PatchInput) :
    (patchInstalledAgentPolicy input).Follows (Stage.Move (.patch input))
      (Wrote (.patch input) fun policy => [policy]) .begun := by
  apply resolved_follows rfl
  case fails => exact fun _ _ _ same => (nomatch same)
  intro resolved parsed
  dsimp only [Prog.bindPost]
  split
  · exact fun _ same => (nomatch same)
  · rename_i currentPolicy found
    have inside := List.mem_of_find?_eq_some found
    have named : currentPolicy.id = input.policyId := by simpa using List.find?_some found
    refine writePolicies_follows [patchedPolicy input currentPolicy]
      (fun _ => ?_) (fun policyId own => ?_) fun _ policy => Iff.rfl
    · rw [← parsed]
      exact replaced_merges inside rfl
    · exact ⟨_, List.mem_singleton_self _, named.trans (of_decide_eq_true own)⟩

theorem templatedPolicies_ids (template : PolicyTemplateName) (tenantId agentId : String) :
    (templatedPolicies template tenantId agentId).map ManagedAgentPolicy.id =
      templateIds template := by
  cases template <;> rfl

theorem templateIds_nodup (template : PolicyTemplateName) : (templateIds template).Nodup := by
  cases template <;> decide

theorem template_follows (input : TemplateInput) :
    (applyPolicyTemplate input).Follows (Stage.Move (.template input))
      (Wrote (.template input) fun policies =>
        policies.filter (·.id ∈ templateIds input.template)) .begun := by
  apply resolved_follows rfl
  case fails => exact fun _ _ _ same => (nomatch same)
  intro resolved parsed
  have ids := templatedPolicies_ids input.template resolved.organization.tenantId
    resolved.agent.id
  have distinct := ids ▸ templateIds_nodup input.template
  have merges : Merges resolved.config.managedPolicies
      (templatedPolicies input.template resolved.organization.tenantId resolved.agent.id)
      (lastById (resolved.config.managedPolicies ++ templatedPolicies input.template
        resolved.organization.tenantId resolved.agent.id)) := lastById_merges distinct
  refine writePolicies_follows (templatedPolicies input.template
    resolved.organization.tenantId resolved.agent.id) (fun kept => ?_) (fun id own => ?_)
    fun kept policy => ?_
  · rw [if_neg (by rw [show input.replaceExisting.getD false = false from kept]; decide),
      ← parsed]
    exact merges
  · have named : id ∈ templateIds input.template := of_decide_eq_true own
    rw [← ids] at named
    exact List.mem_map.mp named
  · rw [if_neg (by rw [show input.replaceExisting.getD false = false from kept]; decide),
      List.mem_filter, decide_eq_true_eq, ← ids]
    constructor
    · rintro ⟨there, named⟩
      obtain ⟨own, inside, same⟩ := List.mem_map.mp named
      rw [(merges.own own inside).2 policy there same.symm]
      exact inside
    · intro inside
      exact ⟨(merges.own policy inside).1, List.mem_map_of_mem inside⟩

/-- A call that is answered with what it returns. -/
theorem answered_follows {α : Type} {part : α → List ManagedAgentPolicy} {p : Prog PolicyIface α}
    (follows : p.Follows (Stage.Move task) (Wrote task part) .begun) (answer : α → PolicyResponse)
    (same : ∀ a, task.written (answer a) = part a) :
    (p.bind fun a => .pure (answer a)).Follows (Stage.Move task) (Stage.ends task) .begun := by
  refine Prog.Follows.bind (Prog.Follows.mono (fun x s wrote => ?_) follows)
  cases x with
  | error e => trivial
  | ok a =>
      obtain ⟨written, rfl, exactly⟩ := wrote a rfl
      exact ⟨written, rfl, fun kept => by rw [same]; exact exactly kept⟩

theorem serve_follows (localeCompare : String → String → Int) (task : PolicyTask) :
    (serve localeCompare task).Follows (Stage.Move task) (Stage.ends task) .begun := by
  cases task with
  | upsert input =>
      have shape : serve localeCompare (.upsert input) =
          (upsertInstalledAgentPolicy localeCompare input).bind fun policy =>
            .pure (.policy policy) := rfl
      have follows := upsert_follows localeCompare input
      rw [shape]
      generalize upsertInstalledAgentPolicy localeCompare input = p at follows ⊢
      exact answered_follows follows .policy fun _ => rfl
  | patch input =>
      have shape : serve localeCompare (.patch input) =
          (patchInstalledAgentPolicy input).bind fun policy => .pure (.policy policy) := rfl
      have follows := patch_follows input
      rw [shape]
      generalize patchInstalledAgentPolicy input = p at follows ⊢
      exact answered_follows follows .policy fun _ => rfl
  | template input =>
      have shape : serve localeCompare (.template input) =
          (applyPolicyTemplate input).bind fun policies => .pure (.managedPolicies policies) := rfl
      have follows := template_follows input
      rw [shape]
      generalize applyPolicyTemplate input = p at follows ⊢
      exact answered_follows follows .managedPolicies fun _ => rfl

end Follows

/-- The stages of the calls of the system. -/
def callStages (localeCompare : String → String → Int) (agentId : String) :
    Discipline PolicyIface PolicyTask PolicyResponse :=
  movesDiscipline (administration localeCompare agentId) (fun _ => Stage.begun) Stage.Move
    Stage.ends

theorem callStages_starts (localeCompare : String → String → Int) (agentId : String)
    (task : PolicyTask) :
    ((administration localeCompare agentId).program task).Follows
      ((callStages localeCompare agentId).step task) ((callStages localeCompare agentId).ends task)
      ((callStages localeCompare agentId).start task) :=
  (serve_follows localeCompare task).marked

/-! ## What an operation changes -/

namespace Store

variable {store store' : Store} {choice : Choice}

theorem handle_reads {o : PolicyOp} {answer : PolicyIface.Answer o}
    (answered : store.handle o choice = (answer, store')) (reads : Stage.Reads o) :
    store' = store := by
  have unchanged : (store.perform choice o).2 = store := by
    cases o with
    | writePolicies => exact reads.elim
    | _ => rfl
  have after : store' = (store.handle o choice).2 := (congrArg Prod.snd answered).symm
  rw [after, handle]
  split
  · exact unchanged
  · dsimp only
    split
    · exact unchanged
    · rfl

theorem handle_findAgent {id tenantId : String} {row : Packs.AgentRow}
    (answered : store.handle (.findAgent id tenantId) choice = (.ok (some row), store')) :
    store.agents.get id = some row := by
  unfold handle at answered
  split at answered
  · have found := Except.ok.inj (congrArg Prod.fst answered)
    exact (Option.filter_eq_some_iff.mp found).1
  · cases congrArg Prod.fst answered

theorem handle_writePolicies {agentId : String} {config : Json} {log : Packs.AuditLog}
    (answered : store.handle (.writePolicies agentId config log) choice = (.ok (), store')) :
    store' = store.setConfig agentId config log := by
  unfold handle at answered
  split at answered
  · simp only [perform] at answered
    split at answered
    · exact (congrArg Prod.snd answered).symm
    · cases congrArg Prod.fst answered
  · cases congrArg Prod.fst answered

theorem config_setConfig {agentId : String} {config stored : Json} {log : Packs.AuditLog}
    (there : store.config agentId = some stored) :
    (store.setConfig agentId config log).config agentId = some config := by
  obtain ⟨row, found, rfl⟩ := Option.map_eq_some_iff.mp there
  have own : row.id = agentId := (List.mem_singleton.mp (Table.get_eq_some.mp found).2).symm
  rw [Store.config, setConfig, Table.get_update, found]
  simp [own]

end Store

/-! ## The invariant -/

abbrev StagedThread := Thread PolicyTask (Marked Stage)

abbrev StagedPolicies := PolicyWorld (Marked Stage)

def Stage.written : Stage → List ManagedAgentPolicy
  | .done written => written
  | _ => []

/-- The policies that call `i` has written. -/
def staged (a : StagedPolicies) (i : Nat) : List ManagedAgentPolicy :=
  ((a.threads[i]?).map (·.body.stage.written)).getD []

/-- No call has written the id. -/
def Unwritten (a : StagedPolicies) (id : String) : Prop := ∀ i, ∀ policy ∈ staged a i, policy.id ≠ id

structure Kept (agentId : String) (first : Json) (a : StagedPolicies) : Prop where
  calls : ∀ {i : Nat} {u : StagedThread}, a.threads[i]? = some u →
    u.tag.installedAgentId = agentId ∧ u.tag.replacesExisting = false
  reads : ∀ {i : Nat} {u : StagedThread} {row : Packs.AgentRow}, a.threads[i]? = some u →
    u.body.stage = .read row → row.id = agentId ∧ Carries first row.config ∧
      ∃ id tenantId, ⟨i, .findAgent id tenantId, .ok (some row)⟩ ∈ a.trace
  committed : ∀ {i policy}, policy ∈ staged a i → ∃ e ∈ a.trace, e.actor = i ∧ Commits e = true
  commits : ∀ {e}, e ∈ a.trace → Commits e = true →
    ∃ u, a.threads[e.actor]? = some u ∧ u.body.stage.isOpen = false
  latest : ∀ {newer older : List (Event PolicyIface)} {e policy}, a.trace = newer ++ e :: older →
    Commits e = true → policy ∈ staged a e.actor →
    (∀ later ∈ newer, Commits later = true → ∀ other ∈ staged a later.actor,
      other.id ≠ policy.id) →
    Stores a.store agentId policy
  config : ∃ config, a.store.config agentId = some config ∧ Carries first config ∧
    (∀ policy ∈ (parseAgentConfig config).managedPolicies, Unwritten a policy.id →
      policy ∈ (parseAgentConfig first).managedPolicies) ∧
    ∀ policy ∈ (parseAgentConfig first).managedPolicies, Unwritten a policy.id →
      ∃ kept ∈ (parseAgentConfig config).managedPolicies, kept.id = policy.id

/-- The invariant, as long as no call has failed. -/
def Sound (agentId : String) (first : Json) (a : StagedPolicies) : Prop :=
  (∃ (i : Nat) (u : StagedThread), a.threads[i]? = some u ∧ u.body.stage = .failed) ∨
    Kept agentId first a

/-! ## What one step keeps -/

section Steps

variable {agentId : String} {first : Json} {a : StagedPolicies} {i j : Nat} {u : StagedThread}
  {b : Marked Stage} {store : Store} {e : Event PolicyIface}

theorem staged_at (there : a.threads[i]? = some u) : staged a i = u.body.stage.written := by
  rw [staged, there]
  rfl

theorem staged_self (there : a.threads[i]? = some u) :
    staged (a.advance i b store e) i = b.stage.written :=
  staged_at (World.advance_self there)

theorem staged_other (other : j ≠ i) : staged (a.advance i b store e) j = staged a j := by
  rw [staged, World.advance_other other, staged]

theorem staged_of_open (there : a.threads[i]? = some u) (here : u.body.stage.isOpen = true) :
    staged a i = [] := by
  rw [staged_at there]
  cases stage : u.body.stage with
  | done written =>
      rw [stage] at here
      cases here
  | _ => rfl

/-- What is written is what was written before, while the call that moves is open. -/
theorem staged_open (there : a.threads[i]? = some u) (here : u.body.stage.isOpen = true)
    (stays : b.stage.isOpen = true) (j : Nat) : staged (a.advance i b store e) j = staged a j := by
  by_cases own : j = i
  · subst own
    rw [staged_of_open (World.advance_self there) stays, staged_of_open there here]
  · exact staged_other own

/-- The thread of a call that has written does not move. -/
theorem Kept.ne_of_commits (inv : Kept agentId first a) (there : a.threads[i]? = some u)
    (here : u.body.stage.isOpen = true) (listed : e ∈ a.trace) (commits : Commits e = true) :
    e.actor ≠ i := by
  obtain ⟨v, there', closed⟩ := inv.commits listed commits
  rintro rfl
  cases there.symm.trans there'
  rw [here] at closed
  cases closed

/-- What no call has written after a step of an open call, none had written before. -/
theorem Unwritten.before {id : String} (free : Unwritten (a.advance i b store e) id)
    (there : a.threads[i]? = some u) (here : u.body.stage.isOpen = true) : Unwritten a id := by
  intro j policy mine
  by_cases own : j = i
  · rw [own, staged_of_open there here] at mine
    cases mine
  · exact free j policy (by rw [staged_other own]; exact mine)

/-- A step that does not write keeps the invariant. -/
theorem Kept.keep (inv : Kept agentId first a) (there : a.threads[i]? = some u)
    (here : u.body.stage.isOpen = true) (stays : b.stage.isOpen = true) (own : e.actor = i)
    (quiet : Commits e = false) (reads : ∀ row, b.stage = .read row → row.id = agentId ∧
      Carries first row.config ∧
      ∃ id tenantId, ⟨i, .findAgent id tenantId, .ok (some row)⟩ ∈ e :: a.trace) :
    Kept agentId first (a.advance i b a.store e) := by
  have same := fun j => @staged_open a i u b a.store e there here stays j
  constructor
  case calls =>
    intro j v there'
    obtain ⟨t, before, tag, _⟩ := World.advance_kept there'
    rw [tag]
    exact inv.calls before
  case reads =>
    intro j v row there' stage
    rcases World.advance_cases there there' with ⟨rfl, rfl⟩ | ⟨_, before⟩
    · exact reads row stage
    · obtain ⟨named, carries, id, tenantId, inside⟩ := inv.reads before stage
      exact ⟨named, carries, id, tenantId, List.mem_cons_of_mem _ inside⟩
  case committed =>
    intro j policy inside
    rw [same] at inside
    obtain ⟨earlier, listed, actor, commits⟩ := inv.committed inside
    exact ⟨earlier, List.mem_cons_of_mem _ listed, actor, commits⟩
  case commits =>
    intro earlier listed commits
    rcases List.mem_cons.mp listed with rfl | listed
    · rw [quiet] at commits
      cases commits
    · have other := inv.ne_of_commits there here listed commits
      obtain ⟨v, before, closed⟩ := inv.commits listed commits
      exact ⟨v, by rw [World.advance_other other]; exact before, closed⟩
  case latest =>
    intro newer older earlier policy split commits inside last
    simp only [same] at inside last
    cases newer with
    | nil =>
        obtain ⟨rfl, _⟩ := List.cons.inj split
        rw [quiet] at commits
        cases commits
    | cons newest newer =>
        have before : a.trace = newer ++ earlier :: older := (List.cons.inj split).2
        exact inv.latest before commits inside fun later between =>
          last later (List.mem_cons_of_mem _ between)
  case config =>
    have unwritten {id : String} :
        Unwritten (a.advance i b a.store e) id ↔ Unwritten a id := by
      simp only [Unwritten, same]
    obtain ⟨config, stored, carries, known, kept⟩ := inv.config
    exact ⟨config, stored, carries, fun policy inside free => known policy inside (unwritten.mp free),
      fun policy inside free => kept policy inside (unwritten.mp free)⟩

theorem mem_policiesOf {policy : ManagedAgentPolicy} {config : Json} {id : String} :
    policy ∈ policiesOf id config ↔
      policy ∈ (parseAgentConfig config).managedPolicies ∧ policy.id = id := by
  rw [policiesOf, List.mem_filter, decide_eq_true_eq]

/-- What is stored under an id is the only policy of an equal list of those under it. -/
theorem isOnly_congr {config config' : Json} {policy : ManagedAgentPolicy}
    (same : policiesOf policy.id config = policiesOf policy.id config')
    (only : IsOnly policy (parseAgentConfig config).managedPolicies) :
    IsOnly policy (parseAgentConfig config').managedPolicies := by
  refine ⟨(mem_policiesOf.mp (same ▸ mem_policiesOf.mpr ⟨only.1, rfl⟩)).1, fun other there is => ?_⟩
  have before := mem_policiesOf.mp (same ▸ mem_policiesOf.mpr ⟨there, is⟩)
  exact only.2 other before.1 is

theorem Stores.isOnly {config : Json} {policy : ManagedAgentPolicy}
    (stores : Stores store agentId policy) (stored : store.config agentId = some config) :
    IsOnly policy (parseAgentConfig config).managedPolicies := by
  obtain ⟨config', policies, stored', member, only⟩ := stores
  cases stored.symm.trans stored'
  have parsed : (parseAgentConfig config).managedPolicies = policies := by
    simp only [parseAgentConfig, member]
    exact filterMap_parse policies
  rw [parsed]
  exact only

/-- A call that writes keeps the invariant, when what it does not write is as it was read. -/
theorem Kept.write (inv : Kept agentId first a) (object : Written first)
    (there : a.threads[i]? = some u) {row : Packs.AgentRow} (stage : u.body.stage = .read row)
    {written policies : List ManagedAgentPolicy} {log : Packs.AuditLog}
    (done : b.stage = .done written)
    (merges : Merges (parseAgentConfig row.config).managedPolicies written policies)
    (current : ∀ stored, a.store.config agentId = some stored → ∀ id,
      (∀ own ∈ written, own.id ≠ id) → policiesOf id stored = policiesOf id row.config) :
    Kept agentId first (a.advance i b
      (a.store.setConfig row.id (updatedConfig row.config policies) log)
      ⟨i, .writePolicies row.id (updatedConfig row.config policies) log, .ok ()⟩) := by
  obtain ⟨named, carries, _⟩ := inv.reads there stage
  have here : u.body.stage.isOpen = true := by rw [stage]; rfl
  obtain ⟨stored, there', _, known, kept⟩ := inv.config
  obtain ⟨member, parsed⟩ := managedPolicies_updatedConfig policies carries
  have stored' : (a.store.setConfig row.id (updatedConfig row.config policies) log).config agentId =
      some (updatedConfig row.config policies) := by
    rw [named]
    exact Store.config_setConfig there'
  have stores {policy : ManagedAgentPolicy} (only : IsOnly policy policies) :
      Stores (a.store.setConfig row.id (updatedConfig row.config policies) log) agentId policy :=
    ⟨_, policies, stored', member, only⟩
  have same := current stored there'
  constructor
  case calls =>
    intro j v after
    obtain ⟨t, before, tag, _⟩ := World.advance_kept after
    rw [tag]
    exact inv.calls before
  case reads =>
    intro j v row' after stage'
    rcases World.advance_cases there after with ⟨rfl, rfl⟩ | ⟨_, before⟩
    · cases done.symm.trans stage'
    · obtain ⟨named, carries, id, tenantId, inside⟩ := inv.reads before stage'
      exact ⟨named, carries, id, tenantId, List.mem_cons_of_mem _ inside⟩
  case committed =>
    intro j policy inside
    by_cases own : j = i
    · exact ⟨_, List.mem_cons_self, own.symm, rfl⟩
    · rw [staged_other own] at inside
      obtain ⟨earlier, listed, actor, commits⟩ := inv.committed inside
      exact ⟨earlier, List.mem_cons_of_mem _ listed, actor, commits⟩
  case commits =>
    intro earlier listed commits
    rcases List.mem_cons.mp listed with rfl | listed
    · exact ⟨_, World.advance_self there, by rw [done]; rfl⟩
    · have other := inv.ne_of_commits there here listed commits
      obtain ⟨v, before, closed⟩ := inv.commits listed commits
      exact ⟨v, by rw [World.advance_other other]; exact before, closed⟩
  case latest =>
    intro newer older earlier policy split commits inside last
    cases newer with
    | nil =>
        have newest : earlier = ⟨i, .writePolicies row.id (updatedConfig row.config policies) log,
          .ok ()⟩ := (List.cons.inj split).1.symm
        rw [newest, staged_self there, done] at inside
        exact stores (merges.own policy inside)
    | cons newest newer =>
        have before : a.trace = newer ++ earlier :: older := (List.cons.inj split).2
        have newest' : newest = ⟨i, .writePolicies row.id (updatedConfig row.config policies) log,
          .ok ()⟩ := (List.cons.inj split).1.symm
        have listed : earlier ∈ a.trace := before ▸ List.mem_append_right _ List.mem_cons_self
        rw [staged_other (inv.ne_of_commits there here listed commits)] at inside
        have apart : ∀ own ∈ written, own.id ≠ policy.id := by
          intro own mine
          refine last newest List.mem_cons_self (newest' ▸ rfl) own ?_
          rw [newest', staged_self there, done]
          exact mine
        have old : Stores a.store agentId policy := by
          refine inv.latest before commits inside fun later between commits' other mine => ?_
          have listed' : later ∈ a.trace := before ▸ List.mem_append_left _ between
          refine last later (List.mem_cons_of_mem _ between) commits' other ?_
          rw [staged_other (inv.ne_of_commits there here listed' commits')]
          exact mine
        exact stores (merges.kept policy apart
          (isOnly_congr (same policy.id apart) (old.isOnly there')))
  case config =>
    refine ⟨_, stored', carries.updated object, ?_, ?_⟩
    · intro policy inside free
      rw [parsed] at inside
      have apart : ∀ own ∈ written, own.id ≠ policy.id := fun own mine =>
        free i own (by rw [staged_self there, done]; exact mine)
      rcases merges.known policy inside with own | read
      · exact (apart policy own rfl).elim
      · have listed : policy ∈ policiesOf policy.id stored := by
          rw [same policy.id apart]
          exact mem_policiesOf.mpr ⟨read, rfl⟩
        exact known policy (mem_policiesOf.mp listed).1 (free.before there here)
    · intro policy inside free
      have apart : ∀ own ∈ written, own.id ≠ policy.id := fun own mine =>
        free i own (by rw [staged_self there, done]; exact mine)
      obtain ⟨found, listed, is⟩ := kept policy inside (free.before there here)
      have read : found ∈ policiesOf policy.id row.config := by
        rw [← same policy.id apart]
        exact mem_policiesOf.mpr ⟨listed, is⟩
      obtain ⟨other, merged, is'⟩ := merges.there found (mem_policiesOf.mp read).1
      exact ⟨other, by rw [parsed]; exact merged, is'.trans is⟩

/-- A call that starts has written nothing. -/
theorem staged_change {begin : PolicyTask → Marked Stage} {c : Change PolicyTask Store}
    (begins : ∀ task, (begin task).stage = .begun) (j : Nat) :
    staged (a.change begin c) j = staged a j := by
  cases found : a.threads[j]? with
  | some t =>
      have after : (a.change begin c).threads[j]? =
          some { t with settled := t.settled || decide (c.settle = some j) } :=
        World.change_kept found
      rw [staged, after, staged, found]
      rfl
  | none =>
      rw [staged, staged, found]
      cases after : (a.change begin c).threads[j]? with
      | none => rfl
      | some v =>
          rcases World.change_cases after with ⟨t, before, _⟩ | ⟨task, _, _, rfl⟩
          · cases found.symm.trans before
          · simp [begins, Stage.written]

/-- A call that starts keeps the invariant. -/
theorem Kept.spawn (inv : Kept agentId first a) {begin : PolicyTask → Marked Stage}
    (begins : ∀ task, (begin task).stage = .begun) {task : PolicyTask}
    (named : task.installedAgentId = agentId) (plain : task.replacesExisting = false) :
    Kept agentId first (a.change begin { store := a.store, spawn := [task] }) := by
  have same := fun j => @staged_change a begin { store := a.store, spawn := [task] } begins j
  constructor
  case calls =>
    intro j v after
    rcases World.change_cases after with ⟨t, before, rfl⟩ | ⟨task', _, spawned, rfl⟩
    · have kept := inv.calls before
      exact kept
    · obtain rfl := List.mem_singleton.mp (List.mem_of_getElem? spawned)
      exact ⟨named, plain⟩
  case reads =>
    intro j v row after stage
    rcases World.change_cases after with ⟨t, before, rfl⟩ | ⟨task', _, _, rfl⟩
    · exact inv.reads before stage
    · cases (begins task').symm.trans stage
  case committed =>
    intro j policy inside
    rw [same] at inside
    exact inv.committed inside
  case commits =>
    intro earlier listed commits
    obtain ⟨v, before, closed⟩ := inv.commits listed commits
    exact ⟨_, World.change_kept before, closed⟩
  case latest =>
    intro newer older earlier policy split commits inside last
    simp only [same] at inside last
    exact inv.latest split commits inside last
  case config =>
    have unwritten {id : String} :
        Unwritten (a.change begin { store := a.store, spawn := [task] }) id ↔ Unwritten a id := by
      simp only [Unwritten, same]
    obtain ⟨config, stored, carries, known, kept⟩ := inv.config
    exact ⟨config, stored, carries, fun policy inside free => known policy inside (unwritten.mp free),
      fun policy inside free => kept policy inside (unwritten.mp free)⟩

section Step

variable {localeCompare : String → String → Int} {w : PolicyState} {choice : Choice}
  {t : Thread PolicyTask (Prog PolicyIface PolicyResponse)} {o : PolicyOp}
  {k : PolicyIface.Answer o → Prog PolicyIface PolicyResponse} {answer : PolicyIface.Answer o}

theorem Kept.run (inv : Kept agentId first a) (object : Written first)
    (refines : (callStages localeCompare agentId).Refines w a)
    (current : Current w (.run i choice)) (found : w.threads[i]? = some t)
    (pending : t.body = .op o k) (there : a.threads[i]? = some u)
    (handled : a.store.handle o choice = (answer, store))
    (move : Stage.Move u.tag u.body.stage o answer b.stage) :
    Sound agentId first (a.advance i b store ⟨i, o, answer⟩) := by
  obtain ⟨named, plain⟩ := inv.calls there
  generalize stage : u.body.stage = s at move
  generalize stage' : b.stage = s' at move
  cases move with
  | stop | lost => exact .inl ⟨i, _, World.advance_self there, stage'⟩
  | organization =>
      obtain rfl := Store.handle_reads handled trivial
      exact .inr (inv.keep there (by rw [stage]; rfl) (by rw [stage']; rfl) rfl rfl
        fun row same => nomatch stage'.symm.trans same)
  | @read tenantId row =>
      have found := Store.handle_findAgent handled
      obtain rfl := Store.handle_reads handled trivial
      refine .inr (inv.keep there (by rw [stage]; rfl) (by rw [stage']; rfl) rfl rfl
        fun row' same => ?_)
      cases stage'.symm.trans same
      have own : row.id = agentId := by
        rw [← named]
        exact (List.mem_singleton.mp (Table.get_eq_some.mp found).2).symm
      have stored : a.store.config agentId = some row.config := by
        rw [Store.config, ← named, found]
        rfl
      obtain ⟨config, stored', carries, _⟩ := inv.config
      cases stored.symm.trans stored'
      exact ⟨own, carries, _, _, List.mem_cons_self⟩
  | catalog | uuid =>
      obtain rfl := Store.handle_reads handled trivial
      refine .inr (inv.keep there (by rw [stage]; rfl) (by rw [stage']; rfl) rfl rfl
        fun row' same => ?_)
      cases stage'.symm.trans same
      obtain ⟨own, carries, id, tenantId, inside⟩ := inv.reads there stage
      exact ⟨own, carries, id, tenantId, List.mem_cons_of_mem _ inside⟩
  | @write row written policies log merges names =>
      obtain rfl := Store.handle_writePolicies handled
      obtain ⟨own, _, id, tenantId, inside⟩ := inv.reads there stage
      obtain ⟨sameTag, _⟩ := refines.follows found there
      refine .inr (inv.write object there stage stage' (merges plain) fun stored there' id' apart => ?_)
      refine current t row.id (updatedConfig row.config policies) log id tenantId row stored found
        (by rw [pending]; rfl) (refines.trace ▸ inside)
        (by rw [own, ← refines.store]; exact there') id' ?_
      cases mine : t.tag.names id' with
      | false => rfl
      | true =>
          obtain ⟨policy, listed, same⟩ := names id' (sameTag ▸ mine)
          exact (apart policy listed same).elim

theorem Sound.run (sound : Sound agentId first a) (object : Written first)
    (refines : (callStages localeCompare agentId).Refines w a)
    (current : Current w (.run i choice)) (found : w.threads[i]? = some t)
    (pending : t.body = .op o k) (there : a.threads[i]? = some u)
    (answered : (administration localeCompare agentId).handle o choice a.store =
      some (answer, store))
    (step : (callStages localeCompare agentId).step u.tag u.body o answer b) :
    Sound agentId first (a.advance i b store ⟨i, o, answer⟩) := by
  obtain ⟨_, move⟩ := step
  rcases sound with ⟨j, v, failed, stage⟩ | inv
  · have other : j ≠ i := by
      rintro rfl
      cases there.symm.trans failed
      rw [stage] at move
      generalize b.stage = s' at move
      cases move with
      | stop here => cases here
    exact .inl ⟨j, v, by rw [World.advance_other other]; exact failed, stage⟩
  · exact inv.run object refines current found pending there (Option.some.inj answered) move

end Step

theorem Sound.env {localeCompare : String → String → Int} {task : PolicyTask}
    {c : Change PolicyTask Store} {threads : List (Thread PolicyTask Outcome)}
    (sound : Sound agentId first a)
    (change : (administration localeCompare agentId).env task a.store threads = some c)
    {begin : PolicyTask → Marked Stage} (begins : ∀ task, (begin task).stage = .begun) :
    Sound agentId first (a.change begin c) := by
  simp only [administration, Option.ite_none_right_eq_some, Option.some.injEq] at change
  obtain ⟨⟨named, plain⟩, rfl⟩ := change
  rcases sound with ⟨j, v, failed, stage⟩ | inv
  · exact .inl ⟨j, _, World.change_kept failed, stage⟩
  · exact .inr (inv.spawn begins named plain)

end Steps

/-! ## Every run -/

section

variable {localeCompare : String → String → Int} {agentId : String} {store : Store}
  {row : Packs.AgentRow} {w : PolicyState} {a : StagedPolicies}

/-- The invariant holds in every run. -/
theorem sound_of_run (there : store.agents.get agentId = some row) (object : Written row.config)
    (reached : (administration localeCompare agentId).Run Current (start store) w) :
    ∃ a, (callStages localeCompare agentId).Refines w a ∧ Sound agentId row.config a := by
  have begins : (callStages localeCompare agentId).Refines (start store) (start store) :=
    ⟨rfl, rfl, rfl, fun found => nomatch found⟩
  have holds : Kept agentId row.config (start store) := by
    constructor
    case config =>
      refine ⟨row.config, by rw [start, Store.config, there]; rfl, object.carries,
        fun _ inside _ => inside, fun policy inside _ => ⟨policy, inside, rfl⟩⟩
    case calls => exact fun found => nomatch found
    case reads => exact fun found => nomatch found
    case committed => exact fun inside => nomatch inside
    case commits => exact fun listed => nomatch listed
    case latest =>
      intro newer older e policy split
      cases newer <;> cases split
  exact reached.invariant (callStages_starts localeCompare agentId)
    (fun sound refines current found pending there answered step =>
      sound.run object refines current found pending there answered step)
    (fun sound _ _ change => sound.env change fun _ => rfl) begins (.inr holds)

/-- A call that has returned has written what it acknowledges. -/
theorem mem_acknowledged (refines : (callStages localeCompare agentId).Refines w a)
    (inv : Kept agentId row.config a) (returned : ∀ t ∈ w.threads, t.body.outcome = .returned)
    {i : Nat} {policy : ManagedAgentPolicy} :
    policy ∈ w.acknowledged i ↔ policy ∈ staged a i := by
  rw [PolicyState.acknowledged]
  cases found : w.threads[i]? with
  | none =>
      have length : a.threads.length = w.threads.length := refines.length
      have beyond : a.threads[i]? = none := by
        rw [List.getElem?_eq_none_iff] at found ⊢
        omega
      rw [staged, beyond]
      rfl
  | some t =>
      obtain ⟨u, there, sameTag, _, follows⟩ := refines.stage_of_thread found
      have ended := returned t (List.mem_of_getElem? found)
      obtain ⟨task, body, settled⟩ := t
      cases body with
      | pure response =>
          obtain ⟨_, written, stage, exactly⟩ := follows
          have here : a.threads[i]? = some (u : StagedThread) := there
          have tag : u.tag = task := sameTag
          have plain : task.replacesExisting = false := tag ▸ (inv.calls here).2
          have mine : staged a i = written := (staged_at here).trans (congrArg Stage.written stage)
          rw [mine]
          exact exactly plain policy
      | throw e => cases ended
      | op o k => cases ended

/-- When each call that writes leaves the other policies as they are stored, no policy is lost. -/
theorem intact_of_current (there : store.agents.get agentId = some row)
    (object : Written row.config)
    (reached : (administration localeCompare agentId).Run Current (start store) w)
    (returned : ∀ t ∈ w.threads, t.body.outcome = .returned) : Intact agentId row.config w := by
  obtain ⟨a, refines, sound⟩ := sound_of_run there object reached
  rcases sound with ⟨i, u, there', failed⟩ | inv
  · obtain ⟨t, found, _, _, follows⟩ := refines.thread_of_stage there'
    have ended := returned t (List.mem_of_getElem? found)
    obtain ⟨task, body, settled⟩ := t
    cases body with
    | pure response =>
        obtain ⟨_, written, stage, _⟩ := follows
        cases failed.symm.trans stage
    | throw e => cases ended
    | op o k => cases ended
  have same {i : Nat} {policy : ManagedAgentPolicy} :
      policy ∈ w.acknowledged i ↔ policy ∈ staged a i := mem_acknowledged refines inv returned
  constructor
  case committed =>
    intro i policy inside
    rw [← refines.trace]
    exact inv.committed (same.mp inside)
  case latest =>
    intro newer older e policy split commits inside last
    rw [← refines.store]
    exact inv.latest (refines.trace.trans split) commits (same.mp inside)
      fun later between commits' other mine => last later between commits' other (same.mpr mine)
  case untouched =>
    intro policy inside free
    have unwritten {id : String} (is : id = policy.id) : Unwritten a id := fun i other mine =>
      is ▸ free i other (same.mpr mine)
    obtain ⟨config, stored, _, known, kept⟩ := inv.config
    obtain ⟨found, listed, is⟩ := kept policy inside (unwritten rfl)
    exact ⟨config, refines.store ▸ stored, found, listed, is, known found listed (unwritten is)⟩
  case others =>
    obtain ⟨config, stored, carries, _⟩ := inv.config
    exact ⟨config, refines.store ▸ stored, carries.same⟩

end

/-! ## Two runs -/

/-- `localeCompare` on names of small letters. -/
def compareLetters (left right : String) : Int :=
  if left < right then -1 else if left = right then 0 else 1

def installedAgent : Packs.AgentRow where
  id := "agent"
  tenantId := "tenant"
  organizationId := "organization"
  name := "Agent"
  status := .ACTIVE
  config := .object [("sourceAgentId", .string "ceo"), ("status", .string "active")]

def oneAgent : Store where
  organizations := [⟨"organization", "tenant", "slug"⟩]
  agents := ⟨[installedAgent], List.pairwise_singleton _ _⟩
  catalog := [{
    policies := []
    agentId := "ceo"
    agentName := "CEO"
    keywords := []
    tools := []
    useCases := [] }]

def denyWrites (id : String) : UpsertInput where
  actions := ["tool.db-write"]
  effect := .deny
  installedAgentId := "agent"
  name := id
  policyId := some id
  tenantReference := "tenant"
  userId := "user"

theorem installedAgent_written : Written installedAgent.config where
  object := ⟨_, rfl⟩
  copied := by
    have copied : Json.fromEntries [("sourceAgentId", Json.string "ceo"),
        ("status", Json.string "active")] = installedAgent.config :=
      Json.fromEntries_of_names (by decide) (by decide)
    exact copied

/-- A write is tested for policies that are all stored as they were read. -/
def isCurrent (w : PolicyState) : Act Choice PolicyTask → Bool
  | .env _ => true
  | .run i _ => (w.threads[i]?).all fun t =>
      match t.body.pending with
      | some (.writePolicies agentId _ _) => w.trace.all fun
          | ⟨j, .findAgent _ _, .ok (some row)⟩ => j ≠ i || (w.store.config agentId).all fun stored =>
              (parseAgentConfig stored).managedPolicies =
                (parseAgentConfig row.config).managedPolicies
          | _ => true
      | _ => true

theorem isCurrent_sound (w : PolicyState) (act : Act Choice PolicyTask)
    (passes : isCurrent w act = true) : Current w act := by
  cases act with
  | env task => trivial
  | run i choice =>
      intro t agentId config log id tenantId row stored found pending inside there policyId _
      simp only [isCurrent, found, Option.all_some, pending] at passes
      have read := List.all_eq_true.mp passes _ inside
      simp only [ne_eq, not_true_eq_false, decide_false, Bool.false_or, there, Option.all_some,
        decide_eq_true_eq] at read
      rw [policiesOf, read, policiesOf]

/-- A policy is added, and then a template. -/
def addedInTurn : List (Act Choice PolicyTask) :=
  .env (.upsert (denyWrites "a")) :: List.replicate 4 (.run 0 {}) ++
  .env (.template {
    installedAgentId := "agent"
    template := .admin
    tenantReference := "slug"
    userId := "user" }) :: List.replicate 4 (.run 1 {})

theorem addedInTurn_intact : ∃ w, (administration compareLetters "agent").Run Current
    (start oneAgent) w ∧ Intact "agent" installedAgent.config w ∧
    (w.store.config "agent").any (fun config =>
      (parseAgentConfig config).managedPolicies.length = 2) = true := by
  obtain ⟨w, reached, ended⟩ := System.Run.exists_of_execute isCurrent_sound
    (show (((administration compareLetters "agent").execute isCurrent (start oneAgent)
      addedInTurn).any fun w => w.threads.all (·.body.outcome = .returned) &&
        (w.store.config "agent").any fun config =>
          (parseAgentConfig config).managedPolicies.length = 2) = true by decide +kernel)
  obtain ⟨returned, stored⟩ := (Bool.and_eq_true _ _).mp ended
  refine ⟨w, reached, intact_of_current rfl installedAgent_written reached fun t inside => ?_, stored⟩
  exact of_decide_eq_true (List.all_eq_true.mp returned t inside)

/-- Two policies are added, by calls that have both read the config before one writes it. -/
def addedAtOnce : List (Act Choice PolicyTask) :=
  [.env (.upsert (denyWrites "a")), .env (.upsert (denyWrites "b"))] ++
  List.replicate 3 (.run 0 {}) ++ List.replicate 3 (.run 1 {}) ++ [.run 0 {}, .run 1 {}]

/-- The call that writes last has not seen the other policy, which is lost. -/
def losesFirst (w : PolicyState) : Bool :=
  w.threads.all (·.body.outcome = .returned) &&
  w.acknowledged 0 = [upsertedPolicy (denyWrites "a") "a"] &&
  w.acknowledged 1 = [upsertedPolicy (denyWrites "b") "b"] &&
  (w.trace.map fun e => (e.actor, Commits e)).take 2 = [(1, true), (0, true)] &&
  (w.store.config "agent").any fun config =>
    (parseAgentConfig config).managedPolicies = [upsertedPolicy (denyWrites "b") "b"]

theorem addedAtOnce_not_intact : ∃ w, (administration compareLetters "agent").Run
    (fun _ _ => True) (start oneAgent) w ∧ (∀ t ∈ w.threads, t.body.outcome = .returned) ∧
    ¬ Intact "agent" installedAgent.config w := by
  obtain ⟨w, reached, loses⟩ := System.Run.exists_of_execute (fun _ _ _ => trivial)
    (show (((administration compareLetters "agent").execute (fun _ _ => true) (start oneAgent)
      addedAtOnce).any losesFirst) = true by decide +kernel)
  simp only [losesFirst, Bool.and_eq_true, decide_eq_true_eq, List.all_eq_true] at loses
  obtain ⟨⟨⟨⟨returned, first⟩, second⟩, order⟩, stored⟩ := loses
  refine ⟨w, reached, returned, fun intact => ?_⟩
  rcases trace : w.trace with _ | ⟨last, _ | ⟨earlier, older⟩⟩
  · rw [trace] at order
    cases order
  · rw [trace] at order
    cases congrArg List.length order
  rw [trace] at order
  simp only [List.map_cons, List.take_succ_cons, List.take_zero, List.cons.injEq, Prod.mk.injEq,
    and_true] at order
  obtain ⟨⟨lastActor, _⟩, actor, commits⟩ := order
  have stores : Stores w.store "agent" (upsertedPolicy (denyWrites "a") "a") := by
    have split : w.trace = [last] ++ earlier :: older := trace
    refine intact.latest split commits (by rw [actor, first]; exact List.mem_singleton_self _) ?_
    intro later between _ other mine
    rw [List.mem_singleton.mp between, lastActor, second] at mine
    rw [List.mem_singleton.mp mine]
    decide
  obtain ⟨config, there, only⟩ := (Option.any_eq_true _ _).mp stored
  have kept := stores.isOnly there
  rw [of_decide_eq_true only] at kept
  exact absurd kept.1 (by decide)

end Policies
