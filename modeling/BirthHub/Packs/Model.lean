import BirthHub.Packs.Encryption
import BirthHub.Workflow.Lifecycle

/-!
# Packs of agents

`installPackAtomic` writes the row of an installed agent and an entry of the audit log, both in
one transaction, and `uninstallPackAtomic` deletes the rows of a pack unless a step of an active
workflow names one of them. The store is that of the workflows with the agents, the audit log and
the catalog; a transaction is one operation.
-/

namespace Packs

open Data Effect Workflow Workflow.Lifecycle Workflow.Scheduling

inductive AgentStatus
  | ACTIVE
  | PAUSED
deriving DecidableEq

structure AgentRow where
  id : String
  tenantId : String
  organizationId : String
  name : String
  status : AgentStatus
  config : Json

structure AuditLog where
  tenantId : String
  actorId : String
  action : String
  entityType : String
  entityId : String
  diff : Json

inductive AgentKind
  | agent
  | catalog
deriving DecidableEq

/-- The agent of a manifest of the catalog. -/
structure CatalogAgent where
  id : String
  name : String
  version : String
  kind : AgentKind := .agent

def isInstallableManifest (manifest : CatalogAgent) : Bool := manifest.kind ≠ .catalog

/-- The write of `installPackAtomic` on the agents. -/
inductive AgentWrite
  | update (id : String) (config : Json) (status : AgentStatus)
  | create (tenantId organizationId name : String) (config : Json) (status : AgentStatus)

inductive PackOp
  | workflow (o : ScheduleOp)
  | getCatalog
  | findOrganization (tenantId : String)
  | countAgents (tenantId : String)
  | findAgents (tenantId : String)
  | getAgentLimit (tenantId : String)
  /-- `randomBytes` in hexadecimal, for the string at each path. -/
  | randomIvs
  /-- `new Date().toISOString()`. -/
  | isoDate
  /-- The transaction of `installPackAtomic`, which answers with the id of the agent. -/
  | install (write : AgentWrite) (log : AuditLog)
  /-- The steps of type `AGENT_EXECUTE` of workflows that are published or drafts, each with the
  name of its workflow. -/
  | findDependentSteps (tenantId : String)
  /-- The transaction of `uninstallPackAtomic`. -/
  | uninstall (ids : List String) (log : AuditLog)

def PackOp.Result : PackOp → Type
  | .workflow o => o.Result
  | .getCatalog => List CatalogAgent
  | .findOrganization _ => Option String
  | .countAgents _ => Nat
  | .findAgents _ => List AgentRow
  | .getAgentLimit _ => Number
  | .randomIvs => List String → String
  | .isoDate => String
  | .install .. => String
  | .findDependentSteps _ => List (WorkflowStep × String)
  | .uninstall .. => Unit

abbrev PackIface : Iface where
  Op := PackOp
  Res := PackOp.Result
  Err := Thrown

def asPack : Embedding ScheduleIface PackIface where
  op := .workflow
  answer _ := id
  err := id

def await (o : PackOp) : Prog PackIface o.Result := Prog.perform (I := PackIface) o

/-! ## Installing -/

structure InstallPackInput where
  activateAgents : Bool := true
  agentId : Option String := none
  actorId : String
  connectors : Json := .object []
  packId : Option String := none
  tenantId : String

def requireActorId (actorId action : String) : Except Thrown String :=
  if trim actorId = "" then .error (error ("ACTOR_ID_REQUIRED:" ++ action)) else .ok (trim actorId)

def stringMember (key : String) (config : Json) : Option String :=
  match config.member key with
  | some (.string value) => some value
  | _ => none

def extractPackId (config : Json) : Option String := stringMember "packId" config

def extractSourceAgentId (config : Json) : Option String := stringMember "sourceAgentId" config

def resolveRequestedAgentId (input : InstallPackInput) : Except Thrown String :=
  let given (value : Option String) : Option String := (value.map trim).filter (· ≠ "")
  match given input.agentId <|> given input.packId with
  | some candidate => .ok candidate
  | none => .error (error "agentId or packId is required to install an official agent.")

/-- The properties that `{ ...value }` copies. -/
def spread : Json → List (String × Json)
  | .object members => members
  | .array items => indexed 0 items
  | _ => []

def statusMember (activateAgents : Bool) : Json :=
  .string (if activateAgents then "active" else "installed")

def agentStatus (activateAgents : Bool) : AgentStatus := if activateAgents then .ACTIVE else .PAUSED

/-- The config of an agent that is installed again. -/
def updatedConfig (cipher : Cipher) (ivs : List String → String) (input : InstallPackInput)
    (manifest : CatalogAgent) (requestedAgentId : String) (currentConfig : Json) : Json :=
  toPrismaJsonValue (Json.fromEntries (spread currentConfig ++ [
    ("connectors", encryptConnectorsMap cipher ivs input.connectors),
    ("latestAvailableVersion", .string manifest.version),
    ("packId", .string requestedAgentId),
    ("sourceAgentId", .string manifest.id),
    ("status", statusMember input.activateAgents)]))

def createdConfig (cipher : Cipher) (ivs : List String → String) (input : InstallPackInput)
    (manifest : CatalogAgent) (requestedAgentId installedAt : String) : Json :=
  toPrismaJsonValue (.object [
    ("connectors", encryptConnectorsMap cipher ivs input.connectors),
    ("installedAt", .string installedAt),
    ("installedVersion", .string manifest.version),
    ("latestAvailableVersion", .string manifest.version),
    ("packId", .string requestedAgentId),
    ("sourceAgentId", .string manifest.id),
    ("status", statusMember input.activateAgents)])

def installDiff (input : InstallPackInput) (requestedAgentId : String) (alreadyInstalled : Bool) :
    Json :=
  toPrismaJsonValue (.object [
    ("activateAgents", .bool input.activateAgents),
    ("agentId", .string requestedAgentId),
    ("alreadyInstalled", .bool alreadyInstalled),
    ("connectors", input.connectors),
    ("packId", .string requestedAgentId)])

def installLog (input : InstallPackInput) (actorId requestedAgentId : String)
    (alreadyInstalled : Bool) : AuditLog where
  tenantId := input.tenantId
  actorId
  action := "PACK_INSTALL"
  entityType := "agent_pack"
  entityId := requestedAgentId
  diff := installDiff input requestedAgentId alreadyInstalled

structure InstallResult where
  agentId : String
  alreadyInstalled : Bool
  installedAgentId : String

def limitExceeded (current : Nat) (limit : Number) : Thrown :=
  error s!"agents limit exceeded ({current}/{limit.toString})."

/-- The transaction. -/
def writePack (cipher : Cipher) (input : InstallPackInput) (actorId organizationId : String)
    (manifest : CatalogAgent) (requestedAgentId : String) :
    Option AgentRow → Prog PackIface InstallResult
  | some existing => do
      let ivs : List String → String ← await .randomIvs
      let installedAgentId : String ← await (.install
        (.update existing.id
          (updatedConfig cipher ivs input manifest requestedAgentId existing.config)
          (agentStatus input.activateAgents))
        (installLog input actorId requestedAgentId true))
      return ⟨requestedAgentId, true, installedAgentId⟩
  | none => do
      let ivs : List String → String ← await .randomIvs
      let installedAt : String ← await .isoDate
      let installedAgentId : String ← await (.install
        (.create input.tenantId organizationId manifest.name
          (createdConfig cipher ivs input manifest requestedAgentId installedAt)
          (agentStatus input.activateAgents))
        (installLog input actorId requestedAgentId false))
      return ⟨requestedAgentId, false, installedAgentId⟩

def installPackAtomic (cipher : Cipher) (input : InstallPackInput) :
    Prog PackIface InstallResult := do
  let actorId ← Prog.ofExcept (requireActorId input.actorId "install-pack")
  let catalog : List CatalogAgent ← await .getCatalog
  let requestedAgentId ← Prog.ofExcept (resolveRequestedAgentId input)
  match catalog.find? fun entry => entry.id = requestedAgentId ∧ isInstallableManifest entry with
  | none => .throw (error s!"Installable agent '{requestedAgentId}' was not found in catalog.")
  | some manifest =>
      let organization : Option String ← await (.findOrganization input.tenantId)
      match organization with
      | none => .throw (error s!"Tenant {input.tenantId} does not exist.")
      | some organizationId =>
          let currentAgentCount : Nat ← await (.countAgents input.tenantId)
          let tenantAgents : List AgentRow ← await (.findAgents input.tenantId)
          let existing := tenantAgents.find? (extractSourceAgentId ·.config = some requestedAgentId)
          let agentLimit : Number ← await (.getAgentLimit input.tenantId)
          let wanted := currentAgentCount + if existing.isSome then 0 else 1
          if agentLimit.value.any fun limit => decide (limit < (wanted : ℚ)) then
            .throw (limitExceeded currentAgentCount agentLimit)
          else writePack cipher input actorId organizationId manifest requestedAgentId existing

/-! ## Uninstalling -/

structure UninstallInput where
  actorId : String
  packId : String
  tenantId : String
deriving DecidableEq

/-- The agent that the config of a step names: `config?.agentId`, if it is given. -/
def namedAgent (config : Json) : Option String := (stringMember "agentId" config).filter (· ≠ "")

def packInUse (workflowNames : List String) : Thrown :=
  error ("Cannot uninstall pack because it is being used by active workflows: " ++
    ", ".intercalate workflowNames.eraseDups ++
    ". Please remove the agents from these workflows or archive them first.")

def uninstallLog (input : UninstallInput) (actorId : String) (deletedAgents : Nat) : AuditLog where
  tenantId := input.tenantId
  actorId
  action := "PACK_UNINSTALL"
  entityType := "agent_pack"
  entityId := input.packId
  diff := toPrismaJsonValue (.object [
    ("deletedAgents", Json.nat deletedAgents),
    ("packId", .string input.packId)])

/-- The agents of the pack, if no step of an active workflow names one of them. -/
def checkPack (input : UninstallInput) (idsToDelete : List String) : Prog PackIface Unit :=
  if idsToDelete = [] then .pure ()
  else do
    let dependentSteps : List (WorkflowStep × String) ← await (.findDependentSteps input.tenantId)
    let dependencies := dependentSteps.filter fun (step, _) =>
      (namedAgent step.config).any (· ∈ idsToDelete)
    if dependencies = [] then .pure () else .throw (packInUse (dependencies.map (·.2)))

/-- `uninstallPackAtomic`, with the ids of the deleted agents. -/
def uninstallPackAtomic (input : UninstallInput) : Prog PackIface (List String) := do
  let actorId ← Prog.ofExcept (requireActorId input.actorId "uninstall-pack")
  let agents : List AgentRow ← await (.findAgents input.tenantId)
  let idsToDelete := (agents.filter (extractPackId ·.config = some input.packId)).map (·.id)
  checkPack input idsToDelete
  let _ : Unit ← await (.uninstall idsToDelete (uninstallLog input actorId idsToDelete.length))
  return idsToDelete

/-! ## The store -/

structure PackStore where
  lifecycle : LifecycleStore
  agents : List AgentRow
  auditLogs : List AuditLog
  catalog : List CatalogAgent
  workflowName : String → String

/-- What the outside decides about one operation. -/
structure PackChoice extends LifecycleChoice where
  ivs : List String → String := fun _ => ""
  isoDate : String := ""

/-- `P2002`: the tenant has an agent with the name. -/
def agentNameTaken : Thrown where
  message := some "Unique constraint failed on the fields: (`tenantId`,`name`)"
  code := some "P2002"

def agentNotFound : Thrown where
  message := some "No record was found for an update."
  code := some "P2025"

namespace PackStore

variable (store : PackStore)

def agentsOf (tenantId : String) : List AgentRow := store.agents.filter (·.tenantId = tenantId)

/-- The steps of type `AGENT_EXECUTE` of the active workflows of a tenant. -/
def dependentSteps (tenantId : String) : List (WorkflowStep × String) :=
  store.lifecycle.rows.flatMap fun row =>
    if row.status = .PUBLISHED ∨ row.status = .DRAFT then
      (row.definition.steps.filter fun step =>
        step.tenantId = tenantId ∧ step.type = .AGENT_EXECUTE).map
          fun step => (step, store.workflowName row.definition.id)
    else []

/-- The transaction of `installPackAtomic`. -/
def install (newId : String) (log : AuditLog) :
    AgentWrite → Option (Except Thrown String × PackStore)
  | .update id config status =>
      if store.agents.any (·.id = id) then
        some (.ok id, { store with
          agents := store.agents.map fun row => if row.id = id then { row with config, status } else row
          auditLogs := store.auditLogs ++ [log] })
      else some (.error agentNotFound, store)
  | .create tenantId organizationId name config status =>
      if store.agents.any (·.id = newId) then none
      else if store.agents.any fun row => row.tenantId = tenantId ∧ row.name = name then
        some (.error agentNameTaken, store)
      else some (.ok newId, { store with
        agents := store.agents ++ [{ id := newId, tenantId, organizationId, name, status, config }]
        auditLogs := store.auditLogs ++ [log] })

/-- The result of an operation that does not fail by `fault`. -/
def perform (choice : PackChoice) (store : PackStore) : (o : PackOp) →
    Option (PackIface.Answer o × PackStore)
  | .workflow o => (store.lifecycle.handle o choice.toLifecycleChoice).map fun (answer, lifecycle) =>
      (answer, { store with lifecycle })
  | .getCatalog => some (.ok store.catalog, store)
  | .findOrganization tenantId =>
      some (.ok ((store.lifecycle.launch.organizations.find? (·.tenantId = tenantId)).map (·.id)), store)
  | .countAgents tenantId => some (.ok (store.agentsOf tenantId).length, store)
  | .findAgents tenantId => some (.ok (store.agentsOf tenantId), store)
  | .getAgentLimit tenantId =>
      some (.ok (readNumericPlanLimit (store.lifecycle.planLimits tenantId) "agents" (.ofNat 5)), store)
  | .randomIvs => some (.ok choice.ivs, store)
  | .isoDate => some (.ok choice.isoDate, store)
  | .install write log => store.install choice.newId log write
  | .findDependentSteps tenantId => some (.ok (store.dependentSteps tenantId), store)
  | .uninstall ids log => some (.ok (), { store with
      agents := store.agents.filter fun row => row.id ∉ ids
      auditLogs := store.auditLogs ++ [log] })

def handle (o : PackOp) (choice : PackChoice) (store : PackStore) :
    Option (PackIface.Answer o × PackStore) :=
  match o, choice.fault with
  | .workflow o, _ => store.perform choice (.workflow o)
  | _, some e => some (.error e, store)
  | o, none => store.perform choice o

end PackStore

/-! ## The calls -/

inductive PackTask
  | workflow (task : LifecycleTask)
  | install (input : InstallPackInput)
  | uninstall (input : UninstallInput)

inductive PackResponse
  | workflow (row : Option WorkflowRow)
  | installed (result : InstallResult)
  | uninstalled (ids : List String)

def packProgram (cipher : Cipher) : PackTask → Prog PackIface PackResponse
  | .workflow task => ((lifecycleProgram task).embed asPack).bind fun row => .pure (.workflow row)
  | .install input => (installPackAtomic cipher input).bind fun result => .pure (.installed result)
  | .uninstall input => (uninstallPackAtomic input).bind fun ids => .pure (.uninstalled ids)

/-- The services: calls arrive at any time, and each awaits its operations. -/
def packs (cipher : Cipher) : System PackIface PackTask PackStore PackResponse where
  Choice := PackChoice
  handle := PackStore.handle
  program := packProgram cipher
  Env := PackTask
  env task store _ := some { store, spawn := [task] }

/-! ## What an operation does to the agents -/

section

variable {store store' : PackStore} {o : PackOp} {choice : PackChoice}
  {answer : PackIface.Answer o}

/-- The agents after a write of `installPackAtomic`. -/
def AgentWrite.Leads (newId : String) (before after : List AgentRow) : AgentWrite → Prop
  | .update id config status => after = before.map fun row =>
      if row.id = id then { row with config, status } else row
  | .create tenantId organizationId name config status => (∀ row ∈ before, row.id ≠ newId) ∧
      after = before ++ [{ id := newId, tenantId, organizationId, name, status, config }]

theorem PackStore.install_cases {newId : String} {log : AuditLog} {write : AgentWrite}
    {answer : Except Thrown String} (answered : store.install newId log write = some (answer, store')) :
    (∃ e, answer = .error e ∧ store' = store) ∨
    ∃ id agents, answer = .ok id ∧ write.Leads newId store.agents agents ∧
      store' = { store with agents, auditLogs := store.auditLogs ++ [log] } := by
  cases write with
  | update id config status =>
      simp only [install] at answered
      split at answered <;> cases answered
      · exact .inr ⟨_, _, rfl, rfl, rfl⟩
      · exact .inl ⟨_, rfl, rfl⟩
  | create tenantId organizationId name config status =>
      simp only [install] at answered
      split at answered
      · cases answered
      · rename_i unused
        split at answered <;> cases answered
        · exact .inl ⟨_, rfl, rfl⟩
        · refine .inr ⟨_, _, rfl, ⟨fun row there same => unused ?_, rfl⟩, rfl⟩
          exact List.any_eq_true.mpr ⟨row, there, decide_eq_true same⟩

theorem PackStore.handle_ok {r : o.Result} (answered : store.handle o choice = some (.ok r, store')) :
    store.perform choice o = some (.ok r, store') := by
  unfold handle at answered
  cases fault : choice.fault with
  | none =>
      rw [fault] at answered
      cases o <;> exact answered
  | some e =>
      rw [fault] at answered
      cases o <;> first
        | exact answered
        | cases answered

theorem PackStore.handle_install_ok {write : AgentWrite} {log : AuditLog} {id : String}
    (answered : store.handle (.install write log) choice = some (.ok id, store')) :
    ∃ agents, write.Leads choice.newId store.agents agents ∧
      store' = { store with agents, auditLogs := store.auditLogs ++ [log] } := by
  have performed : store.install choice.newId log write = some (.ok id, store') :=
    handle_ok answered
  rcases install_cases performed with ⟨e, failed, _⟩ | ⟨_, agents, _, leads, same⟩
  · cases failed
  · exact ⟨agents, leads, same⟩

theorem PackStore.handle_cases (answered : store.handle o choice = some (answer, store')) :
    store' = store ∨
    (∃ o' answer', o = .workflow o' ∧
      store.lifecycle.handle o' choice.toLifecycleChoice = some (answer', store'.lifecycle) ∧
      store' = { store with lifecycle := store'.lifecycle }) ∨
    (∃ write log agents, o = .install write log ∧ write.Leads choice.newId store.agents agents ∧
      store' = { store with agents, auditLogs := store.auditLogs ++ [log] }) ∨
    ∃ ids log, o = .uninstall ids log ∧ store' = { store with
      agents := store.agents.filter fun row => row.id ∉ ids
      auditLogs := store.auditLogs ++ [log] } := by
  have performed : store' = store ∨ store.perform choice o = some (answer, store') := by
    unfold handle at answered
    cases fault : choice.fault with
    | none =>
        rw [fault] at answered
        cases o <;> exact .inr answered
    | some e =>
        rw [fault] at answered
        cases o with
        | workflow o => exact .inr answered
        | _ => exact .inl (Prod.mk.inj (Option.some.inj answered)).2.symm
  rcases performed with rfl | performed
  · exact .inl rfl
  cases o with
  | workflow o =>
      obtain ⟨⟨answer', lifecycle⟩, answered', same⟩ := Option.map_eq_some_iff.mp performed
      obtain ⟨_, rfl⟩ := Prod.mk.inj same
      exact .inr (.inl ⟨o, answer', rfl, answered', rfl⟩)
  | install write log =>
      rcases PackStore.install_cases performed with ⟨e, _, same⟩ | ⟨id, agents, _, leads, same⟩
      · exact .inl same
      · exact .inr (.inr (.inl ⟨write, log, agents, rfl, leads, same⟩))
  | uninstall ids log =>
      exact .inr (.inr (.inr ⟨ids, log, rfl, (Prod.mk.inj (Option.some.inj performed)).2.symm⟩))
  | _ => exact .inl (Prod.mk.inj (Option.some.inj performed)).2.symm

end

end Packs
