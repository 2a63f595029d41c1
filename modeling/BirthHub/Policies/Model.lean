import BirthHub.Agents.Runtime
import BirthHub.Auth.Model
import BirthHub.Packs.Model

/-!
# Administration of policies

The managed policies of an installed agent are part of its config. An administrator writes one
of them by `upsertInstalledAgentPolicy` or `patchInstalledAgentPolicy`, and those of a template
by `applyPolicyTemplate`. Each call reads the row of the agent, and writes the whole config back
by a later transaction. `administration` is the system of any number of calls on one agent.
-/

namespace Policies

open Agents (PolicyEffect PolicyRule CatalogManifest findManifestCatalogEntryByAgentId)
open Data Effect

/-! ## Policies -/

structure ManagedAgentPolicy where
  actions : List String
  effect : PolicyEffect
  enabled : Option Bool
  id : String
  name : String
  reason : Option String
deriving DecidableEq

def effectText : PolicyEffect → String
  | .allow => "allow"
  | .deny => "deny"

def enabledMember : Option Bool → List (String × Json)
  | none => []
  | some enabled => [("enabled", .bool enabled)]

def reasonMember : Option String → List (String × Json)
  | none => []
  | some reason => [("reason", .string reason)]

/-- A policy as it is stored. -/
def policyJson (policy : ManagedAgentPolicy) : Json :=
  .object ([
    ("actions", .array (policy.actions.map .string)),
    ("effect", .string (effectText policy.effect))] ++
    enabledMember policy.enabled ++ [
    ("id", .string policy.id),
    ("name", .string policy.name)] ++
    reasonMember policy.reason)

def parseManagedPolicy (value : Json) : Option ManagedAgentPolicy :=
  match value.member "id", value.member "name", value.member "effect", value.member "actions" with
  | some (.string id), some (.string name), some (.string effect), some (.array actions) => some {
      actions := Agents.stringsOf actions
      effect := if effect = "deny" then .deny else .allow
      enabled := match value.member "enabled" with
        | some (.bool enabled) => some enabled
        | _ => none
      id
      name
      reason := match value.member "reason" with
        | some (.string reason) => some reason
        | _ => none }
  | _, _, _, _ => none

structure AgentConfigSnapshot where
  managedPolicies : List ManagedAgentPolicy
  sourceAgentId : Option String

def parseAgentConfig (config : Json) : AgentConfigSnapshot where
  managedPolicies := match config.member "managedPolicies" with
    | some (.array policies) => policies.filterMap parseManagedPolicy
    | _ => []
  sourceAgentId := match config.member "sourceAgentId" with
    | some (.string sourceAgentId) => some sourceAgentId
    | _ => none

def normalizeConfigObject : Json → List (String × Json)
  | .object members => members
  | _ => []

/-- `new Map(policies.map((policy) => [policy.id, policy])).values()`. -/
def lastById (policies : List ManagedAgentPolicy) : List ManagedAgentPolicy :=
  (OrderedMap.setAll ManagedAgentPolicy.id .empty policies).values

/-- The policies by id, in the order of their names under `localeCompare`. -/
def mergeManagedPolicies (localeCompare : String → String → Int)
    (currentPolicies : List ManagedAgentPolicy) (nextPolicy : ManagedAgentPolicy) :
    List ManagedAgentPolicy :=
  (lastById (currentPolicies ++ [nextPolicy])).insertionSort fun left right =>
    localeCompare left.name right.name ≤ 0

/-- A reason that is there and not empty. -/
def givenReason (reason : Option String) : Option String := reason.filter (· ≠ "")

/-! ## Templates -/

inductive PolicyTemplateName
  | admin
  | readonly
  | standard
deriving DecidableEq

def PolicyTemplateName.text : PolicyTemplateName → String
  | .admin => "admin"
  | .readonly => "readonly"
  | .standard => "standard"

/-- The action, the effect and the reason of each rule of a template. -/
def templateRules : PolicyTemplateName → List (String × PolicyEffect × String)
  | .readonly => [
      ("tool.http", .allow, "Read-only template allows HTTP reads."),
      ("tool.db-read", .allow, "Read-only template allows query-only access."),
      ("tool.db-write", .deny, "Read-only template blocks mutations."),
      ("tool.send-email", .deny, "Read-only template blocks external messages.")]
  | .standard => [
      ("tool.http", .allow, "Standard template allows HTTP tool."),
      ("tool.db-read", .allow, "Standard template allows read access."),
      ("tool.db-write", .allow, "Standard template allows controlled writes."),
      ("tool.send-email", .allow, "Standard template allows email notifications.")]
  | .admin => [("tool.*", .allow, "Admin template grants full tool access.")]

def createPolicyTemplate (template : PolicyTemplateName) (tenantId agentId : String) :
    List PolicyRule :=
  (templateRules template).zipIdx.map fun ((action, effect, reason), index) => {
    action
    effect
    reason := some reason
    agentId := some agentId
    id := template.text ++ "-" ++ toString (index + 1)
    tenantId := some tenantId }

/-- The managed policies of a template. -/
def templatedPolicies (template : PolicyTemplateName) (tenantId agentId : String) :
    List ManagedAgentPolicy :=
  (createPolicyTemplate template tenantId agentId).zipIdx.map fun (policy, index) => {
    actions := [policy.action]
    effect := policy.effect
    enabled := some true
    id := policy.id
    name := template.text ++ " template " ++ toString (index + 1)
    reason := givenReason policy.reason }

/-! ## Operations -/

inductive PolicyError
  /-- A `ProblemDetailsError`. -/
  | problem (detail : String) (status : Nat) (title : String)
  /-- An error of the database. -/
  | thrown (name message : String)
deriving DecidableEq, Inhabited

def PolicyError.message : PolicyError → String
  | .problem detail _ _ => detail
  | .thrown _ message => message

def canFallbackDatabase (error : PolicyError) : Bool :=
  (match error with
    | .problem .. => false
    | .thrown name _ =>
        name = "PrismaClientInitializationError" || name = "PrismaClientRustPanicError") ||
  includes error.message.toUpper "DATABASE_URL"

inductive PolicyOp
  | findOrganization (reference : String)
  | findAgent (id tenantId : String)
  | getCatalog
  | randomUUID
  /-- The transaction that updates the config of the agent and logs it. -/
  | writePolicies (agentId : String) (config : Json) (log : Packs.AuditLog)

def PolicyOp.Result : PolicyOp → Type
  | .findOrganization _ => Option Auth.Organization
  | .findAgent .. => Option Packs.AgentRow
  | .getCatalog => List CatalogManifest
  | .randomUUID => String
  | .writePolicies .. => Unit

abbrev PolicyIface : Iface where
  Op := PolicyOp
  Res := PolicyOp.Result
  Err := PolicyError

def await (o : PolicyOp) : Prog PolicyIface o.Result := Prog.perform (I := PolicyIface) o

/-! ## The agent -/

def unauthorized : PolicyError :=
  .problem "Authenticated tenant context is required for installed-agent operations." 401
    "Unauthorized"

def tenantNotFound (tenantId : String) : PolicyError :=
  .problem s!"Tenant {tenantId} was not found." 404 "Tenant Not Found"

def databaseUnavailable : PolicyError :=
  .problem "Database is unavailable for installed-agent operations." 503 "Service Unavailable"

def agentNotFound (installedAgentId tenantId : String) : PolicyError :=
  .problem s!"Installed agent {installedAgentId} was not found for tenant {tenantId}." 404
    "Installed Agent Not Found"

def agentMisconfigured (installedAgentId : String) : PolicyError :=
  .problem s!"Installed agent {installedAgentId} does not declare a sourceAgentId." 409
    "Installed Agent Misconfigured"

def catalogAgentNotFound (sourceAgentId installedAgentId : String) : PolicyError :=
  .problem
    s!"Catalog agent {sourceAgentId} was not found for installed agent {installedAgentId}." 404
    "Catalog Agent Not Found"

def policyNotFound (policyId agentId : String) : PolicyError :=
  .problem s!"Managed policy {policyId} was not found for installed agent {agentId}." 404
    "Policy Not Found"

def findTenant (tenantId : String) : Prog PolicyIface Auth.Organization := do
  let organization : Option Auth.Organization ← await (.findOrganization tenantId)
  match organization with
  | none => .throw (tenantNotFound tenantId)
  | some organization => return organization

def resolveOrganization (tenantReference : String) : Prog PolicyIface Auth.Organization :=
  let tenantId := trim tenantReference
  if tenantId = "" then .throw unauthorized
  else (findTenant tenantId).tryCatch fun error =>
    .throw (if canFallbackDatabase error then databaseUnavailable else error)

structure Resolved where
  agent : Packs.AgentRow
  config : AgentConfigSnapshot
  organization : Auth.Organization

@[irreducible] def resolveInstalledAgent (installedAgentId tenantReference : String) :
    Prog PolicyIface Resolved := do
  let organization ← resolveOrganization tenantReference
  let agent : Option Packs.AgentRow ← await (.findAgent installedAgentId organization.tenantId)
  match agent with
  | none => .throw (agentNotFound installedAgentId organization.tenantId)
  | some agent =>
      let config := parseAgentConfig agent.config
      match config.sourceAgentId.filter (· ≠ "") with
      | none => .throw (agentMisconfigured installedAgentId)
      | some sourceAgentId =>
          let catalog : List CatalogManifest ← await .getCatalog
          if (findManifestCatalogEntryByAgentId catalog sourceAgentId).isSome then
            return { agent, config, organization }
          else .throw (catalogAgentNotFound sourceAgentId installedAgentId)

/-! ## The calls -/

/-- `toPrismaJsonValue({ ...config, managedPolicies })`. -/
def updatedConfig (config : Json) (managedPolicies : List ManagedAgentPolicy) : Json :=
  Packs.toPrismaJsonValue (Json.fromEntries (normalizeConfigObject config ++
    [("managedPolicies", .array (managedPolicies.map policyJson))]))

structure UpsertInput where
  actions : List String
  effect : PolicyEffect
  enabled : Option Bool := none
  installedAgentId : String
  name : String
  policyId : Option String := none
  reason : Option String := none
  tenantReference : String
  userId : String

structure PatchInput where
  actions : Option (List String) := none
  effect : Option PolicyEffect := none
  enabled : Option Bool := none
  installedAgentId : String
  name : Option String := none
  policyId : String
  reason : Option String := none
  tenantReference : String
  userId : String

structure TemplateInput where
  installedAgentId : String
  replaceExisting : Option Bool := none
  template : PolicyTemplateName
  tenantReference : String
  userId : String

def policyLog (resolved : Resolved) (action userId : String) (policy : ManagedAgentPolicy) :
    Packs.AuditLog where
  action
  actorId := userId
  diff := Packs.toPrismaJsonValue (.object [
    ("installedAgentId", .string resolved.agent.id),
    ("policy", policyJson policy)])
  entityId := policy.id
  entityType := "agent_policy"
  tenantId := resolved.organization.tenantId

def templateLog (resolved : Resolved) (input : TemplateInput)
    (managedPolicies : List ManagedAgentPolicy) : Packs.AuditLog where
  action := "AGENT_POLICY_TEMPLATE_APPLIED"
  actorId := input.userId
  diff := Packs.toPrismaJsonValue (.object [
    ("installedAgentId", .string resolved.agent.id),
    ("managedPolicies", .array (managedPolicies.map policyJson)),
    ("replaceExisting", .bool (input.replaceExisting.getD false)),
    ("template", .string input.template.text)])
  entityId := resolved.agent.id
  entityType := "agent_policy_template"
  tenantId := resolved.organization.tenantId

/-- `input.policyId`, or an id that is drawn. -/
def choosePolicyId (agentId : String) : Option String → Prog PolicyIface String
  | some policyId => pure policyId
  | none => do
      let uuid : String ← await .randomUUID
      return agentId ++ ".policy." ++ uuid

def upsertedPolicy (input : UpsertInput) (id : String) : ManagedAgentPolicy where
  actions := input.actions
  effect := input.effect
  enabled := some (input.enabled.getD true)
  id
  name := input.name
  reason := givenReason input.reason

def upsertInstalledAgentPolicy (localeCompare : String → String → Int) (input : UpsertInput) :
    Prog PolicyIface ManagedAgentPolicy := do
  let resolved ← resolveInstalledAgent input.installedAgentId input.tenantReference
  let id ← choosePolicyId resolved.agent.id input.policyId
  let nextPolicy := upsertedPolicy input id
  let managedPolicies :=
    mergeManagedPolicies localeCompare resolved.config.managedPolicies nextPolicy
  await (.writePolicies resolved.agent.id (updatedConfig resolved.agent.config managedPolicies)
    (policyLog resolved "AGENT_POLICY_UPSERTED" input.userId nextPolicy))
  return nextPolicy

def patchedPolicy (input : PatchInput) (currentPolicy : ManagedAgentPolicy) :
    ManagedAgentPolicy where
  actions := input.actions.getD currentPolicy.actions
  effect := input.effect.getD currentPolicy.effect
  enabled := some ((input.enabled <|> currentPolicy.enabled).getD true)
  id := currentPolicy.id
  name := input.name.getD currentPolicy.name
  reason := givenReason (input.reason <|> currentPolicy.reason)

def patchInstalledAgentPolicy (input : PatchInput) : Prog PolicyIface ManagedAgentPolicy := do
  let resolved ← resolveInstalledAgent input.installedAgentId input.tenantReference
  match resolved.config.managedPolicies.find? (·.id = input.policyId) with
  | none => .throw (policyNotFound input.policyId resolved.agent.id)
  | some currentPolicy =>
      let nextPolicy := patchedPolicy input currentPolicy
      let managedPolicies := resolved.config.managedPolicies.map fun policy =>
        if policy.id = currentPolicy.id then nextPolicy else policy
      await (.writePolicies resolved.agent.id
        (updatedConfig resolved.agent.config managedPolicies)
        (policyLog resolved "AGENT_POLICY_UPDATED" input.userId nextPolicy))
      return nextPolicy

def applyPolicyTemplate (input : TemplateInput) : Prog PolicyIface (List ManagedAgentPolicy) := do
  let resolved ← resolveInstalledAgent input.installedAgentId input.tenantReference
  let templated :=
    templatedPolicies input.template resolved.organization.tenantId resolved.agent.id
  let managedPolicies :=
    if input.replaceExisting.getD false then templated
    else lastById (resolved.config.managedPolicies ++ templated)
  await (.writePolicies resolved.agent.id (updatedConfig resolved.agent.config managedPolicies)
    (templateLog resolved input managedPolicies))
  return managedPolicies

/-! ## The system -/

instance : Schema Packs.AgentRow where
  Key := String
  keys row := [row.id]

structure Store where
  organizations : List Auth.Organization
  agents : Table Packs.AgentRow
  catalog : List CatalogManifest
  auditLogs : List Packs.AuditLog := []

/-- An operation that fails; with `lost` it has its effect, and only the answer is lost. -/
structure Fault where
  error : PolicyError
  lost : Bool := false

structure Choice where
  fault : Option Fault := none
  uuid : String := ""

namespace Store

variable (store : Store)

def setConfig (agentId : String) (config : Json) (log : Packs.AuditLog) : Store :=
  { store with
    agents := store.agents.update (decide <| ·.id = agentId)
      (fun row => { row with config }) fun _ => rfl
    auditLogs := log :: store.auditLogs }

def notFound : PolicyError :=
  .thrown "PrismaClientKnownRequestError" "No record was found for an update."

/-- The answer to an operation that does not fail by a fault, and its effect. -/
def perform (choice : Choice) : (o : PolicyOp) → PolicyIface.Answer o × Store
  | .findOrganization reference =>
      (.ok (store.organizations.find? fun organization => organization.id = reference ∨
        organization.slug = reference ∨ organization.tenantId = reference), store)
  | .findAgent id tenantId => (.ok ((store.agents.get id).filter (·.tenantId = tenantId)), store)
  | .getCatalog => (.ok store.catalog, store)
  | .randomUUID => (.ok choice.uuid, store)
  | .writePolicies agentId config log =>
      match store.agents.get agentId with
      | some _ => (.ok (), store.setConfig agentId config log)
      | none => (.error notFound, store)

def handle (o : PolicyOp) (choice : Choice) : PolicyIface.Answer o × Store :=
  match choice.fault with
  | none => store.perform choice o
  | some fault =>
      (.error fault.error, if fault.lost then (store.perform choice o).2 else store)

end Store

inductive PolicyTask
  | upsert (input : UpsertInput)
  | patch (input : PatchInput)
  | template (input : TemplateInput)

inductive PolicyResponse
  | policy (policy : ManagedAgentPolicy)
  | managedPolicies (policies : List ManagedAgentPolicy)

def serve (localeCompare : String → String → Int) :
    PolicyTask → Prog PolicyIface PolicyResponse
  | .upsert input => do return .policy (← upsertInstalledAgentPolicy localeCompare input)
  | .patch input => do return .policy (← patchInstalledAgentPolicy input)
  | .template input => do return .managedPolicies (← applyPolicyTemplate input)

def PolicyTask.installedAgentId : PolicyTask → String
  | .upsert input => input.installedAgentId
  | .patch input => input.installedAgentId
  | .template input => input.installedAgentId

def PolicyTask.replacesExisting : PolicyTask → Bool
  | .template input => input.replaceExisting.getD false
  | _ => false

/-- Calls on one installed agent, none of which replaces what is there by a template. -/
def administration (localeCompare : String → String → Int) (agentId : String) :
    System PolicyIface PolicyTask Store PolicyResponse where
  Choice := Choice
  handle o choice store := some (store.handle o choice)
  program := serve localeCompare
  Env := PolicyTask
  env task store _ :=
    if task.installedAgentId = agentId ∧ task.replacesExisting = false then
      some { store, spawn := [task] }
    else none

end Policies
