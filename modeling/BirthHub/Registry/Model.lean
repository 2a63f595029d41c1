import BirthHub.Data.Encoding
import BirthHub.Data.Json
import BirthHub.Effect.Serial

/-!
# The agent registry

The registry creates, publishes, deprecates and rolls back the versions of agents, and lists
the agents of a tenant. It awaits the operations of a store, of which there are two: maps in
memory (`MemoryStore`), and tables behind a database client (`PrismaStore`). The calls are
programs over these operations, so that one text of the registry runs on both.

Versions are compared by a library for semantic versions, which is a parameter.
-/

namespace Registry

open Data Effect

/-! ## Records -/

inductive AgentVersionStatus
  | DEPRECATED
  | DRAFT
  | PUBLISHED
deriving DecidableEq, Repr

structure AgentRecord where
  id : String
  tenantId : String
  name : String
  tags : List String
  createdAt : Int
  updatedAt : Int
deriving DecidableEq

structure AgentVersionRecord where
  id : String
  agentId : String
  version : String
  status : AgentVersionStatus
  manifest : Json
  manifestDigest : String
  changelog : Option String
  createdAt : Int
  publishedAt : Option Int

/-- Code that the registry calls and this development does not model: `semver`, and functions
of the runtime on strings. -/
structure Libraries where
  /-- Whether `semver.valid` takes the text for a version. -/
  valid : String → Bool
  /-- `semver.compare`. -/
  compare : String → String → Ordering
  /-- `semver.diff`. -/
  diff : String → String → Option String
  sha256 : String → String
  localeCompare : String → String → Int
  toLowerCase : String → String
  /-- `Buffer.from(text, "base64url").toString("utf8")`. -/
  decodeBase64url : String → String

/-- `semver.gt`. -/
def Libraries.gt (lib : Libraries) (left right : String) : Bool := lib.compare left right = .gt

/-- `semver.rcompare`. -/
def Libraries.rcompare (lib : Libraries) (left right : String) : Ordering := lib.compare right left

/-! ## Operations of a store -/

structure AgentInput where
  id : String
  name : String
  tags : List String
  tenantId : String

structure VersionInput where
  agentId : String
  manifest : Json
  manifestDigest : String
  version : String
  changelog : Option String

/-- The patches of a version that the registry makes. -/
structure VersionPatch where
  publishedAt : Option Int := none
  status : AgentVersionStatus

structure AuditEvent where
  action : String
  actorId : Option String := none
  details : Json
  tenantId : String

inductive RegistryOp
  /-- `Date.now()` and `new Date()`. -/
  | now
  | ensureAgent (input : AgentInput)
  | createVersion (input : VersionInput)
  | listVersions (agentId : String)
  | updateVersion (agentId version : String) (patch : VersionPatch)
  | listAgentsByTenant (tenantId : String)
  /-- `auditTrail?.record`. -/
  | record (event : AuditEvent)

def RegistryOp.Result : RegistryOp → Type
  | .now => Int
  | .ensureAgent _ => AgentRecord
  | .createVersion _ => AgentVersionRecord
  | .listVersions _ => List AgentVersionRecord
  | .updateVersion .. => AgentVersionRecord
  | .listAgentsByTenant _ => List AgentRecord
  | .record _ => Unit

/-- An error is known by its message. -/
abbrev RegistryIface : Iface where
  Op := RegistryOp
  Res := RegistryOp.Result
  Err := String

def await (o : RegistryOp) : Prog RegistryIface o.Result := Prog.perform (I := RegistryIface) o

/-! ## The calls -/

section Calls

variable (lib : Libraries)

mutual

def stableJson : Json → Json
  | .array items => .array (stableItems items)
  | .object members => Json.fromEntries ((stableMembers members).insertionSort
      fun left right => lib.localeCompare left.1 right.1 ≤ 0)
  | value => value

def stableItems : List Json → List Json
  | [] => []
  | item :: items => stableJson item :: stableItems items

def stableMembers : List (String × Json) → List (String × Json)
  | [] => []
  | (key, nested) :: members => (key, stableJson nested) :: stableMembers members

end

def hashManifest (manifest : Json) : String := lib.sha256 (stableJson lib manifest).stringify

structure CreateAgentVersionInput where
  agentId : String
  tenantId : String
  name : String
  tags : List String := []
  version : String
  manifest : Json
  changelog : Option String := none

def requireChronologicalConsistency (previousVersion : Option AgentVersionRecord) :
    Prog RegistryIface Unit :=
  match previousVersion with
  | none => pure ()
  | some previousVersion => do
      let now : Int ← await .now
      if previousVersion.createdAt > now then
        .throw "Latest version has inconsistent future timestamp."
      else pure ()

def requireNewerVersion (latest : Option AgentVersionRecord) (version : String) :
    Except String Unit :=
  match latest with
  | none => .ok ()
  | some latest =>
      if lib.gt version latest.version then .ok ()
      else .error s!"New version '{version}' must be greater than latest '{latest.version}'."

def requireChangelogIfNeeded (previousVersion : Option AgentVersionRecord) (nextVersion : String)
    (changelog : Option String) : Except String Unit :=
  match previousVersion with
  | none => .ok ()
  | some previousVersion =>
      match lib.diff previousVersion.version nextVersion with
      | none => .ok ()
      | some bumpType =>
          if (bumpType = "major" ∨ bumpType = "minor") ∧ (trim (changelog.getD "")).isEmpty then
            .error s!"Changelog is required for {bumpType} version bump."
          else .ok ()

/-- `createVersion` once the agent is there. -/
def createNextVersion (input : CreateAgentVersionInput) :
    Prog RegistryIface AgentVersionRecord := do
  let versions : List AgentVersionRecord ← await (.listVersions input.agentId)
  let latest := versions.head?
  requireChronologicalConsistency latest
  Prog.ofExcept (requireNewerVersion lib latest input.version)
  Prog.ofExcept (requireChangelogIfNeeded lib latest input.version input.changelog)
  let created : AgentVersionRecord ← await (.createVersion {
    agentId := input.agentId
    manifest := input.manifest
    manifestDigest := hashManifest lib input.manifest
    version := input.version
    changelog := input.changelog.filter (· ≠ "") })
  await (.record {
    action := "AGENT_VERSION_CREATED"
    details := .object [("agentId", .string input.agentId),
      ("manifestDigest", .string created.manifestDigest), ("version", .string input.version)]
    tenantId := input.tenantId })
  pure created

def createVersion (input : CreateAgentVersionInput) : Prog RegistryIface AgentVersionRecord :=
  if !lib.valid input.version then .throw s!"Invalid semver '{input.version}'."
  else do
    let _ ← await (.ensureAgent {
      id := input.agentId
      name := input.name
      tags := input.tags
      tenantId := input.tenantId })
    createNextVersion lib input

/-- Deprecates the version, if there is one. -/
def deprecateCurrent (agentId : String) :
    Option AgentVersionRecord → Prog RegistryIface Unit
  | none => pure ()
  | some current => do
      let _ ← await (.updateVersion agentId current.version { status := .DEPRECATED })
      pure ()

/-- The version is published now. -/
def publishNow (agentId version : String) : Prog RegistryIface AgentVersionRecord := do
  let now : Int ← await .now
  await (.updateVersion agentId version { publishedAt := some now, status := .PUBLISHED })

def publishVersion (agentId version tenantId : String) :
    Prog RegistryIface AgentVersionRecord := do
  let versions : List AgentVersionRecord ← await (.listVersions agentId)
  match versions.find? (·.version = version) with
  | none => .throw s!"Cannot publish missing version '{version}'."
  | some _ => do
      deprecateCurrent agentId
        (versions.find? fun item => item.status = .PUBLISHED ∧ item.version ≠ version)
      let updated ← publishNow agentId version
      await (.record {
        action := "AGENT_VERSION_PUBLISHED"
        details := .object [("agentId", .string agentId), ("version", .string version)]
        tenantId })
      pure updated

def deprecateVersion (agentId version tenantId : String) :
    Prog RegistryIface AgentVersionRecord := do
  let updated : AgentVersionRecord ←
    await (.updateVersion agentId version { status := .DEPRECATED })
  await (.record {
    action := "AGENT_VERSION_DEPRECATED"
    details := .object [("agentId", .string agentId), ("version", .string version)]
    tenantId })
  pure updated

structure RollbackInput where
  agentId : String
  tenantId : String
  targetVersion : String
  actorId : Option String := none

def rollbackVersion (input : RollbackInput) : Prog RegistryIface AgentVersionRecord := do
  let versions : List AgentVersionRecord ← await (.listVersions input.agentId)
  let current := versions.find? (·.status = .PUBLISHED)
  match versions.find? (·.version = input.targetVersion) with
  | none => .throw s!"Target rollback version '{input.targetVersion}' was not found."
  | some target => do
      deprecateCurrent input.agentId (current.filter (·.version ≠ target.version))
      let reactivated ← publishNow input.agentId target.version
      await (.record {
        action := "AGENT_VERSION_ROLLBACK"
        actorId := input.actorId.filter (· ≠ "")
        details := .object ([("agentId", .string input.agentId)] ++
          (current.map fun current => ("fromVersion", Json.string current.version)).toList ++
          [("toVersion", .string input.targetVersion)])
        tenantId := input.tenantId })
      pure reactivated

/-! ### Listing -/

/-- `Number.parseInt(text, 10)`, when it is finite. -/
def parseInt (text : String) : Option Int :=
  let text := text.toList.dropWhile isWhitespace
  let (negative, text) := match text with
    | '-' :: rest => (true, rest)
    | '+' :: rest => (false, rest)
    | text => (false, text)
  let digits := text.takeWhile Char.isDigit
  let value : Nat := digits.foldl (fun n c => 10 * n + (c.toNat - 48)) 0
  if digits.isEmpty ∨ 2 ^ 1024 - 2 ^ 970 ≤ value then none
  else some (if negative then -(value : Int) else value)

def decodeCursor : Option String → Int
  | none => 0
  | some cursor => if cursor = "" then 0 else (parseInt (lib.decodeBase64url cursor)).getD 0

def encodeCursor (value : Int) : String := base64url (toString value)

structure ListAgentIndexInput where
  tenantId : String
  cursor : Option String := none
  limit : Option Int := none
  status : Option AgentVersionStatus := none
  version : Option String := none
  tag : Option String := none
  search : Option String := none

structure AgentIndexItem where
  agent : AgentRecord
  latestVersion : Option AgentVersionRecord
  publishedVersion : Option AgentVersionRecord

structure CursorPage where
  items : List AgentIndexItem
  nextCursor : Option String

/-- An agent of the index, and whether it has a version that is asked for. -/
def indexAgent (input : ListAgentIndexInput) (agent : AgentRecord)
    (versions : List AgentVersionRecord) : AgentIndexItem × Bool :=
  let filteredByVersion : List AgentVersionRecord := match input.version.filter (· ≠ "") with
    | some version => versions.filter fun item => item.version = version
    | none => versions
  let filteredByStatus : List AgentVersionRecord := filteredByVersion.filter
    fun item => item.status = input.status.getD .PUBLISHED
  ({ agent
     latestVersion := versions.head?
     publishedVersion := versions.find? (·.status = .PUBLISHED) }, !filteredByStatus.isEmpty)

def indexAgents (input : ListAgentIndexInput) :
    List AgentRecord → Prog RegistryIface (List (AgentIndexItem × Bool))
  | [] => pure []
  | agent :: agents => do
      let versions ← await (.listVersions agent.id)
      let rest ← indexAgents input agents
      pure (indexAgent input agent versions :: rest)

/-- Where a bound of `slice` falls in a list of this length. -/
def sliceBound (length : Nat) (bound : Int) : Nat :=
  if bound < 0 then (length + bound).toNat else bound.toNat

/-- `items.slice(start, end)`. -/
def slice {α : Type} (items : List α) (start stop : Int) : List α :=
  (items.take (sliceBound items.length stop)).drop (sliceBound items.length start)

def AgentIndexItem.isFound (input : ListAgentIndexInput) (item : AgentIndexItem) : Bool :=
  ((input.tag.filter (· ≠ "")).all (· ∈ item.agent.tags)) &&
  ((input.search.filter (· ≠ "")).all fun search =>
    decide ((lib.toLowerCase search).toList <:+:
      (lib.toLowerCase (item.agent.name ++ " " ++ " ".intercalate item.agent.tags)).toList))

/-- The page of the index that is asked for. -/
def pageOf (input : ListAgentIndexInput) (indexed : List (AgentIndexItem × Bool)) : CursorPage :=
  let limit := max 1 (min 100 (input.limit.getD 20))
  let offset := decodeCursor lib input.cursor
  let filtered := ((indexed.filter (·.2)).map (·.1)).filter (·.isFound lib input)
  { items := slice filtered offset (offset + limit)
    nextCursor :=
      if offset + limit < filtered.length then some (encodeCursor (offset + limit)) else none }

def listByTenant (input : ListAgentIndexInput) : Prog RegistryIface CursorPage := do
  let agents ← await (.listAgentsByTenant input.tenantId)
  let indexed ← indexAgents input agents
  pure (pageOf lib input indexed)

inductive Call
  | createVersion (input : CreateAgentVersionInput)
  | publishVersion (agentId version tenantId : String)
  | deprecateVersion (agentId version tenantId : String)
  | rollbackVersion (input : RollbackInput)
  | listByTenant (input : ListAgentIndexInput)

inductive Response
  | version (record : AgentVersionRecord)
  | page (page : CursorPage)

def serve : Call → Prog RegistryIface Response
  | .createVersion input => do
      let created ← createVersion lib input
      pure (.version created)
  | .publishVersion agentId version tenantId => do
      let updated ← publishVersion agentId version tenantId
      pure (.version updated)
  | .deprecateVersion agentId version tenantId => do
      let updated ← deprecateVersion agentId version tenantId
      pure (.version updated)
  | .rollbackVersion input => do
      let reactivated ← rollbackVersion input
      pure (.version reactivated)
  | .listByTenant input => do
      let page ← listByTenant lib input
      pure (.page page)

end Calls

/-! ## The stores -/

/-- What the outside decides about one operation: the time, the error of the audit trail, and
the id of a new row of a table. -/
structure Choice where
  now : Int := 0
  auditError : Option String := none
  newId : String := ""

def VersionPatch.apply (patch : VersionPatch) (record : AgentVersionRecord) : AgentVersionRecord :=
  { record with
    publishedAt := patch.publishedAt <|> record.publishedAt
    status := patch.status }

def VersionInput.record (input : VersionInput) (id : String) (createdAt : Int) :
    AgentVersionRecord where
  id
  agentId := input.agentId
  version := input.version
  status := .DRAFT
  manifest := input.manifest
  manifestDigest := input.manifestDigest
  changelog := input.changelog
  createdAt
  publishedAt := none

/-- The agents after `ensureAgent` at a time, with the agent. -/
def ensureAgent (agents : List AgentRecord) (input : AgentInput) (now : Int) :
    AgentRecord × List AgentRecord :=
  match agents.find? (·.id = input.id) with
  | some current =>
      let updated : AgentRecord :=
        { current with name := input.name, tags := input.tags, updatedAt := now }
      (updated, agents.map fun agent => if agent.id = input.id then updated else agent)
  | none =>
      let created : AgentRecord := {
        id := input.id
        tenantId := input.tenantId
        name := input.name
        tags := input.tags
        createdAt := now
        updatedAt := now }
      (created, agents ++ [created])

/-- What the operations outside the store answer. -/
def Choice.time (choice : Choice) : RegistryIface.Answer .now := .ok choice.now

def Choice.audit (choice : Choice) (event : AuditEvent) : RegistryIface.Answer (.record event) :=
  match choice.auditError with
  | none => .ok ()
  | some message => .error message

/-- The maps of `InMemoryAgentRegistryStore`. -/
structure MemoryStore where
  agents : List AgentRecord := []
  versions : String → List AgentVersionRecord := fun _ => []

namespace MemoryStore

/-- `this.versions.set(agentId, versions)`. -/
def setVersions (store : MemoryStore) (agentId : String) (versions : List AgentVersionRecord) :
    MemoryStore :=
  { store with versions := Function.update store.versions agentId versions }

@[simp] theorem setVersions_same (store : MemoryStore) (agentId : String)
    (versions : List AgentVersionRecord) :
    (store.setVersions agentId versions).versions agentId = versions :=
  Function.update_self ..

@[simp] theorem setVersions_other (store : MemoryStore) {agentId other : String}
    (versions : List AgentVersionRecord) (differs : other ≠ agentId) :
    (store.setVersions agentId versions).versions other = store.versions other :=
  Function.update_of_ne differs ..

@[simp] theorem setVersions_twice (store : MemoryStore) (agentId : String)
    (first second : List AgentVersionRecord) :
    (store.setVersions agentId first).setVersions agentId second =
      store.setVersions agentId second := by
  simp [setVersions]

/-- `versions[index] = updated` for the first version with this text, if there is one. -/
def replaceVersion (version : String) (patch : VersionPatch) :
    List AgentVersionRecord → List AgentVersionRecord
  | [] => []
  | item :: items =>
      if item.version = version then patch.apply item :: items
      else item :: replaceVersion version patch items

def listVersions (lib : Libraries) (store : MemoryStore) (agentId : String) :
    List AgentVersionRecord :=
  (store.versions agentId).insertionSort fun left right =>
    lib.rcompare left.version right.version ≠ .gt

def perform (lib : Libraries) (store : MemoryStore) (choice : Choice) :
    (o : RegistryOp) → RegistryIface.Answer o × MemoryStore
  | .now => (choice.time, store)
  | .ensureAgent input =>
      let (agent, agents) := ensureAgent store.agents input choice.now
      (.ok agent, { store with agents })
  | .createVersion input =>
      let created := input.record s!"agent_version_{input.agentId}_{input.version}" choice.now
      (.ok created, store.setVersions input.agentId (store.versions input.agentId ++ [created]))
  | .listVersions agentId => (.ok (store.listVersions lib agentId), store)
  | .updateVersion agentId version patch =>
      match (store.versions agentId).find? (·.version = version) with
      | none => (.error s!"Version '{version}' not found for agent '{agentId}'.", store)
      | some current => (.ok (patch.apply current),
          store.setVersions agentId (replaceVersion version patch (store.versions agentId)))
  | .listAgentsByTenant tenantId => (.ok (store.agents.filter (·.tenantId = tenantId)), store)
  | .record event => (choice.audit event, store)

end MemoryStore

/-- The tables behind the delegates of `createPrismaStore`, oldest row first. -/
structure PrismaStore where
  agents : List AgentRecord := []
  versions : List AgentVersionRecord := []

def AgentVersionRecord.isVersion (item : AgentVersionRecord) (agentId version : String) : Bool :=
  item.agentId = agentId ∧ item.version = version

namespace PrismaStore

/-- `findMany` with the latest row first. -/
def findVersions (store : PrismaStore) (where_ : AgentVersionRecord → Bool) :
    List AgentVersionRecord :=
  (store.versions.filter where_).insertionSort fun left right => right.createdAt ≤ left.createdAt

/-- `updateMany`. -/
def updateVersions (store : PrismaStore) (where_ : AgentVersionRecord → Bool)
    (patch : VersionPatch) : PrismaStore :=
  { store with
    versions := store.versions.map fun item => if where_ item then patch.apply item else item }

def perform (store : PrismaStore) (choice : Choice) :
    (o : RegistryOp) → RegistryIface.Answer o × PrismaStore
  | .now => (choice.time, store)
  | .ensureAgent input =>
      let (agent, agents) := ensureAgent store.agents input choice.now
      (.ok agent, { store with agents })
  | .createVersion input =>
      let created := input.record choice.newId choice.now
      (.ok created, { store with versions := store.versions ++ [created] })
  | .listVersions agentId => (.ok (store.findVersions (·.agentId = agentId)), store)
  | .updateVersion agentId version patch =>
      let store' := store.updateVersions (·.isVersion agentId version) patch
      match (store'.findVersions (·.isVersion agentId version)).head? with
      | some updated => (.ok updated, store')
      | none => (.error s!"Unable to update version '{version}' for agent '{agentId}'.", store')
  | .listAgentsByTenant tenantId => (.ok (store.agents.filter (·.tenantId = tenantId)), store)
  | .record event => (choice.audit event, store)

end PrismaStore

/-- The registry over the store in memory. -/
def registry (lib : Libraries) : System RegistryIface Call MemoryStore Response where
  Choice := Choice
  handle o choice store := some (store.perform lib choice o)
  program := serve lib
  Env := Empty
  env event _ _ := event.elim

/-- The registry over the database. -/
def prismaRegistry (lib : Libraries) : System RegistryIface Call PrismaStore Response where
  Choice := Choice
  handle o choice store := some (store.perform choice o)
  program := serve lib
  Env := Empty
  env event _ _ := event.elim

end Registry
