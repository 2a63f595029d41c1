import BirthHub.Data.JsonParse
import BirthHub.Data.OrderedMap
import BirthHub.Data.Wildcard
import BirthHub.Effect.Total

/-!
# The memory of agents

`AgentMemoryService` keeps values of agents, and records that the agents of a tenant share, in a
backend of texts under keys. The calls are programs over the operations of a backend;
`InMemory` is the backend in memory, whose entries may expire.
-/

namespace Memory

open Data Effect

/-! ## Backends -/

inductive MemoryOp
  | set (key value : String) (ttlSeconds : Option ℚ)
  | get (key : String)
  | del (key : String)
  | keys (pattern : String)

abbrev MemoryOp.Result : MemoryOp → Type
  | .set .. => Unit
  | .get _ => Option String
  | .del _ => Nat
  | .keys _ => List String

abbrev MemoryIface : Iface where
  Op := MemoryOp
  Res := MemoryOp.Result
  Err := Thrown

def await (o : MemoryOp) : Prog MemoryIface o.Result := Prog.perform (I := MemoryIface) o

/-- In the pattern each `*` stands for any characters of a line. -/
def matchesPattern (candidate pattern : String) : Bool :=
  matchesWildcard pattern.toList candidate.toList

structure BackendRecord where
  value : String
  expiresAt : Option ℚ := none
deriving DecidableEq

def BackendRecord.isExpired (record : BackendRecord) (now : Int) : Bool :=
  record.expiresAt.any (· ≤ (now : ℚ))

/-- The time at which what is set at `now` expires. -/
def expiryOf (now : Int) (ttlSeconds : Option ℚ) : Option ℚ :=
  ttlSeconds.map fun seconds => now + seconds * 1000

/-- `InMemoryAgentMemoryBackend`, and the time. -/
structure InMemory where
  clock : Int := 0
  records : OrderedMap String BackendRecord := .empty

namespace InMemory

variable (backend : InMemory)

def sweepExpired : InMemory :=
  { backend with records := backend.records.filter fun (_, record) => !record.isExpired backend.clock }

def remove (key : String) : InMemory :=
  { backend with records := backend.records.filter fun (key', _) => key' ≠ key }

/-- An operation at the time of the clock. -/
def perform : (o : MemoryOp) → o.Result × InMemory
  | .set key value ttlSeconds => ((), { backend with
      records := backend.records.set key { value, expiresAt := expiryOf backend.clock ttlSeconds } })
  | .get key => ((backend.sweepExpired.records.get key).map (·.value), backend.sweepExpired)
  | .del key => (if (backend.records.get key).isSome then 1 else 0, backend.remove key)
  | .keys pattern => ((backend.sweepExpired.records.entries.map Prod.fst).filter
      (matchesPattern · pattern), backend.sweepExpired)

/-- The entry under a key, unless it has expired. -/
def entry (now : Int) (key : String) : Option BackendRecord :=
  (backend.records.get key).filter (!·.isExpired now)

end InMemory

/-! ## The service -/

@[irreducible] def buildNamespacedKey (tenantId agentId memoryKey : String) : Except Thrown String :=
  if trim tenantId = "" ∨ trim agentId = "" ∨ trim memoryKey = "" then
    .error (error "tenantId, agentId and memoryKey are mandatory")
  else .ok s!"{tenantId}:{agentId}:{memoryKey}"

@[irreducible] def buildSharedLearningKey (tenantId memoryKey : String) : Except Thrown String :=
  if trim tenantId = "" ∨ trim memoryKey = "" then
    .error (error "tenantId and memoryKey are mandatory")
  else .ok s!"{tenantId}:shared-learning:{memoryKey}"

structure AgentLearningRecord where
  id : String
  tenantId : String
  sourceAgentId : String
  lessonType : String
  summary : String
  evidence : List String
  confidence : Number
  keywords : List String
  appliesTo : List String
  approved : Bool
  createdAt : String

def AgentLearningRecord.toJson (record : AgentLearningRecord) : Json :=
  .object [("id", .string record.id), ("tenantId", .string record.tenantId),
    ("sourceAgentId", .string record.sourceAgentId), ("lessonType", .string record.lessonType),
    ("summary", .string record.summary), ("evidence", .array (record.evidence.map .string)),
    ("confidence", .number record.confidence), ("keywords", .array (record.keywords.map .string)),
    ("appliesTo", .array (record.appliesTo.map .string)), ("approved", .bool record.approved),
    ("createdAt", .string record.createdAt)]

/-- `JSON.parse`, or its error. -/
def parseValue (text : String) : Except Thrown Value :=
  match Json.parse text with
  | some value => .ok value
  | none => .error { message := none, code := some "SyntaxError" }

def store (tenantId agentId memoryKey : String) (value : Json) (ttlSeconds : Option ℚ) :
    Prog MemoryIface String := do
  let namespacedKey ← Prog.ofExcept (buildNamespacedKey tenantId agentId memoryKey)
  await (.set namespacedKey value.stringify ttlSeconds)
  pure namespacedKey

def get (tenantId agentId memoryKey : String) : Prog MemoryIface (Option Value) := do
  let namespacedKey ← Prog.ofExcept (buildNamespacedKey tenantId agentId memoryKey)
  let value ← await (.get namespacedKey)
  match value.filter (· ≠ "") with
  | none => pure none
  | some text => do
      let value ← Prog.ofExcept (parseValue text)
      pure (some value)

def delete (tenantId agentId memoryKey : String) : Prog MemoryIface Nat := do
  let namespacedKey ← Prog.ofExcept (buildNamespacedKey tenantId agentId memoryKey)
  await (.del namespacedKey)

def listByAgent (tenantId agentId : String) : Prog MemoryIface (List String) :=
  await (.keys s!"{tenantId}:{agentId}:*")

/-- `Promise.all` of the deletions, and the sum of their counts. -/
def deleteAll : List String → Prog MemoryIface Nat
  | [] => pure 0
  | key :: keys => do
      let count ← await (.del key)
      let rest ← deleteAll keys
      pure (count + rest)

def clearByAgent (tenantId agentId : String) : Prog MemoryIface Nat := do
  let keys ← listByAgent tenantId agentId
  deleteAll keys

def clearByTenant (tenantId : String) : Prog MemoryIface Nat := do
  let keys ← await (.keys s!"{tenantId}:*")
  deleteAll keys

def publishSharedLearning (tenantId : String) (record : AgentLearningRecord)
    (ttlSeconds : Option ℚ) : Prog MemoryIface String := do
  let key ← Prog.ofExcept
    (buildSharedLearningKey tenantId s!"{record.id}:{record.sourceAgentId}")
  await (.set key record.toJson.stringify ttlSeconds)
  pure key

inductive MemoryCall
  | store (tenantId agentId memoryKey : String) (value : Json) (ttlSeconds : Option ℚ)
  | get (tenantId agentId memoryKey : String)
  | delete (tenantId agentId memoryKey : String)
  | clearByAgent (tenantId agentId : String)
  | clearByTenant (tenantId : String)
  | publishSharedLearning (tenantId : String) (record : AgentLearningRecord)
      (ttlSeconds : Option ℚ)

inductive MemoryResult
  | key (key : String)
  | value (value : Option Value)
  | count (count : Nat)

def serve : MemoryCall → Prog MemoryIface MemoryResult
  | .store tenantId agentId memoryKey value ttlSeconds => do
      let key ← store tenantId agentId memoryKey value ttlSeconds
      pure (.key key)
  | .get tenantId agentId memoryKey => do
      let value ← get tenantId agentId memoryKey
      pure (.value value)
  | .delete tenantId agentId memoryKey => do
      let count ← delete tenantId agentId memoryKey
      pure (.count count)
  | .clearByAgent tenantId agentId => do
      let count ← clearByAgent tenantId agentId
      pure (.count count)
  | .clearByTenant tenantId => do
      let count ← clearByTenant tenantId
      pure (.count count)
  | .publishSharedLearning tenantId record ttlSeconds => do
      let key ← publishSharedLearning tenantId record ttlSeconds
      pure (.key key)

/-- The service over the backend in memory; the choice is the time that passes before an
operation. -/
def memoryService : System MemoryIface MemoryCall InMemory MemoryResult where
  Choice := Nat
  handle o elapsed backend :=
    let (result, backend) := { backend with clock := backend.clock + elapsed }.perform o
    some (.ok result, backend)
  program := serve
  Env := Empty
  env event _ _ := event.elim

end Memory
