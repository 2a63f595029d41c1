import BirthHub.Data.Json
import BirthHub.Data.OrderedMap
import BirthHub.Effect.System

/-!
# The agent orchestrator

`_execute_event`, `reprocess_dlq_event` and `cancel_event` work on `EVENT_STORE` and
`DLQ_STORE`, dictionaries of the process, and on the rows of `agent_tasks`. The code between two
awaits is not interrupted, so it is one operation here (`Memory.execute`, `Memory.retry`, …); a
query of the database and a flow are operations of their own, between which other requests run.

The records of the dictionaries are objects: what is assigned to a record shows in every
dictionary that holds it.
-/

namespace Orchestrator

open Data Effect

/-! ## Requests and records -/

inductive EventType
  | DEAL_CLOSED_WON
  | HEALTH_ALERT
  | CHURN_RISK_HIGH
  | BOARD_REPORT
deriving DecidableEq

namespace EventType

def name : EventType → String
  | DEAL_CLOSED_WON => "DEAL_CLOSED_WON"
  | HEALTH_ALERT => "HEALTH_ALERT"
  | CHURN_RISK_HIGH => "CHURN_RISK_HIGH"
  | BOARD_REPORT => "BOARD_REPORT"

def ofName (name : String) : Option EventType :=
  [DEAL_CLOSED_WON, HEALTH_ALERT, CHURN_RISK_HIGH, BOARD_REPORT].find? (·.name = name)

end EventType

abbrev Dict := List (String × Json)

structure EventRunRequest where
  event_id : String
  event_type : EventType
  entity_id : String
  context : Dict
  tenant_id : String
  event_id_min : 3 ≤ event_id.length
  tenant_id_min : 1 ≤ tenant_id.length

/-- A value of a record: a dictionary, or the text that a `jsonb` column is read as. -/
inductive Payload
  | dict (members : Dict)
  | text (text : String)

inductive EventStatus
  | processing
  | completed
  | failed
  | cancelled
deriving DecidableEq

structure EventRecord where
  event_id : String
  event_type : String
  entity_id : String
  context : Payload
  tenant_id : String
  status : EventStatus
  result : Option Payload
  created_at : String
  updated_at : String

inductive Failure
  | HTTPException (status_code : Nat) (detail : String)
  | ValidationError
  | database

/-- The fields of a record as those of a request. -/
def EventRunRequest.validate (record : EventRecord) : Option EventRunRequest :=
  match EventType.ofName record.event_type, record.context with
  | some event_type, .dict context =>
      if event_id_min : 3 ≤ record.event_id.length then
        if tenant_id_min : 1 ≤ record.tenant_id.length then
          some {
            event_id := record.event_id, event_type, entity_id := record.entity_id, context,
            tenant_id := record.tenant_id, event_id_min, tenant_id_min }
        else none
      else none
  | _, _ => none

/-! ## The dictionaries of the process -/

/-- The dictionaries hold places of the list of records. -/
structure Memory where
  records : List EventRecord := []
  EVENT_STORE : OrderedMap String Nat := .empty
  DLQ_STORE : OrderedMap String Nat := .empty

inductive Admission
  | duplicate (record : EventRecord)
  | started (record : EventRecord)

inductive Ended
  | completed (record : EventRecord)
  | failed (record : EventRecord) (detail : String)

inductive Cancellation
  | completed
  | cancelled (record : EventRecord)

def Ended.record : Ended → EventRecord
  | .completed record => record
  | .failed record _ => record

namespace Memory

variable (memory : Memory) (now : String)

/-- `EVENT_STORE.get(event_id)`. -/
def event (event_id : String) : Option EventRecord :=
  (memory.EVENT_STORE.get event_id).bind fun place => memory.records[place]?

/-- `DLQ_STORE.get(event_id)`. -/
def dead (event_id : String) : Option EventRecord :=
  (memory.DLQ_STORE.get event_id).bind fun place => memory.records[place]?

/-- A new record under an event id. -/
def put (event_id : String) (record : EventRecord) : Memory :=
  { memory with
    records := memory.records ++ [record]
    EVENT_STORE := memory.EVENT_STORE.set event_id memory.records.length }

def popDLQ (event_id : String) : Memory :=
  { memory with DLQ_STORE := memory.DLQ_STORE.filter fun e => e.1 ≠ event_id }

/-- `_execute_event` from the duplicate check to the first write. -/
def accept (request : EventRunRequest) (allow_retry : Bool) (existing : Option EventRecord) :
    Admission × Memory :=
  match existing.filter fun record =>
      !allow_retry && record.status ∈ [.completed, .cancelled, .processing] with
  | some record => (.duplicate record, memory)
  | none =>
      let record : EventRecord := {
        event_id := request.event_id
        event_type := request.event_type.name
        entity_id := request.entity_id
        context := .dict request.context
        tenant_id := request.tenant_id
        status := .processing
        result := none
        created_at := (existing.map (·.created_at)).getD now
        updated_at := now }
      (.started record, memory.put request.event_id record)

/-- `_execute_event` up to its first `await`: `none` when that is the lookup. -/
def execute (request : EventRunRequest) (allow_retry : Bool) : Option Admission × Memory :=
  match memory.event request.event_id with
  | some existing =>
      let (admission, memory) := memory.accept now request allow_retry (some existing)
      (some admission, memory)
  | none => (none, memory)

/-- `reprocess_dlq_event` from the check of the record to the next `await`. -/
def retry (record : EventRecord) :
    Except Failure (EventRunRequest × Option Admission) × Memory :=
  if record.status ≠ .failed then (.error (.HTTPException 404 "DLQ event not found"), memory)
  else if record.tenant_id = "" then
    (.error (.HTTPException 500 "DLQ event missing tenant context"), memory)
  else
    match EventRunRequest.validate record with
    | none => (.error .ValidationError, memory)
    | some request =>
        let (admission, memory) := memory.execute now request true
        (.ok (request, admission), memory)

/-- `reprocess_dlq_event` up to its first `await`: `none` when that is the lookup. -/
def reprocess (event_id : String) :
    Option (Except Failure (EventRunRequest × Option Admission)) × Memory :=
  match memory.dead event_id with
  | some record =>
      let (retried, memory) := memory.retry now record
      (some retried, memory)
  | none => (none, memory)

/-- What follows the end of a flow, up to the next `await`. Of `record` only the status and the
time may have been assigned, and both are written anew. -/
def finish (record : EventRecord) (outcome : Except String Dict) : Ended × Memory :=
  match outcome with
  | .ok result =>
      let completed := { record with
        status := .completed, result := some (.dict result), updated_at := now }
      (.completed completed, (memory.put record.event_id completed).popDLQ record.event_id)
  | .error detail =>
      let failed := { record with
        status := .failed, result := some (.dict [("error", .string detail)]), updated_at := now }
      (.failed failed detail, { memory.put record.event_id failed with
        DLQ_STORE := memory.DLQ_STORE.set record.event_id memory.records.length })

/-- `cancel_event` of a record in `EVENT_STORE`: `none` when there is none. -/
def cancel (event_id : String) : Option Cancellation × Memory :=
  match memory.EVENT_STORE.get event_id, memory.event event_id with
  | some place, some record =>
      if record.status = .completed then (some .completed, memory)
      else
        let record := { record with status := .cancelled, updated_at := now }
        (some (.cancelled record), { memory with
          records := memory.records.set place record
          EVENT_STORE := memory.EVENT_STORE.set event_id place })
  | _, _ => (none, memory)

/-- `cancel_event` of a record that was looked up. -/
def cancelLoaded (event_id : String) (record : EventRecord) : Cancellation × Memory :=
  if record.status = .completed then (.completed, memory)
  else
    let record := { record with status := .cancelled, updated_at := now }
    (.cancelled record, memory.put event_id record)

end Memory

/-! ## The table -/

structure AgentTask where
  id : String
  tenant_id : String
  agent_type : String
  task : String
  payload : String
  status : EventStatus
  result : Option String
  created_at : String
  updated_at : String

/-- `json.dumps`, and the text that is read from a `jsonb` column for a text written to it. -/
structure Driver where
  dumps : Payload → String
  jsonb : String → String

/-- The text of a `jsonb` column. -/
def Driver.column (driver : Driver) (payload : Payload) : String :=
  driver.jsonb (driver.dumps payload)

abbrev AgentTasks := List AgentTask

/-- `INSERT INTO agent_tasks … ON CONFLICT (id) DO UPDATE`. -/
def upsert_agent_task (driver : Driver) (tasks : AgentTasks) (now : String)
    (record : EventRecord) : AgentTasks :=
  let task : AgentTask := {
    id := record.event_id
    tenant_id := record.tenant_id
    agent_type := record.event_type
    task := "process_event"
    payload := driver.column record.context
    status := record.status
    result := record.result.map driver.column
    created_at := now
    updated_at := now }
  if tasks.any (·.id = record.event_id) then
    tasks.map fun row =>
      if row.id = record.event_id then { task with created_at := row.created_at } else row
  else tasks ++ [task]

def _serialize_task_record (row : AgentTask) : EventRecord where
  context := .text row.payload
  created_at := row.created_at
  entity_id := row.id
  event_id := row.id
  event_type := row.agent_type
  result := row.result.map .text
  status := row.status
  tenant_id := row.tenant_id
  updated_at := row.updated_at

def get_agent_task (tasks : AgentTasks) (task_id : String) : Option EventRecord :=
  (tasks.find? (·.id = task_id)).map _serialize_task_record

/-! ## Operations -/

inductive OrchestratorOp
  | execute (request : EventRunRequest)
  | accept (request : EventRunRequest) (allow_retry : Bool) (existing : Option EventRecord)
  | reprocess (event_id : String)
  | retry (record : EventRecord)
  | popDLQ (event_id : String)
  | cancel (event_id : String)
  | cancelLoaded (event_id : String) (record : EventRecord)
  /-- The flow of a request, whose record is given, and what follows its end. -/
  | ainvoke (request : EventRunRequest) (record : EventRecord)
  | upsert_agent_task (record : EventRecord)
  | get_agent_task (task_id : String)

abbrev OrchestratorOp.Result : OrchestratorOp → Type
  | .execute _ => Option Admission
  | .accept .. => Admission
  | .reprocess _ => Option (Except Failure (EventRunRequest × Option Admission))
  | .retry _ => Except Failure (EventRunRequest × Option Admission)
  | .popDLQ _ => Unit
  | .cancel _ => Option Cancellation
  | .cancelLoaded .. => Cancellation
  | .ainvoke .. => Ended
  | .upsert_agent_task _ => Unit
  | .get_agent_task _ => Option EventRecord

abbrev OrchestratorIface : Iface where
  Op := OrchestratorOp
  Res := OrchestratorOp.Result
  Err := Failure

def await (o : OrchestratorOp) : Prog OrchestratorIface o.Result :=
  Prog.perform (I := OrchestratorIface) o

structure Store where
  memory : Memory := {}
  agent_tasks : AgentTasks := []

/-- The time of an operation, whether the database fails it, and how a flow ends. -/
structure Choice where
  now : String := ""
  fails : Bool := false
  outcome : Except String Dict := .ok []

def handle (driver : Driver) : (o : OrchestratorOp) → Choice → Store →
    Option (OrchestratorIface.Answer o × Store)
  | .execute request, choice, s =>
      let (first, memory) := s.memory.execute choice.now request false
      some (.ok first, { s with memory })
  | .accept request allow_retry existing, choice, s =>
      let (admission, memory) := s.memory.accept choice.now request allow_retry existing
      some (.ok admission, { s with memory })
  | .reprocess event_id, choice, s =>
      let (first, memory) := s.memory.reprocess choice.now event_id
      some (.ok first, { s with memory })
  | .retry record, choice, s =>
      let (retried, memory) := s.memory.retry choice.now record
      some (.ok retried, { s with memory })
  | .popDLQ event_id, _, s => some (.ok (), { s with memory := s.memory.popDLQ event_id })
  | .cancel event_id, choice, s =>
      let (first, memory) := s.memory.cancel choice.now event_id
      some (.ok first, { s with memory })
  | .cancelLoaded event_id record, choice, s =>
      let (cancellation, memory) := s.memory.cancelLoaded choice.now event_id record
      some (.ok cancellation, { s with memory })
  | .ainvoke _ record, choice, s =>
      let (ended, memory) := s.memory.finish choice.now record choice.outcome
      some (.ok ended, { s with memory })
  | .upsert_agent_task record, choice, s =>
      if choice.fails then some (.error .database, s)
      else some (.ok (), { s with
        agent_tasks := upsert_agent_task driver s.agent_tasks choice.now record })
  | .get_agent_task task_id, choice, s =>
      if choice.fails then some (.error .database, s)
      else some (.ok (get_agent_task s.agent_tasks task_id), s)

/-! ## The endpoints -/

inductive Response
  | event (event_id status : String) (result : Option Payload)
  | cancel (event_id status : String)

def _safe_upsert_event (record : EventRecord) : Prog OrchestratorIface Unit :=
  if record.tenant_id = "" then .pure ()
  else (await (.upsert_agent_task record)).tryCatch fun _ => .pure ()

def _load_persisted_event (event_id : String) : Prog OrchestratorIface (Option EventRecord) :=
  (await (.get_agent_task event_id)).tryCatch fun _ => .pure none

/-- `_execute_event` from its first write on. -/
def runFlow (request : EventRunRequest) : Admission → Prog OrchestratorIface Response
  | .duplicate record => pure (.event record.event_id "duplicate" record.result)
  | .started record => do
      _safe_upsert_event record
      let ended ← await (.ainvoke request record)
      _safe_upsert_event ended.record
      match ended with
      | .completed record => pure (.event request.event_id "completed" record.result)
      | .failed _ detail => Prog.throw (.HTTPException 500 detail)

/-- `_execute_event` after its first `await`-free part. -/
def _execute_event (request : EventRunRequest) (allow_retry : Bool) :
    Option Admission → Prog OrchestratorIface Response
  | some admission => runFlow request admission
  | none => do
      let existing ← _load_persisted_event request.event_id
      let admission ← await (.accept request allow_retry existing)
      runFlow request admission

def run_event (request : EventRunRequest) : Prog OrchestratorIface Response := do
  let first ← await (.execute request)
  _execute_event request false first

/-- The record of the dead letter queue, or that of the table, as a request. -/
def retryRequest (event_id : String) :
    Prog OrchestratorIface (EventRunRequest × Option Admission) := do
  let first ← await (.reprocess event_id)
  match first with
  | some retried => Prog.ofExcept retried
  | none => do
      let loaded ← _load_persisted_event event_id
      match loaded with
      | none => Prog.throw (.HTTPException 404 "DLQ event not found")
      | some record => do
          let retried ← await (.retry record)
          Prog.ofExcept retried

def reprocess_dlq_event (event_id : String) : Prog OrchestratorIface Response := do
  let (request, first) ← retryRequest event_id
  let result ← _execute_event request true first
  await (.popDLQ event_id)
  pure result

/-- `cancel_event` after the record was cancelled. -/
def cancelled (event_id : String) : Cancellation → Prog OrchestratorIface Response
  | .completed => pure (.cancel event_id "completed")
  | .cancelled record => do
      _safe_upsert_event record
      pure (.cancel event_id "cancelled")

def cancel_event (event_id : String) : Prog OrchestratorIface Response := do
  let first ← await (.cancel event_id)
  match first with
  | some cancellation => cancelled event_id cancellation
  | none => do
      let loaded ← _load_persisted_event event_id
      match loaded with
      | none => Prog.throw (.HTTPException 404 "Event not found")
      | some record => do
          let cancellation ← await (.cancelLoaded event_id record)
          cancelled event_id cancellation

inductive Request
  | run (request : EventRunRequest)
  | reprocess (event_id : String)
  | cancel (event_id : String)

def Request.event_id : Request → String
  | .run request => request.event_id
  | .reprocess event_id => event_id
  | .cancel event_id => event_id

def serve : Request → Prog OrchestratorIface Response
  | .run request => run_event request
  | .reprocess event_id => reprocess_dlq_event event_id
  | .cancel event_id => cancel_event event_id

/-- The orchestrator; at any time a request may arrive. -/
abbrev orchestrator (driver : Driver) : System OrchestratorIface Request Store Response where
  Choice := Choice
  handle := handle driver
  program := serve
  Env := Request
  env request s _ := some { store := s, spawn := [request] }

end Orchestrator
