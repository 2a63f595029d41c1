import BirthHub.Http.SanitizeInput
import BirthHub.Workflow.Launch

/-!
# Inbound webhooks

`POST /webhooks/trigger/:id` of `apps/api/src/modules/webhooks/router.ts` and
`dedupeTriggerPayload` of `runnerQueue.ts`, on top of `runWorkflowNow`. A delivery comes with the
text of its body; `express.json` and the sanitizer are in front of the route.

Redis forgets a key when it expires. Every operation is done at a time that does not lie
before that of the operation before it.
-/

namespace Webhooks

open Data Effect Workflow

/-! ## Rows and operations -/

/-- What a workflow has for the route. -/
structure TriggerSettings where
  triggerType : TriggerType
  webhookSecret : Option String := none
deriving DecidableEq

structure TriggerWorkflow extends TriggerSettings where
  id : String
  organizationId : String
  tenantId : String
deriving DecidableEq

structure TriggerDelivery where
  workflowId : String
  body : String
  /-- The header `x-birthhub-signature`. -/
  signature : Option String

inductive TriggerResponse
  | deduplicated
  | accepted (executionId : String)
deriving DecidableEq

inductive TriggerOp
  /-- `prisma.workflow.findUnique`. -/
  | findWorkflow (id : String)
  /-- `SET key 1 EX 5 NX`, which answers whether the key was set. -/
  | setKey (key : String)
  | launch (o : LaunchOp)

def TriggerOp.Result : TriggerOp → Type
  | .findWorkflow _ => Option TriggerWorkflow
  | .setKey _ => Bool
  | .launch o => o.Result

abbrev TriggerIface : Iface where
  Op := TriggerOp
  Res := TriggerOp.Result
  Err := Thrown

def asTrigger : Embedding LaunchIface TriggerIface where
  op := .launch
  answer _ := id
  err := id

def awaitTrigger (o : TriggerOp) : Prog TriggerIface o.Result := Prog.perform (I := TriggerIface) o

/-- `createHmac("sha256", secret)` and `createHash("sha256")`, in hexadecimal, and
`JOB_HMAC_GLOBAL_SECRET`. -/
structure TriggerConfig where
  hmac : (secret text : String) → String
  sha256 : String → String
  globalSecret : String

/-! ## The route -/

def problem (detail : String) : Thrown := error detail

/-- The signature that is expected of a payload. -/
def expectedSignature (config : TriggerConfig) (workflow : TriggerWorkflow) (payload : Json) :
    String :=
  config.hmac (workflow.webhookSecret.getD config.globalSecret) payload.stringify

/-- The checks before the payload is looked at any further. -/
def checkTrigger (config : TriggerConfig) (workflow : Option TriggerWorkflow) (payload : Json)
    (signature : Option String) : Except Thrown TriggerWorkflow :=
  match workflow.filter (·.triggerType = .WEBHOOK) with
  | none => .error (problem "Webhook trigger not found.")
  | some workflow =>
      match signature.filter (· ≠ "") with
      | none => .error (problem "Invalid webhook signature.")
      | some signature =>
          if signature = expectedSignature config workflow payload then .ok workflow
          else .error (problem "Invalid webhook signature.")

def dedupeKey (config : TriggerConfig) (tenantId : String) (payload : Json) : String :=
  let hash := config.sha256
    (Json.object [("payload", payload), ("tenantId", .string tenantId)]).stringify
  s!"workflow:trigger:dedupe:{tenantId}:{hash}"

def dedupeTriggerPayload (config : TriggerConfig) (tenantId : String) (payload : Json) :
    Prog TriggerIface Bool :=
  awaitTrigger (.setKey (dedupeKey config tenantId payload))

def triggerWorkflow (config : TriggerConfig) (delivery : TriggerDelivery) :
    Prog TriggerIface TriggerResponse :=
  match Http.requestBody delivery.body with
  | none => .throw (problem "Bad Request")
  | some payload => do
      let found ← awaitTrigger (.findWorkflow delivery.workflowId)
      let workflow ← Prog.ofExcept (checkTrigger config found payload delivery.signature)
      let dedupeAccepted ← dedupeTriggerPayload config workflow.tenantId payload
      if !dedupeAccepted then pure .deduplicated
      else do
        let execution ← (runWorkflowNow workflow.id workflow.organizationId
          { async := true, payload } .WEBHOOK).embed asTrigger
        pure (.accepted execution.executionId)

/-! ## The store -/

structure TriggerStore where
  launch : LaunchStore
  settings : List (String × TriggerSettings)
  clock : Int := 0
  /-- The keys that were set, with the times at which they expire. -/
  keys : List (String × Int) := []

namespace TriggerStore

variable (store : TriggerStore)

def workflow (id : String) : Option TriggerWorkflow :=
  (store.launch.engine.workflows.find? (·.id = id)).bind fun definition =>
    (store.settings.lookup id).map fun settings =>
      { settings with
        id := definition.id
        organizationId := definition.organizationId
        tenantId := definition.tenantId }

/-- The key has not expired. -/
def isLive (key : String) (time : Int) : Bool := (store.keys.lookup key).any (time < ·)

/-- What an operation does at a time. -/
def perform (choice : Workflow.Choice) (store : TriggerStore) :
    (o : TriggerOp) → Option (TriggerIface.Answer o × TriggerStore)
  | .findWorkflow id =>
      match choice.fault with
      | some e => some (.error e, store)
      | none => some (.ok (store.workflow id), store)
  | .setKey key =>
      match choice.fault with
      | some e => some (.error e, store)
      | none =>
          if store.isLive key choice.time then some (.ok false, store)
          else some (.ok true, { store with
            keys := (key, choice.time + 5000) :: store.keys.filter (·.1 ≠ key) })
  | .launch o => (store.launch.handle o choice).map fun (answer, launch) =>
      (answer, { store with launch })

def handle (o : TriggerOp) (choice : Workflow.Choice) (store : TriggerStore) :
    Option (TriggerIface.Answer o × TriggerStore) :=
  if store.clock ≤ choice.time then
    perform choice { store with clock := choice.time } o
  else none

end TriggerStore

/-- Deliveries served one after another. -/
def triggers (config : TriggerConfig) :
    System TriggerIface TriggerDelivery TriggerStore TriggerResponse where
  Choice := Workflow.Choice
  handle := TriggerStore.handle
  program := triggerWorkflow config
  Env := Empty
  env event := nomatch event

end Webhooks
