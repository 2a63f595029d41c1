import BirthHub.Data.Schema
import BirthHub.Effect.System

/-!
# Outbound webhooks

`apps/worker/src/webhooks/outbound.ts` with its rate limiter (`lib/rate-limiter.ts`), the
endpoint settings of `apps/api/src/modules/webhooks/settings.service.ts`, and the system in
which calls of the settings, publications and delivery jobs run side by side.

The counters of the limiter are kept in Redis and are not modelled: `incrWithExpiry` answers any
count. `fetch` with its timeout is one operation, `dispatch`.
-/

namespace Webhooks

open Data Effect

/-! ## Rows -/

inductive WebhookEndpointStatus
  | ACTIVE
  | DISABLED
deriving DecidableEq, Repr

structure OrganizationRow where
  id : String
  slug : String
  tenantId : String

structure WebhookEndpoint where
  id : String
  tenantId : String
  organizationId : String
  createdByUserId : Option String := none
  url : String
  secret : String
  topics : List String
  status : WebhookEndpointStatus := .ACTIVE
  consecutiveFailures : Nat := 0
  lastDeliveredAt : Option Int := none
  lastFailureAt : Option Int := none

/-- The columns an update of an endpoint sets. -/
structure EndpointUpdate where
  status : Option WebhookEndpointStatus := none
  topics : Option (List String) := none
  url : Option String := none
  consecutiveFailures : Option Nat := none
  lastDeliveredAt : Option Int := none
  lastFailureAt : Option Int := none
deriving DecidableEq

structure WebhookDelivery where
  id : String
  endpointId : String
  tenantId : String
  organizationId : String
  topic : String
  payload : Json
  signature : String
  attempt : Int := 1
  success : Bool := false
  statusCode : Option Int := none
  responseBody : Option String := none
  errorMessage : Option String := none
  deliveredAt : Option Int := none

structure DeliveryUpdate where
  success : Option Bool := none
  statusCode : Option Int := none
  responseBody : Option String := none
  errorMessage : Option String := none
  deliveredAt : Option Int := none

structure OutboundWebhookJobPayload where
  attempt : Option Int := none
  endpointId : String
  organizationId : String
  payload : Json
  tenantId : String
  topic : String

/-- What `dispatchHttpRequest` returns. -/
structure HttpResult where
  ok : Bool
  responseBody : String
  statusCode : Int

/-! ## Operations -/

inductive WebhookOp
  | findOrganization (tenantReference : String)
  | createEndpoint (organization : OrganizationRow) (createdByUserId : Option String)
      (topics : List String) (url : String)
  | findTenantEndpoint (id organizationId : String)
  | findEndpoint (id : String)
  | findSubscribers (organizationId topic : String)
  | updateEndpoint (id : String) (data : EndpointUpdate)
  | findDelivery (id organizationId : String)
  | createDelivery (payload : OutboundWebhookJobPayload) (endpointId signature : String)
  | updateDelivery (id : String) (data : DeliveryUpdate)
  /-- Adds a job to the queue of outbound webhooks. -/
  | addJob (payload : OutboundWebhookJobPayload)
  /-- `INCR` and `EXPIRE` in one transaction; `none` when it gave no results. -/
  | incrWithExpiry (redisKey : String) (seconds : Nat)
  | dispatch (payload signature topic url : String)
  /-- `Date.now()`, which does not fail. -/
  | now

def WebhookOp.Result : WebhookOp → Type
  | .findOrganization _ => Option OrganizationRow
  | .createEndpoint .. => WebhookEndpoint
  | .findTenantEndpoint .. => Option WebhookEndpoint
  | .findEndpoint _ => Option WebhookEndpoint
  | .findSubscribers .. => List WebhookEndpoint
  | .updateEndpoint .. => WebhookEndpoint
  | .findDelivery .. => Option WebhookDelivery
  | .createDelivery .. => WebhookDelivery
  | .updateDelivery .. => Unit
  | .addJob _ => Unit
  | .incrWithExpiry .. => Option Nat
  | .dispatch .. => HttpResult
  | .now => Int

abbrev WebhookIface : Iface where
  Op := WebhookOp
  Res := WebhookOp.Result
  Err := Thrown

/-- What the worker calls and this development does not model: the HMAC of a text in
hexadecimal, and `new URL(url).host`. -/
structure Runtime where
  hmac : (secret text : String) → String
  host : String → Except Thrown String

def await (o : WebhookOp) : Prog WebhookIface o.Result := Prog.perform (I := WebhookIface) o

/-! ## The delivery job -/

def signPayload (rt : Runtime) (secret payload : String) : String := rt.hmac secret payload

/-- `DynamicRateLimiter.consume`. -/
def consume (key : String) (limit windowSeconds : Nat) : Prog WebhookIface Unit := do
  let now : Int ← await .now
  let currentWindow := now / 1000 / windowSeconds
  let redisKey := s!"rate_limit:{key}:{currentWindow}"
  let results ← await (.incrWithExpiry redisKey (windowSeconds * 2))
  match results with
  | none => .throw (error "Failed to execute rate limit check")
  | some count =>
      if count > limit then .throw (error s!"Rate limit exceeded for key: {key}") else pure ()

/-- The failures in a row after which an endpoint is disabled. -/
def FAILURE_THRESHOLD : Nat := 10

/-- What a failed delivery stores at the endpoint that the job has read. -/
def failureUpdate (endpoint : WebhookEndpoint) (lastFailureAt : Int) : EndpointUpdate where
  consecutiveFailures := some (endpoint.consecutiveFailures + 1)
  lastFailureAt := some lastFailureAt
  status := some (if endpoint.consecutiveFailures + 1 ≥ FAILURE_THRESHOLD then .DISABLED
    else .ACTIVE)

/-- What a successful delivery stores at its endpoint. -/
def successUpdate (lastDeliveredAt : Int) : EndpointUpdate where
  consecutiveFailures := some 0
  lastDeliveredAt := some lastDeliveredAt

structure JobResult where
  deliveryId : Option String := none
  skipped : Bool
  statusCode : Option Int := none

/-- The `try` block of `processOutboundWebhookJob`. -/
def attemptDelivery (rt : Runtime) (payload : OutboundWebhookJobPayload)
    (endpoint : WebhookEndpoint) (serializedPayload signature : String)
    (delivery : WebhookDelivery) : Prog WebhookIface JobResult := do
  let host ← .ofExcept (rt.host endpoint.url)
  consume s!"webhook:{payload.tenantId}:{host}" 10 1
  let result : HttpResult ←
    await (.dispatch serializedPayload signature payload.topic endpoint.url)
  let deliveredAt : Int ← await .now
  let _ ← await (.updateDelivery delivery.id {
    deliveredAt := some deliveredAt
    responseBody := some result.responseBody
    statusCode := some result.statusCode
    success := some result.ok })
  if result.ok then do
    let lastDeliveredAt : Int ← await .now
    let _ ← await (.updateEndpoint endpoint.id (successUpdate lastDeliveredAt))
    pure {
      deliveryId := some delivery.id
      skipped := false
      statusCode := some result.statusCode }
  else do
    let lastFailureAt : Int ← await .now
    let _ ← await (.updateEndpoint endpoint.id (failureUpdate endpoint lastFailureAt))
    .throw (error s!"Webhook delivery failed with status {result.statusCode}")

/-- What the `catch` block stores as the error of the delivery. -/
def errorText (e : Thrown) : String := e.message.getD "Unknown webhook delivery error"

/-- `error instanceof Error && error.message.includes("status")`. -/
def isCounted (e : Thrown) : Bool := e.message.any fun message => includes message "status"

/-- The `catch` block of `processOutboundWebhookJob`. -/
def recoverDelivery (endpoint : WebhookEndpoint) (delivery : WebhookDelivery) (e : Thrown) :
    Prog WebhookIface JobResult := do
  let _ ← await (.updateDelivery delivery.id { errorMessage := some (errorText e) })
  if isCounted e then .throw e
  else do
    let lastFailureAt : Int ← await .now
    let _ ← await (.updateEndpoint endpoint.id (failureUpdate endpoint lastFailureAt))
    .throw e

def processOutboundWebhookJob (rt : Runtime) (payload : OutboundWebhookJobPayload) :
    Prog WebhookIface JobResult := do
  let endpoint ← await (.findEndpoint payload.endpointId)
  match endpoint with
  | none => pure { skipped := true }
  | some endpoint =>
      if endpoint.status = .DISABLED then pure { skipped := true }
      else if payload.topic ∉ endpoint.topics then pure { skipped := true }
      else do
        let serializedPayload := payload.payload.stringify
        let signature := signPayload rt endpoint.secret serializedPayload
        let delivery : WebhookDelivery ← await (.createDelivery payload endpoint.id signature)
        (attemptDelivery rt payload endpoint serializedPayload signature delivery).tryCatch
          (recoverDelivery endpoint delivery)

/-! ## Settings and publications -/

/-- `new ProblemDetailsError({ detail, status: 404, title: "Not Found" })`. -/
def notFound (detail : String) : Thrown := error detail

def resolveOrganization (tenantReference : String) : Prog WebhookIface OrganizationRow := do
  let organization ← await (.findOrganization tenantReference)
  match organization with
  | none => .throw (notFound "Organization not found for the active tenant context.")
  | some organization => pure organization

structure EndpointCreateInput where
  createdByUserId : Option String := none
  tenantReference : String
  topics : List String
  url : String

def createTenantWebhookEndpoint (input : EndpointCreateInput) : Prog WebhookIface Unit := do
  let organization ← resolveOrganization input.tenantReference
  let _ ← await (.createEndpoint organization input.createdByUserId input.topics input.url)
  pure ()

structure EndpointUpdateInput where
  endpointId : String
  status : Option WebhookEndpointStatus := none
  tenantReference : String
  topics : Option (List String) := none
  url : Option String := none

def EndpointUpdateInput.data (input : EndpointUpdateInput) : EndpointUpdate where
  status := input.status
  topics := input.topics
  url := input.url

def updateTenantWebhookEndpoint (input : EndpointUpdateInput) : Prog WebhookIface Unit := do
  let organization ← resolveOrganization input.tenantReference
  let endpoint ← await (.findTenantEndpoint input.endpointId organization.id)
  match endpoint with
  | none => .throw (notFound "Webhook endpoint not found for the active tenant.")
  | some endpoint => do
      let _ ← await (.updateEndpoint endpoint.id input.data)
      pure ()

structure TopicInput where
  organizationId : String
  payload : Json
  tenantId : String
  topic : String

def enqueueAll (input : TopicInput) : List WebhookEndpoint → Prog WebhookIface Unit
  | [] => pure ()
  | endpoint :: endpoints => do
      await (.addJob {
        attempt := some 1
        endpointId := endpoint.id
        organizationId := input.organizationId
        payload := input.payload
        tenantId := input.tenantId
        topic := input.topic })
      enqueueAll input endpoints

def enqueueWebhookTopicDeliveries (input : TopicInput) : Prog WebhookIface Unit := do
  let endpoints ← await (.findSubscribers input.organizationId input.topic)
  enqueueAll input endpoints

def retryWebhookDelivery (deliveryId tenantReference : String) : Prog WebhookIface Unit := do
  let organization ← resolveOrganization tenantReference
  let delivery ← await (.findDelivery deliveryId organization.id)
  match delivery with
  | none => .throw (notFound "Webhook delivery not found for the active tenant.")
  | some delivery =>
      await (.addJob {
        attempt := some 1
        endpointId := delivery.endpointId
        organizationId := delivery.organizationId
        payload := delivery.payload
        tenantId := delivery.tenantId
        topic := delivery.topic })

/-! ## The store -/

structure Store where
  organizations : List OrganizationRow
  endpoints : List WebhookEndpoint
  deliveries : List WebhookDelivery
  jobs : List OutboundWebhookJobPayload

/-- What the outside decides about one operation. -/
structure Choice where
  /-- The operation fails without effect. -/
  fault : Option Thrown := none
  /-- What the clock shows. -/
  time : Int := 0
  /-- The id of a new row. -/
  newId : String := ""
  /-- The secret of a new endpoint. -/
  secret : String := ""
  /-- What Redis counts. -/
  count : Option Nat := some 1
  /-- What the called server answers. -/
  response : HttpResult := { ok := true, responseBody := "", statusCode := 200 }

def EndpointUpdate.apply (data : EndpointUpdate) (row : WebhookEndpoint) : WebhookEndpoint :=
  { row with
    status := data.status.getD row.status
    topics := data.topics.getD row.topics
    url := data.url.getD row.url
    consecutiveFailures := data.consecutiveFailures.getD row.consecutiveFailures
    lastDeliveredAt := data.lastDeliveredAt <|> row.lastDeliveredAt
    lastFailureAt := data.lastFailureAt <|> row.lastFailureAt }

def DeliveryUpdate.apply (data : DeliveryUpdate) (row : WebhookDelivery) : WebhookDelivery :=
  { row with
    success := data.success.getD row.success
    statusCode := data.statusCode <|> row.statusCode
    responseBody := data.responseBody <|> row.responseBody
    errorMessage := data.errorMessage <|> row.errorMessage
    deliveredAt := data.deliveredAt <|> row.deliveredAt }

/-- The error of an update of a row that is not there. -/
def recordNotFound : Thrown := { message := some "No record was found for an update.",
                                 code := some "P2025" }

namespace Store

variable (store : Store)

def endpoint (id : String) : Option WebhookEndpoint := store.endpoints.find? (·.id = id)

def updateEndpoint (id : String) (data : EndpointUpdate) : Store :=
  { store with
    endpoints := store.endpoints.map fun row => if row.id = id then data.apply row else row }

def updateDelivery (id : String) (data : DeliveryUpdate) : Store :=
  { store with
    deliveries := store.deliveries.map fun row => if row.id = id then data.apply row else row }

/-- The result of an operation that does not fail by `fault`; a row is created under a new id. -/
def perform (choice : Choice) : (o : WebhookOp) → Option (WebhookIface.Answer o × Store)
  | .findOrganization tenantReference => some (.ok (store.organizations.find? fun row =>
      row.id = tenantReference ∨ row.slug = tenantReference ∨ row.tenantId = tenantReference),
      store)
  | .createEndpoint organization createdByUserId topics url =>
      let row : WebhookEndpoint := {
        id := choice.newId
        tenantId := organization.tenantId
        organizationId := organization.id
        createdByUserId
        url
        secret := choice.secret
        topics }
      if (store.endpoint choice.newId).isSome then none
      else some (.ok row, { store with endpoints := store.endpoints ++ [row] })
  | .findTenantEndpoint id organizationId => some (.ok (store.endpoints.find? fun row =>
      row.id = id ∧ row.organizationId = organizationId), store)
  | .findEndpoint id => some (.ok (store.endpoint id), store)
  | .findSubscribers organizationId topic => some (.ok (store.endpoints.filter fun row =>
      row.organizationId = organizationId ∧ row.status = .ACTIVE ∧ topic ∈ row.topics), store)
  | .updateEndpoint id data =>
      match store.endpoint id with
      | none => some (.error recordNotFound, store)
      | some row => some (.ok (data.apply row), store.updateEndpoint id data)
  | .findDelivery id organizationId => some (.ok (store.deliveries.find? fun row =>
      row.id = id ∧ row.organizationId = organizationId), store)
  | .createDelivery payload endpointId signature =>
      let row : WebhookDelivery := {
        id := choice.newId
        endpointId
        tenantId := payload.tenantId
        organizationId := payload.organizationId
        topic := payload.topic
        payload := payload.payload
        signature
        attempt := payload.attempt.getD 1 }
      if store.deliveries.any (·.id = choice.newId) then none
      else some (.ok row, { store with deliveries := store.deliveries ++ [row] })
  | .updateDelivery id data =>
      if store.deliveries.any (·.id = id) then some (.ok (), store.updateDelivery id data)
      else some (.error recordNotFound, store)
  | .addJob payload => some (.ok (), { store with jobs := store.jobs ++ [payload] })
  | .incrWithExpiry .. => some (.ok choice.count, store)
  | .dispatch .. => some (.ok choice.response, store)
  | .now => some (.ok choice.time, store)

def handle (o : WebhookOp) (choice : Choice) (store : Store) :
    Option (WebhookIface.Answer o × Store) :=
  match o, choice.fault with
  | .now, _ => store.perform choice .now
  | _, some e => some (.error e, store)
  | o, none => store.perform choice o

end Store

/-! ## The system -/

inductive WebhookCall
  | create (input : EndpointCreateInput)
  | update (input : EndpointUpdateInput)
  | publish (input : TopicInput)
  | retry (deliveryId tenantReference : String)

inductive WebhookTask
  | call (call : WebhookCall)
  | job (payload : OutboundWebhookJobPayload)

inductive WebhookEvent
  | call (call : WebhookCall)
  /-- BullMQ hands a job to a worker, for the first time or again. -/
  | deliver (job : Nat)

def WebhookCall.program : WebhookCall → Prog WebhookIface Unit
  | .create input => createTenantWebhookEndpoint input
  | .update input => updateTenantWebhookEndpoint input
  | .publish input => enqueueWebhookTopicDeliveries input
  | .retry deliveryId tenantReference => retryWebhookDelivery deliveryId tenantReference

def webhookProgram (rt : Runtime) : WebhookTask → Prog WebhookIface (Option JobResult)
  | .call call => call.program.bind fun _ => .pure none
  | .job payload => (processOutboundWebhookJob rt payload).bind fun result => .pure (some result)

def webhookOutside (event : WebhookEvent) (store : Store)
    (_threads : List (Thread WebhookTask Outcome)) : Option (Change WebhookTask Store) :=
  match event with
  | .call call => some { store, spawn := [.call call] }
  | .deliver n => (store.jobs[n]?).map fun payload => { store, spawn := [.job payload] }

abbrev WebhookWorld : Type :=
  World WebhookIface WebhookTask Store (Prog WebhookIface (Option JobResult))

def webhooks (rt : Runtime) : System WebhookIface WebhookTask Store (Option JobResult) where
  Choice := Choice
  handle := Store.handle
  program := webhookProgram rt
  Env := WebhookEvent
  env := webhookOutside

end Webhooks
