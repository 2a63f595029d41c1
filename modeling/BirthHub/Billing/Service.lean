import BirthHub.Billing.Stripe
import BirthHub.Effect.System

/-!
# Snapshots, locks and webhooks

`getBillingSnapshot` and `cancelBillingForOrganization` of
`apps/api/src/modules/billing/service.ts`, `resolveBillingLock` of `apps/worker/src/worker.ts`
and the webhook of `apps/api/src/modules/webhooks/stripe.router.ts` from the point on at which
the signature is verified, over the database, the Redis that API and worker share, and Stripe.

The cache is that of production: an operation that fails throws. A transaction is one
operation, as is the `findFirst` that includes the plan and the subscription.
-/

namespace Billing

open Data Effect

/-! ## Operations -/

/-- An organization with the rows that `findFirst` includes. -/
structure OrganizationRecord where
  organization : Organization
  plan : Option Plan
  subscription : Option Subscription
  subscriptionPlan : Option Plan

def Database.record (db : Database) (reference : String) : Option OrganizationRecord :=
  (db.findOrganizationByReference reference).map fun organization =>
    { organization
      plan := organization.planId.bind db.plan
      subscription := db.subscription organization.id
      subscriptionPlan := (db.subscription organization.id).bind fun row => db.plan row.planId }

inductive BillingEventStatus
  | received
  | processing
  | processed
  | failed
deriving DecidableEq, Repr

inductive BillingOp
  | now
  | readCache (key : String)
  | writeCache (key value : String)
  | deleteCache (keys : List String)
  | findOrganization (reference : String)
  | creditBalance (organizationId : String)
  | findPlan (code : String)
  | createPlan (code : String)
  /-- `stripe.subscriptions.cancel`. -/
  | cancelAtStripe (stripeSubscriptionId : String)
  | setCanceled (subscriptionId : String)
  /-- Redlock's `acquire`, which answers with a token for `release`. -/
  | acquireLock (resource : String)
  | releaseLock (token : Nat)
  | findBillingEvent (stripeEventId : String)
  | createBillingEvent (stripeEventId : String)
  | setBillingEvent (stripeEventId : String) (status : BillingEventStatus)
  /-- The transaction that processes the event and marks it as processed. -/
  | processEvent (event : StripeEvent)
  | enqueueCrmSync (organizationId : String)

def BillingOp.Result : BillingOp → Type
  | .now => Int
  | .readCache _ => Option String
  | .writeCache .. => Unit
  | .deleteCache _ => Unit
  | .findOrganization _ => Option OrganizationRecord
  | .creditBalance _ => Int
  | .findPlan _ => Option Plan
  | .createPlan _ => Plan
  | .cancelAtStripe _ => Unit
  | .setCanceled _ => Unit
  | .acquireLock _ => Nat
  | .releaseLock _ => Unit
  | .findBillingEvent _ => Option BillingEventStatus
  | .createBillingEvent _ => BillingEventStatus
  | .setBillingEvent .. => Unit
  | .processEvent _ => StripeBillingEventContext
  | .enqueueCrmSync _ => Unit

abbrev BillingIface : Iface where
  Op := BillingOp
  Res := BillingOp.Result
  Err := Thrown

def awaitBilling (o : BillingOp) : Prog BillingIface o.Result :=
  Prog.perform (I := BillingIface) o

/-- `Promise.all`: everything is done, and the first failure is thrown. -/
def awaitAll {I : Iface} : List (Prog I Unit) → Prog I Unit
  | [] => .pure ()
  | p :: ps =>
      (p.bind fun _ => .pure none).tryCatch (fun e => .pure (some e)) |>.bind fun
        | none => awaitAll ps
        | some e => ((awaitAll ps).tryCatch fun _ => .pure ()).bind fun _ => .throw e

theorem awaitAll_within {A : BillingOp → Prop} {ps : List (Prog BillingIface Unit)}
    (each : ∀ p ∈ ps, p.Within A) : (awaitAll ps).Within A := by
  induction ps with
  | nil => trivial
  | cons p ps ih =>
      have rest := ih fun q there => each q (List.mem_cons_of_mem _ there)
      refine .bind (.tryCatch (.bind (each p List.mem_cons_self) fun _ => trivial) fun _ => trivial)
        fun outcome => ?_
      cases outcome with
      | none => exact rest
      | some e => exact .bind (.tryCatch rest fun _ => trivial) fun _ => trivial

/-! ## The snapshot -/

def billingSnapshotCacheKey (reference : String) : String :=
  "billing:snapshot:" ++ (trim reference).toLower

/-- A text that is not empty. -/
def truthy (text : Option String) : Option String := text.filter (· ≠ "")

/-- The references under which a snapshot is cached. -/
def snapshotReferences {α : Type} (snapshot : BillingSnapshot α) (extraReference : String) :
    List String :=
  ([snapshot.organizationId, snapshot.tenantId] ++
    (if extraReference = "" then [] else [extraReference])).eraseDups

def cacheBillingSnapshot (snapshot : BillingSnapshot Json) (extraReference : String) :
    Prog BillingIface Unit :=
  match serializeBillingSnapshot snapshot with
  | none => .throw (error "Invalid time value")
  | some text => awaitAll ((snapshotReferences snapshot extraReference).map fun reference =>
      awaitBilling (.writeCache (billingSnapshotCacheKey reference) text))

def ensureStarterPlan : Prog BillingIface Plan := do
  let plan ← awaitBilling (.findPlan "starter")
  match plan with
  | some plan => pure plan
  | none => awaitBilling (.createPlan "starter")

/-- `subscription?.plan ?? organization.plan ?? (await ensurePlanByCode("starter"))`. -/
def planOfRecord (found : OrganizationRecord) : Prog BillingIface Plan :=
  match found.subscriptionPlan <|> found.plan with
  | some plan => pure plan
  | none => ensureStarterPlan

/-- The part of `getBillingSnapshot` that does not look into the cache first. -/
def computeBillingSnapshot (organizationReference : String) (gracePeriodDays : Int) :
    Prog BillingIface (BillingSnapshot Value) := do
  let found ← awaitBilling (.findOrganization organizationReference)
  match found with
  | none => .throw (problem "Organization not found for billing context.")
  | some found => do
      let plan : Plan ← planOfRecord found
      let creditBalanceCents : Int ← awaitBilling (.creditBalance found.organization.id)
      let now : Int ← awaitBilling .now
      let snapshot := billingSnapshot found.organization found.subscription plan creditBalanceCents
        gracePeriodDays now
      cacheBillingSnapshot snapshot organizationReference
      pure snapshot.meaning

def getBillingSnapshot (organizationReference : String) (gracePeriodDays : Int) :
    Prog BillingIface (BillingSnapshot Value) := do
  let cached ← awaitBilling (.readCache (billingSnapshotCacheKey organizationReference))
  match (truthy cached).bind parseBillingSnapshot with
  | some parsed => pure parsed
  | none => computeBillingSnapshot organizationReference gracePeriodDays

/-- `invalidateBillingSnapshotCache`. -/
def invalidateBillingSnapshotCache (references : List (Option String)) : Prog BillingIface Unit :=
  let keys := (((references.filterMap id).filter (trim · ≠ "")).map
    billingSnapshotCacheKey).eraseDups
  if keys = [] then pure () else awaitBilling (.deleteCache keys)

/-! ## The lock of the worker -/

/-- `billingCacheKey` of the worker and `billingStatusCacheKey` of the webhook. -/
def billingStatusCacheKey (reference : String) : String := "billing-status:" ++ reference

structure BillingLock where
  locked : Bool
  status : Option SubscriptionStatus
deriving DecidableEq

def calculateGraceBoundary (updatedAt gracePeriodDays : Int) : Date :=
  .ofTime (updatedAt + dayMillis gracePeriodDays)

/-- What `resolveBillingLock` computes of the subscription it has read. -/
def billingLock (subscription : Option Subscription) (gracePeriodDays now : Int) : BillingLock :=
  let status := subscription.map (·.status)
  let graceBoundary := (subscription.filter fun _ => status = some .past_due).map fun row =>
    match row.gracePeriodEndsAt with
    | some deadline => Date.ofTime deadline
    | none => calculateGraceBoundary row.updatedAt gracePeriodDays
  { locked := status = some .past_due && graceBoundary.any (·.atMost now), status }

/-- `JSON.stringify(payload)`. -/
def BillingLock.stringify (lock : BillingLock) : String :=
  (Json.object [("locked", .bool lock.locked),
    ("status", orNull (fun status => .string status.text) lock.status)]).stringify

/-- `JSON.parse(cached)`, of a text with the members of a lock. -/
def BillingLock.parse (text : String) : Option BillingLock := do
  let .object members ← Json.parse text | none
  return {
    locked := ← (members.lookup "locked").bind readBool
    status := ← (members.lookup "status").bind (readNullable readStatus) }

def resolveBillingLock (tenantReference : String) (gracePeriodDays : Int) :
    Prog BillingIface BillingLock := do
  let cached ← awaitBilling (.readCache (billingStatusCacheKey tenantReference))
  match truthy cached with
  | some text => Prog.ofExcept ((BillingLock.parse text).elim (.error (error "SyntaxError")) .ok)
  | none => do
      let found ← awaitBilling (.findOrganization tenantReference)
      let now : Int ← awaitBilling .now
      let payload := billingLock (found.bind fun found : OrganizationRecord => found.subscription)
        gracePeriodDays now
      let _ ← awaitBilling (.writeCache (billingStatusCacheKey tenantReference) payload.stringify)
      pure payload

/-! ## Cancellation -/

def cancelBillingForOrganization (organizationReference : String) :
    Prog BillingIface (Option String) := do
  let found ← awaitBilling (.findOrganization organizationReference)
  match found with
  | none => .throw (problem "Organization not found for billing cancellation.")
  | some found =>
      match found.subscription with
      | none => pure none
      | some subscription =>
          match truthy subscription.stripeSubscriptionId with
          | none => pure none
          | some stripeSubscriptionId => do
              let _ ← awaitBilling (.cancelAtStripe stripeSubscriptionId)
              let _ ← awaitBilling (.setCanceled subscription.id)
              pure (some stripeSubscriptionId)

/-! ## The webhook -/

def stripeWebhookIdempotencyKey (eventId : String) : String :=
  "idempotency:stripe_webhook:" ++ eventId

/-- `object.customer`, where it is a string. -/
def StripeEventData.customer : StripeEventData → Option String
  | .checkoutSessionCompleted session => session.customer
  | .invoicePaymentSucceeded invoice | .invoicePaymentFailed invoice => invoice.customer
  | .customerSubscriptionDeleted subscription | .customerSubscriptionUpdated subscription _ =>
      subscription.customer
  | .other => none

/-- `object.subscription` and `object.metadata.organizationId` of a session. -/
def StripeEventData.lockCandidate : StripeEventData → Option String
  | .checkoutSessionCompleted session =>
      session.subscription <|> session.metadata.lookup "organizationId"
  | _ => none

def resolveLockResource (event : StripeEvent) : String :=
  "locks:stripe:" ++ (event.data.customer <|> event.data.lockCandidate).getD event.id

def createReceivedBillingEvent (eventId : String) : Prog BillingIface BillingEventStatus :=
  (awaitBilling (.createBillingEvent eventId)).tryCatch fun e =>
    if e.code = some "P2002" then do
      let existing ← awaitBilling (.findBillingEvent eventId)
      match existing with
      | some existing => pure existing
      | none => .throw e
    else .throw e

/-- Whether the idempotency key and the row say that the event was processed; a key without such
a row is deleted. -/
def isCachedAsProcessed (eventId : String) : Prog BillingIface Bool := do
  let key := stripeWebhookIdempotencyKey eventId
  let cached ← awaitBilling (.readCache key)
  match truthy cached with
  | none => pure false
  | some _ => do
      let processedRecord : Option BillingEventStatus ← awaitBilling (.findBillingEvent eventId)
      if processedRecord = some .processed then pure true
      else do
        let _ ← awaitBilling (.deleteCache [key])
        pure false

/-- The events after which the customer data of an organization is sent on. -/
def StripeEventData.syncsCrm : StripeEventData → Bool
  | .checkoutSessionCompleted _ | .customerSubscriptionUpdated .. => true
  | _ => false

/-- What follows the commit. -/
def afterCommit (event : StripeEvent) (context : StripeBillingEventContext) :
    Prog BillingIface Unit := do
  awaitAll (invalidateBillingSnapshotCache [context.organizationId, context.tenantId] ::
    (context.tenantId.map fun tenantId =>
      awaitBilling (.deleteCache [billingStatusCacheKey tenantId])).toList)
  match context.organizationId, context.tenantId, event.data.syncsCrm with
  | some organizationId, some _, true => awaitBilling (.enqueueCrmSync organizationId)
  | _, _, _ => pure ()

def ignoreErrors (p : Prog BillingIface Unit) : Prog BillingIface Unit :=
  p.tryCatch fun _ => .pure ()

/-- What the webhook does under its lock; it answers whether the event was a duplicate. -/
def handleStripeEvent (event : StripeEvent) : Prog BillingIface Bool := do
  let duplicate ← isCachedAsProcessed event.id
  if duplicate then pure true
  else do
    let found ← awaitBilling (.findBillingEvent event.id)
    let status : BillingEventStatus ← match found with
      | some status => pure status
      | none => createReceivedBillingEvent event.id
    let remember := ignoreErrors
      (awaitBilling (.writeCache (stripeWebhookIdempotencyKey event.id) "processed"))
    if status = .processed then do
      remember
      pure true
    else do
      let _ ← awaitBilling (.setBillingEvent event.id .processing)
      let context : StripeBillingEventContext ←
        (awaitBilling (.processEvent event)).tryCatch fun e => do
          let _ ← awaitBilling (.setBillingEvent event.id .failed)
          .throw e
      remember
      ignoreErrors (afterCommit event context)
      pure false

def stripeWebhook (event : StripeEvent) : Prog BillingIface Bool := do
  let token : Nat ← awaitBilling (.acquireLock (resolveLockResource event))
  (handleStripeEvent event).finallyDo (ignoreErrors (awaitBilling (.releaseLock token)))

/-! ## The store -/

structure BillingStore where
  db : Database
  cache : List (String × String) := []
  billingEvents : List (String × BillingEventStatus) := []
  /-- The locks that are held, with their tokens. -/
  locks : List (String × Nat) := []
  nextToken : Nat := 0

/-- What the outside decides about one operation. -/
structure BillingChoice extends TxChoice where
  fault : Option Thrown := none

namespace BillingStore

variable (store : BillingStore)

def writeCache (key value : String) : BillingStore :=
  { store with cache := (key, value) :: store.cache.filter (·.1 ≠ key) }

def deleteCache (keys : List String) : BillingStore :=
  { store with cache := store.cache.filter fun entry => entry.1 ∉ keys }

def setBillingEvent (eventId : String) (status : BillingEventStatus) : BillingStore :=
  { store with billingEvents := store.billingEvents.map fun row =>
      if row.1 = eventId then (eventId, status) else row }

/-- A statement or a transaction of its own. -/
def transact {α : Type} (transaction : Tx α) (store : BillingStore) :
    Except Thrown α × BillingStore :=
  match transaction store.db with
  | .ok (a, db) => (.ok a, { store with db })
  | .error e => (.error e, store)

/-- `plan.create` with the defaults for the code. -/
def createPlan (choice : TxChoice) (code : String) : Tx Plan := do
  let db ← get
  let plan := newPlan choice.planId (normalizePlanCode code)
  let plans ← orViolation (db.plans.insert plan)
  set { db with plans }
  pure plan

/-- The result of an operation that does not fail by `fault`; a lock that is held is waited for. -/
def perform (gracePeriodDays : Int) (choice : BillingChoice) (store : BillingStore) :
    (o : BillingOp) → Option (BillingIface.Answer o × BillingStore)
  | .now => some (.ok choice.now, store)
  | .readCache key => some (.ok (store.cache.lookup key), store)
  | .writeCache key value => some (.ok (), store.writeCache key value)
  | .deleteCache keys => some (.ok (), store.deleteCache keys)
  | .findOrganization reference => some (.ok (store.db.record reference), store)
  | .creditBalance organizationId => some (.ok (store.db.creditBalanceCents organizationId), store)
  | .findPlan code => some (.ok (store.db.plans.get (.code (normalizePlanCode code))), store)
  | .createPlan code => some (store.transact (createPlan choice.toTxChoice code))
  | .cancelAtStripe _ => some (.ok (), store)
  | .setCanceled subscriptionId =>
      some (store.transact (updateSubscriptions choice.now (·.id = subscriptionId) fun row =>
        { row with canceledAt := some choice.now, status := .canceled }))
  | .acquireLock resource =>
      if store.locks.any (·.1 = resource) then none
      else some (.ok store.nextToken, { store with
        locks := (resource, store.nextToken) :: store.locks
        nextToken := store.nextToken + 1 })
  | .releaseLock token =>
      if store.locks.any (·.2 = token) then
        some (.ok (), { store with locks := store.locks.filter (·.2 ≠ token) })
      else some (.error (error "The lock has expired."), store)
  | .findBillingEvent eventId => some (.ok (store.billingEvents.lookup eventId), store)
  | .createBillingEvent eventId =>
      if (store.billingEvents.lookup eventId).isSome then some (.error uniqueViolation, store)
      else some (.ok .received,
        { store with billingEvents := store.billingEvents ++ [(eventId, .received)] })
  | .setBillingEvent eventId status =>
      if (store.billingEvents.lookup eventId).isSome then
        some (.ok (), store.setBillingEvent eventId status)
      else some (.error notFound, store)
  | .processEvent event =>
      if (store.billingEvents.lookup event.id).isSome then
        match store.transact (processStripeBillingEvent choice.toTxChoice gracePeriodDays event) with
        | (.ok context, store') => some (.ok context, store'.setBillingEvent event.id .processed)
        | (.error e, store') => some (.error e, store')
      else some (.error notFound, store)
  | .enqueueCrmSync _ => some (.ok (), store)

def handle (gracePeriodDays : Int) (o : BillingOp) (choice : BillingChoice) (store : BillingStore) :
    Option (BillingIface.Answer o × BillingStore) :=
  match choice.fault with
  | some e => some (.error e, store)
  | none => store.perform gracePeriodDays choice o

end BillingStore

end Billing
