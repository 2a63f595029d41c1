import BirthHub.Billing.Model

/-!
# Processing Stripe events

`processStripeBillingEvent` of `apps/api/src/modules/billing/service.ts` with the handlers of
the five types of events, and the rows that `createOrganization` of
`apps/api/src/modules/organizations/service.ts` gives a new organization for its billing. Each
runs in one transaction: what throws leaves the database as it was.

A field of an event that may be absent or `null` is an `Option`; of `customer` and of what else
Stripe may expand to an object it holds the id. Metadata is a list of keys and values.
-/

namespace Billing

open Data

/-! ## Events -/

abbrev Metadata : Type := List (String × String)

/-- A metadata value that is not the empty string. -/
def Metadata.given (metadata : Metadata) (key : String) : Option String :=
  (metadata.lookup key).filter (· ≠ "")

structure CheckoutSession where
  customer : Option String := none
  metadata : Metadata := []
  subscription : Option String := none
  expires_at : Option Int := none

structure InvoiceLine where
  periodStart : Option Int := none
  periodEnd : Option Int := none

structure StripeInvoice where
  id : String
  customer : Option String := none
  /-- `parent.subscription_details.subscription`, or its id. -/
  subscription : Option String := none
  lines : List InvoiceLine := []
  status : Option String := none
  currency : String := "usd"
  amount_due : Int := 0
  amount_paid : Int := 0
  due_date : Option Int := none
  hosted_invoice_url : Option String := none
  invoice_pdf : Option String := none

structure StripePrice where
  id : Option String := none
  currency : Option String := none
  unit_amount : Option Int := none

structure StripeItem where
  price : Option StripePrice := none
  /-- `plan.amount`. -/
  planAmount : Option Int := none
  current_period_end : Option Int := none

structure StripeSubscription where
  id : String
  customer : Option String := none
  items : List StripeItem := []
  metadata : Metadata := []
  status : String := "active"
  canceled_at : Option Int := none
  trial_end : Option Int := none
  cancel_at : Option Int := none
  billing_cycle_anchor : Option Int := none
  latest_invoice : Option String := none

inductive StripeEventData
  | checkoutSessionCompleted (session : CheckoutSession)
  | invoicePaymentSucceeded (invoice : StripeInvoice)
  | invoicePaymentFailed (invoice : StripeInvoice)
  | customerSubscriptionDeleted (subscription : StripeSubscription)
  /-- With `previous_attributes.items.data`. -/
  | customerSubscriptionUpdated (subscription : StripeSubscription)
      (previousItems : List StripeItem)
  | other

structure StripeEvent where
  id : String
  data : StripeEventData

structure StripeBillingEventContext where
  organizationId : Option String := none
  tenantId : Option String := none
deriving DecidableEq

/-! ## Fields -/

/-- `unixToDate`. -/
def unixToDate (value : Option Int) : Option Date :=
  (value.filter (· ≠ 0)).map fun seconds => .ofTime (seconds * 1000)

def mapStripeSubscriptionStatus (status : String) : SubscriptionStatus :=
  if status = "active" then .active
  else if status = "canceled" then .canceled
  else if status ∈ ["past_due", "incomplete", "incomplete_expired", "unpaid"] then .past_due
  else if status = "paused" then .paused
  else .trial

def resolveInvoiceStatus (candidate : Option String) (fallback : InvoiceStatus) : InvoiceStatus :=
  match candidate with
  | some "draft" => .draft
  | some "open" => .open
  | some "paid" => .paid
  | some "void" => .void
  | some "uncollectible" => .uncollectible
  | _ => fallback

/-- `resolveInvoicePeriods(invoice).periodStart`. -/
def StripeInvoice.periodStart (invoice : StripeInvoice) : Option Date :=
  unixToDate (invoice.lines.head?.bind (·.periodStart))

/-- `resolveInvoicePeriods(invoice).periodEnd`. -/
def StripeInvoice.periodEnd (invoice : StripeInvoice) : Option Date :=
  unixToDate (invoice.lines.head?.bind (·.periodEnd))

def resolveSubscriptionPeriodEnd (subscription : StripeSubscription) : Option Date :=
  match (subscription.items.filterMap (·.current_period_end)).max? with
  | some last => unixToDate (some last)
  | none => unixToDate
      (subscription.trial_end <|> subscription.cancel_at <|> subscription.billing_cycle_anchor)

def resolveSubscriptionItemUnitAmount (item : Option StripeItem) : Option Int :=
  item.bind fun item => item.price.bind (·.unit_amount) <|> item.planAmount

/-- `Number(subscription.metadata?.proration_credit_cents ?? "")`, if it is finite and positive. -/
def metadataCredit (metadata : Metadata) : Option ℚ :=
  (Json.string ((metadata.lookup "proration_credit_cents").getD "")).toNumber.value.filter (0 < ·)

/-- The amount by which the price of the first item dropped. -/
def priceDrop (subscription : StripeSubscription) (previousItems : List StripeItem) : Option Int :=
  match resolveSubscriptionItemUnitAmount previousItems.head?,
      resolveSubscriptionItemUnitAmount subscription.items.head? with
  | some previousAmount, some currentAmount =>
      if currentAmount < previousAmount then some (previousAmount - currentAmount) else none
  | _, _ => none

def resolveProrationCreditCents (subscription : StripeSubscription)
    (previousItems : List StripeItem) : ℚ :=
  match metadataCredit subscription.metadata with
  | some credit => credit
  | none =>
      match priceDrop subscription previousItems with
      | some drop => drop
      | none => 0

/-! ## Statements of a transaction -/

/-- What the outside decides about a transaction: the time and the ids of new rows. -/
structure TxChoice where
  now : Int := 0
  planId : String := ""
  organizationId : String := ""
  tenantId : String := ""
  subscriptionId : String := ""
  /-- The id of the customer that Stripe creates. -/
  stripeCustomerId : String := ""

abbrev Tx : Type → Type := StateT Database (Except Thrown)

/-- A `ProblemDetailsError`. -/
def problem (detail : String) : Thrown := error detail

def notFound : Thrown :=
  { message := some "No record was found for an update.", code := some "P2025" }

/-- An invalid date cannot be stored. -/
def column : Option Date → Tx (Option Int)
  | none => pure none
  | some date =>
      match date.time with
      | some t => pure (some t)
      | none => throw (error "Provided Date object is invalid. Expected Date.")

/-- A statement that a unique constraint may refuse. -/
def orViolation {α : Type} : Option α → Tx α
  | some a => pure a
  | none => throw uniqueViolation

def ensurePlanByCode (choice : TxChoice) (code : String) : Tx Plan := do
  let db ← get
  let normalized := normalizePlanCode code
  match db.plans.get (.code normalized) with
  | some plan => pure plan
  | none =>
      let plan := newPlan choice.planId normalized
      let plans ← orViolation (db.plans.insert plan)
      set { db with plans }
      pure plan

/-- `organization.update`. -/
def updateOrganization (id : String) (f : Organization → Organization) : Tx Unit := do
  let db ← get
  let organizations ← orViolation (db.organizations.change (·.id = id) f)
  set { db with organizations }

/-- `subscription.update` or `updateMany` of the rows that satisfy `p`. -/
def updateSubscriptions (now : Int) (p : Subscription → Bool) (f : Subscription → Subscription) :
    Tx Unit := do
  let db ← get
  let subscriptions ← orViolation
    (db.subscriptions.change p fun row => { f row with updatedAt := now })
  set { db with subscriptions }

/-- `subscription.create`. -/
def createSubscription (subscription : Subscription) : Tx Subscription := do
  let db ← get
  let subscriptions ← orViolation (db.subscriptions.insert subscription)
  set { db with subscriptions }
  pure subscription

/-- `ensureSubscriptionForOrganization`; every caller gives a period end and a Stripe
subscription, be they `null`. -/
def ensureSubscriptionForOrganization (choice : TxChoice) (currentPeriodEnd : Option Date)
    (organizationId planId stripeCustomerId : String) (stripeSubscriptionId : Option String) :
    Tx Subscription := do
  let db ← get
  match db.organizations.get (.id organizationId) with
  | none => throw (problem "Organization not found while syncing subscription.")
  | some organization =>
      let currentPeriodEnd ← column currentPeriodEnd
      match db.subscription organization.id with
      | some existing =>
          let f (row : Subscription) : Subscription := { row with
            planId
            status := .active
            stripeCustomerId := some stripeCustomerId
            currentPeriodEnd
            stripeSubscriptionId }
          updateSubscriptions choice.now (·.organizationId = organization.id) f
          pure { f existing with updatedAt := choice.now }
      | none =>
          createSubscription {
            id := choice.subscriptionId
            organizationId := organization.id
            tenantId := organization.tenantId
            planId
            status := .active
            stripeCustomerId := some stripeCustomerId
            currentPeriodEnd
            stripeSubscriptionId
            updatedAt := choice.now }

/-- `invoice.upsert` with `buildInvoiceCreateData` and `buildInvoiceUpdateData`. -/
def upsertInvoice (invoice : StripeInvoice) (fallbackStatus : InvoiceStatus)
    (organization : Organization) (subscriptionId : String) : Tx Unit := do
  let db ← get
  let dueDate ← column (unixToDate invoice.due_date)
  let periodStart ← column invoice.periodStart
  let periodEnd ← column invoice.periodEnd
  let status := resolveInvoiceStatus invoice.status fallbackStatus
  let row : Invoice := {
    stripeInvoiceId := invoice.id
    organizationId := organization.id
    tenantId := organization.tenantId
    subscriptionId := some subscriptionId
    status
    currency := invoice.currency
    amountDueCents := invoice.amount_due
    amountPaidCents := invoice.amount_paid
    hostedInvoiceUrl := invoice.hosted_invoice_url
    invoicePdfUrl := invoice.invoice_pdf
    dueDate
    periodStart
    periodEnd }
  match db.invoices.get (.stripeInvoiceId invoice.id) with
  | none =>
      let invoices ← orViolation (db.invoices.insert row)
      set { db with invoices }
  | some _ =>
      -- an update leaves the organization, the subscription and the currency
      let invoices := db.invoices.update (·.stripeInvoiceId = invoice.id) (fun existing =>
        { row with
          stripeInvoiceId := existing.stripeInvoiceId
          organizationId := existing.organizationId
          tenantId := existing.tenantId
          subscriptionId := existing.subscriptionId
          currency := existing.currency }) fun _ => rfl
      set { db with invoices }

/-- The largest value of an `Int` column. -/
def maxInt : Int := 2147483647

/-- `createDowngradeProrationCredit`. A duplicate is caught, but PostgreSQL refuses every later
statement of the transaction, of which there is one. -/
def createDowngradeProrationCredit (amountCents : ℚ) (credit : Int → BillingCredit) : Tx Unit := do
  if amountCents ≤ 0 then pure ()
  else if amountCents.den ≠ 1 ∨ maxInt < amountCents.num then
    throw (error "Unable to fit the value into an Int column.")
  else
    let db ← get
    match db.credits.insert (credit amountCents.num) with
    | some credits => set { db with credits }
    | none => throw { message := some "current transaction is aborted", code := some "25P02" }

/-! ## Handlers -/

/-- `resolveOrganizationByStripeCustomer`. -/
def resolveOrganizationByStripeCustomer (customerId : String) : Tx (Option Organization) := do
  let db ← get
  pure (db.organizations.get (.stripeCustomerId customerId))

/-- The organization of the customer of an event. -/
def organizationOfCustomer (customer : Option String) (what event : String) :
    Tx (String × Organization) := do
  match customer.filter (· ≠ "") with
  | none => throw (problem s!"Stripe {what} is missing customer id.")
  | some customerId =>
      match ← resolveOrganizationByStripeCustomer customerId with
      | none => throw (problem s!"Organization not found for {event} event.")
      | some organization => pure (customerId, organization)

def contextOf (organization : Organization) : StripeBillingEventContext where
  organizationId := some organization.id
  tenantId := some organization.tenantId

/-- `organization.planId ?? (await ensurePlanByCode("starter", db)).id`. -/
def planOrStarter (choice : TxChoice) (planId : Option String) : Tx String := do
  match planId with
  | some planId => pure planId
  | none =>
      let starter ← ensurePlanByCode choice "starter"
      pure starter.id

/-- The organization that the metadata of a session names, or else that of its customer. -/
def organizationOfSession (session : CheckoutSession) : Tx Organization := do
  let db ← get
  let named := (session.metadata.given "organizationId").bind fun id => db.organizations.get (.id id)
  let paying := (session.customer.filter (· ≠ "")).bind fun customerId =>
    db.organizations.get (.stripeCustomerId customerId)
  match named <|> paying with
  | none => throw (problem "Organization not found for checkout.session.completed event.")
  | some organization => pure organization

def handleCheckoutSessionCompleted (choice : TxChoice) (session : CheckoutSession) :
    Tx StripeBillingEventContext := do
  let organization ← organizationOfSession session
  let fallbackPlan ← ensurePlanByCode choice "starter"
  let db ← get
  let requested := (session.metadata.given "planId").bind db.plan
  let planId := ((requested.map (·.id)) <|> organization.planId).getD fallbackPlan.id
  let stripeCustomerId := session.customer <|> organization.stripeCustomerId
  updateOrganization organization.id fun row =>
    { row with planId := some planId, stripeCustomerId }
  let _ ← ensureSubscriptionForOrganization choice (unixToDate session.expires_at) organization.id
    planId (stripeCustomerId.getD "") session.subscription
  pure (contextOf organization)

def handleInvoicePaymentSucceeded (choice : TxChoice) (invoice : StripeInvoice) :
    Tx StripeBillingEventContext := do
  let (customerId, organization) ←
    organizationOfCustomer invoice.customer "invoice" "invoice.payment_succeeded"
  let planId ← planOrStarter choice organization.planId
  let existing ← ensureSubscriptionForOrganization choice invoice.periodEnd organization.id planId
    customerId invoice.subscription
  let currentPeriodEnd ← column invoice.periodEnd
  updateSubscriptions choice.now (·.id = existing.id) fun row =>
    { row with currentPeriodEnd, gracePeriodEndsAt := none, status := .active }
  upsertInvoice invoice .paid organization existing.id
  pure (contextOf organization)

def handleInvoicePaymentFailed (choice : TxChoice) (gracePeriodDays : Int)
    (invoice : StripeInvoice) : Tx StripeBillingEventContext := do
  let (customerId, organization) ←
    organizationOfCustomer invoice.customer "invoice" "invoice.payment_failed"
  let planId ← planOrStarter choice organization.planId
  let subscription ← ensureSubscriptionForOrganization choice invoice.periodEnd organization.id
    planId customerId invoice.subscription
  let gracePeriodEndsAt ← column (some (.ofTime (choice.now + dayMillis gracePeriodDays)))
  updateSubscriptions choice.now (·.id = subscription.id) fun row =>
    { row with gracePeriodEndsAt, status := .past_due }
  upsertInvoice invoice .past_due organization subscription.id
  pure (contextOf organization)

def handleCustomerSubscriptionDeleted (choice : TxChoice) (subscription : StripeSubscription) :
    Tx StripeBillingEventContext := do
  let (_, organization) ← organizationOfCustomer subscription.customer "subscription"
    "customer.subscription.deleted"
  let starter ← ensurePlanByCode choice "starter"
  updateOrganization organization.id fun row => { row with planId := some starter.id }
  updateSubscriptions choice.now (·.organizationId = organization.id) fun row =>
    { row with
      canceledAt := some choice.now
      planId := starter.id
      status := .canceled
      stripeSubscriptionId := some subscription.id }
  pure (contextOf organization)

def handleCustomerSubscriptionUpdated (choice : TxChoice) (eventId : String)
    (subscription : StripeSubscription) (previousItems : List StripeItem) :
    Tx StripeBillingEventContext := do
  let (customerId, organization) ← organizationOfCustomer subscription.customer "subscription"
    "customer.subscription.updated"
  let price := subscription.items.head?.bind (·.price)
  let db ← get
  let mappedPlan := ((price.bind (·.id)).filter (· ≠ "")).bind fun stripePriceId =>
    db.plans.get (.stripePriceId stripePriceId)
  let planId ← planOrStarter choice (mappedPlan.map (·.id) <|> organization.planId)
  updateOrganization organization.id fun row => { row with planId := some planId }
  let localSubscription ← ensureSubscriptionForOrganization choice
    (resolveSubscriptionPeriodEnd subscription) organization.id planId customerId
    (some subscription.id)
  let canceledAt ← column (unixToDate subscription.canceled_at)
  let currentPeriodEnd ← column (resolveSubscriptionPeriodEnd subscription)
  updateSubscriptions choice.now (·.organizationId = organization.id) fun row =>
    { row with
      canceledAt
      currentPeriodEnd
      status := mapStripeSubscriptionStatus subscription.status }
  createDowngradeProrationCredit (resolveProrationCreditCents subscription previousItems)
    fun amountCents => {
      stripeEventId := eventId
      organizationId := organization.id
      tenantId := organization.tenantId
      subscriptionId := some localSubscription.id
      stripeInvoiceId := subscription.latest_invoice.filter (· ≠ "")
      amountCents
      currency := ((price.bind (·.currency)) <|> mappedPlan.map (·.currency)).getD "usd" }
  pure (contextOf organization)

def processStripeBillingEvent (choice : TxChoice) (gracePeriodDays : Int) (event : StripeEvent) :
    Tx StripeBillingEventContext :=
  match event.data with
  | .checkoutSessionCompleted session => handleCheckoutSessionCompleted choice session
  | .invoicePaymentSucceeded invoice => handleInvoicePaymentSucceeded choice invoice
  | .invoicePaymentFailed invoice => handleInvoicePaymentFailed choice gracePeriodDays invoice
  | .customerSubscriptionDeleted subscription =>
      handleCustomerSubscriptionDeleted choice subscription
  | .customerSubscriptionUpdated subscription previousItems =>
      handleCustomerSubscriptionUpdated choice event.id subscription previousItems
  | .other => pure {}

/-- `provisionStripeCustomerForOrganization`. -/
def provisionStripeCustomerForOrganization (choice : TxChoice) (organizationReference : String) :
    Tx String := do
  let db ← get
  match db.findOrganizationByReference organizationReference with
  | none => throw (problem "Organization not found when provisioning Stripe customer.")
  | some organization =>
      match organization.stripeCustomerId.filter (· ≠ "") with
      | some customerId => pure customerId
      | none =>
          updateOrganization organization.id fun row =>
            { row with stripeCustomerId := some choice.stripeCustomerId }
          updateSubscriptions choice.now (·.organizationId = organization.id) fun row =>
            { row with stripeCustomerId := some choice.stripeCustomerId }
          pure choice.stripeCustomerId

/-- The plan, organization and subscription of `createOrganization`. -/
def createOrganization (choice : TxChoice) : Tx Organization := do
  let starterPlan ← ensurePlanByCode choice "starter"
  let db ← get
  let organization : Organization := {
    id := choice.organizationId
    tenantId := choice.tenantId
    planId := some starterPlan.id }
  let organizations ← orViolation (db.organizations.insert organization)
  set { db with organizations }
  let stripeCustomerId ← provisionStripeCustomerForOrganization choice organization.id
  let _ ← createSubscription {
    id := choice.subscriptionId
    organizationId := organization.id
    tenantId := organization.tenantId
    planId := starterPlan.id
    status := .trial
    stripeCustomerId := some stripeCustomerId
    currentPeriodEnd := some (choice.now + dayMillis 14)
    updatedAt := choice.now }
  pure organization

end Billing
