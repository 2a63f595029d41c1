import BirthHub.Billing.Credits
import BirthHub.Billing.Plans

/-!
# Failed payments and the health score

`calculateHealthScore` and `buildActivityWindow` of `apps/worker/src/jobs/healthScore.ts`, over the
invoices that the Stripe handler stores. An invoice counts as a billing error by its status, and
the handler stores `past_due` for a failed payment only where Stripe gives the invoice none of the
statuses that have a column value of their own.
-/

namespace Billing

open Data

/-! ## The score -/

structure HealthScoreInputs where
  activeUsers : Nat
  agentRuns : Nat
  billingErrors : Nat
  loginCount : Nat
  runFailures : Nat
  workflowRuns : Nat

def clampHealthScore (value : Int) : Int := max 0 (min 100 value)

/-- What the billing errors take from the score. -/
def billingPenalty (billingErrors : Nat) : Int := if billingErrors > 0 then 20 else 0

/-- The score before it is clamped. -/
def HealthScoreInputs.score (input : HealthScoreInputs) : Int :=
  100 - billingPenalty input.billingErrors
    + (if input.activeUsers = 0 then -25 else if input.activeUsers ≥ 3 then 5 else 0)
    + (if input.agentRuns > 5 then 10 else if input.agentRuns = 0 then -10 else 0)
    + (if input.workflowRuns = 0 then -5 else 0)
    + (if input.loginCount = 0 then -10 else 0)
    + (if input.runFailures ≥ 5 then -15 else if input.runFailures ≥ 1 then -5 else 0)

def calculateHealthScore (input : HealthScoreInputs) : Int := clampHealthScore input.score

theorem calculateHealthScore_bounds (input : HealthScoreInputs) :
    0 ≤ calculateHealthScore input ∧ calculateHealthScore input ≤ 100 := by
  rw [calculateHealthScore, clampHealthScore]
  omega

/-- The score is that of the same activity without billing errors, less the penalty. -/
theorem calculateHealthScore_penalty {input : HealthScoreInputs} (failed : 0 < input.billingErrors) :
    calculateHealthScore input =
      clampHealthScore (({ input with billingErrors := 0 } : HealthScoreInputs).score - 20) := by
  have some : billingPenalty input.billingErrors = 20 := if_pos failed
  have none : billingPenalty 0 = 0 := if_neg (lt_irrefl 0)
  rw [calculateHealthScore, HealthScoreInputs.score, HealthScoreInputs.score, some, none]
  congr 1
  ring

/-! ## The window -/

structure ActivitySession where
  userId : String
  tenantId : String
  createdAt : Int
  lastActivityAt : Int

/-- The statuses of an agent execution and of a workflow execution. -/
inductive ExecutionStatus
  | RUNNING
  | SUCCESS
  | FAILED
  | CANCELLED
  | WAITING
  | WAITING_APPROVAL
deriving DecidableEq

/-- An agent execution or a workflow execution. -/
structure ExecutionRow where
  tenantId : String
  status : ExecutionStatus
  startedAt : Int

/-- The rows of the other tables, and the column `createdAt` of the invoices: it is given when a
row is inserted, and no billing function reads or changes it. -/
structure Activity where
  sessions : List ActivitySession := []
  agentExecutions : List ExecutionRow := []
  workflowExecutions : List ExecutionRow := []
  invoiceCreatedAt : String → Int

/-- What `buildActivityWindow` is called with, but for the days, under which it stores. -/
structure ActivityWindow where
  start : Int
  organizationId : String
  tenantId : String

def ExecutionRow.within (window : ActivityWindow) (row : ExecutionRow) : Bool :=
  window.start ≤ row.startedAt ∧ row.tenantId = window.tenantId

/-- The condition of `invoice.count`. -/
def ActivityWindow.counts (window : ActivityWindow) (activity : Activity) (invoice : Invoice) :
    Bool :=
  window.start ≤ activity.invoiceCreatedAt invoice.stripeInvoiceId ∧
    invoice.organizationId = window.organizationId ∧
    invoice.status ∈ [InvoiceStatus.past_due, .uncollectible]

/-- The columns that `buildActivityWindow` stores, be the row new or not. -/
def buildActivityWindow (activity : Activity) (db : Database) (window : ActivityWindow) :
    HealthScoreInputs :=
  let active := activity.sessions.filter fun session =>
    window.start ≤ session.lastActivityAt ∧ session.tenantId = window.tenantId
  let logins := activity.sessions.filter fun session =>
    window.start ≤ session.createdAt ∧ session.tenantId = window.tenantId
  let agentRuns := activity.agentExecutions.filter (·.within window)
  let workflowRuns := activity.workflowExecutions.filter (·.within window)
  { activeUsers := (active.map (·.userId)).dedup.length
    agentRuns := agentRuns.length
    billingErrors := (db.invoices.rows.filter (window.counts activity)).length
    loginCount := logins.length
    runFailures := (agentRuns.filter (·.status = .FAILED)).length +
      (workflowRuns.filter (·.status = .FAILED)).length
    workflowRuns := workflowRuns.length }

/-- The windows of `refreshTenantActivityWindows`. -/
def refreshTenantActivityWindows (activity : Activity) (db : Database) (now : Int)
    (organization : Organization) : List (Int × HealthScoreInputs) :=
  [7, 14, 30].map fun windowDays => (windowDays, buildActivityWindow activity db {
    start := now - dayMillis windowDays
    organizationId := organization.id
    tenantId := organization.tenantId })

/-- The invoice lies in the window: it is of the organization and not older than the start. -/
def ActivityWindow.Contains (window : ActivityWindow) (activity : Activity) (invoice : Invoice) :
    Prop :=
  window.start ≤ activity.invoiceCreatedAt invoice.stripeInvoiceId ∧
    invoice.organizationId = window.organizationId

/-- Every window that contains the invoice counts it, and has the penalty in its score. -/
def Invoice.CountedAsError (invoice : Invoice) (db : Database) : Prop :=
  ∀ (activity : Activity) (window : ActivityWindow), window.Contains activity invoice →
    invoice ∈ db.invoices.rows.filter (window.counts activity) ∧
      calculateHealthScore (buildActivityWindow activity db window) =
        clampHealthScore (({ buildActivityWindow activity db window with billingErrors := 0 } :
          HealthScoreInputs).score - 20)

/-- A stored invoice is counted just when it has one of the two statuses. -/
theorem Invoice.countedAsError_iff {invoice : Invoice} {db : Database}
    (stored : invoice ∈ db.invoices.rows) :
    invoice.CountedAsError db ↔ invoice.status = .past_due ∨ invoice.status = .uncollectible := by
  constructor
  · intro counted
    have contains : ActivityWindow.Contains ⟨0, invoice.organizationId, invoice.tenantId⟩
        { invoiceCreatedAt := fun _ => 0 } invoice := ⟨le_refl 0, rfl⟩
    have counts := (List.mem_filter.mp (counted _ _ contains).1).2
    simpa [ActivityWindow.counts] using counts
  · intro failed activity window contains
    obtain ⟨recent, own⟩ := contains
    have counted : invoice ∈ db.invoices.rows.filter (window.counts activity) := by
      refine List.mem_filter.mpr ⟨stored, ?_⟩
      simp [ActivityWindow.counts, recent, own, failed]
    exact ⟨counted, calculateHealthScore_penalty (List.length_pos_of_mem counted)⟩

/-! ## What a transaction leaves -/

/-- Where the transaction succeeds it leaves the invoices under this id as they are. -/
def Tx.Spares {α : Type} (id : String) (transaction : Tx α) : Prop :=
  ∀ ⦃db db' : Database⦄ ⦃a : α⦄, transaction db = .ok (a, db') →
    db'.invoices.get (.stripeInvoiceId id) = db.invoices.get (.stripeInvoiceId id)

section

variable {α β : Type} {choice : TxChoice} {id : String}

theorem Tx.Spares.bind {x : Tx α} {f : α → Tx β} (first : x.Spares id)
    (second : ∀ a, (f a).Spares id) : (x >>= f).Spares id := by
  intro db db' b ran
  obtain ⟨a, middle, answered, ran⟩ := Tx.bind_ok.mp ran
  exact (second a ran).trans (first answered)

theorem Tx.Spares.pure {a : α} : Tx.Spares id (pure a : Tx α) := by
  intro db db' b ran
  obtain ⟨_, rfl⟩ := Tx.pure_ok.mp ran
  rfl

theorem Tx.Spares.throw {e : Thrown} : Tx.Spares id (throw e : Tx α) :=
  fun _ _ _ ran => (Tx.throw_ok ran).elim

theorem Tx.Spares.get {f : Database → Tx β} (reads : ∀ db, (f db).Spares id) :
    (MonadState.get >>= f : Tx β).Spares id :=
  fun db _ _ ran => reads db ran

theorem column_spares {date : Option Date} : (column date).Spares id := by
  intro db db' t ran
  rw [(column_ok ran).1]

theorem ensurePlanByCode_spares {code : String} : (ensurePlanByCode choice code).Spares id := by
  intro db db' plan ran
  rw [(ensurePlanByCode_ok ran).1]

theorem planOrStarter_spares {planId : Option String} : (planOrStarter choice planId).Spares id := by
  intro db db' p ran
  rw [(planOrStarter_ok ran).1]

theorem updateOrganization_spares {organizationId : String} {f : Organization → Organization} :
    (updateOrganization organizationId f).Spares id := by
  intro db db' u ran
  rw [updateOrganization, Tx.get_bind] at ran
  obtain ⟨_, _, checked, ran⟩ := Tx.bind_ok.mp ran
  obtain ⟨_, rfl⟩ := orViolation_ok checked
  rw [Tx.set_ok ran]

theorem updateSubscriptions_spares {now : Int} {p : Subscription → Bool}
    {f : Subscription → Subscription} : (updateSubscriptions now p f).Spares id := by
  intro db db' u ran
  rw [updateSubscriptions, Tx.get_bind] at ran
  obtain ⟨_, _, checked, ran⟩ := Tx.bind_ok.mp ran
  obtain ⟨_, rfl⟩ := orViolation_ok checked
  rw [Tx.set_ok ran]

theorem createSubscription_spares {row : Subscription} : (createSubscription row).Spares id := by
  intro db db' u ran
  rw [createSubscription, Tx.get_bind] at ran
  obtain ⟨_, _, checked, ran⟩ := Tx.bind_ok.mp ran
  obtain ⟨_, rfl⟩ := orViolation_ok checked
  obtain ⟨_, _, written, ran⟩ := Tx.bind_ok.mp ran
  obtain ⟨_, rfl⟩ := Tx.pure_ok.mp ran
  rw [Tx.set_ok written]

theorem ensureSubscriptionForOrganization_spares {currentPeriodEnd : Option Date}
    {organizationId planId stripeCustomerId : String} {stripeSubscriptionId : Option String} :
    (ensureSubscriptionForOrganization choice currentPeriodEnd organizationId planId
      stripeCustomerId stripeSubscriptionId).Spares id := by
  refine Tx.Spares.get fun db => ?_
  cases db.organizations.get (.id organizationId) with
  | none => exact Tx.Spares.throw
  | some organization =>
      refine column_spares.bind fun periodEnd => ?_
      cases db.subscription organization.id with
      | none => exact createSubscription_spares
      | some existing => exact updateSubscriptions_spares.bind fun _ => Tx.Spares.pure

theorem createDowngradeProrationCredit_spares {amountCents : ℚ} {credit : Int → BillingCredit} :
    (createDowngradeProrationCredit amountCents credit).Spares id := by
  intro db db' u ran
  rw [(createDowngradeProrationCredit_ok ran).1]

theorem organizationOfCustomer_spares {customer : Option String} {what event : String} :
    (organizationOfCustomer customer what event).Spares id := by
  rintro db db' ⟨customerId, organization⟩ ran
  rw [(organizationOfCustomer_ok ran).1]

theorem organizationOfSession_spares {session : CheckoutSession} :
    (organizationOfSession session).Spares id := by
  refine Tx.Spares.get fun db => ?_
  dsimp only
  split
  · exact Tx.Spares.throw
  · exact Tx.Spares.pure

/-- The invoice is stored under its id with the status of the event or the one to fall back to,
and no other invoice changes. -/
theorem upsertInvoice_rows {invoice : StripeInvoice} {fallback : InvoiceStatus}
    {organization : Organization} {subscriptionId : String} {db db' : Database} {u : Unit}
    (ran : upsertInvoice invoice fallback organization subscriptionId db = .ok (u, db')) :
    (∃ row, db'.invoices.get (.stripeInvoiceId invoice.id) = some row ∧
      row.status = resolveInvoiceStatus invoice.status fallback) ∧
      ∀ id, id ≠ invoice.id →
        db'.invoices.get (.stripeInvoiceId id) = db.invoices.get (.stripeInvoiceId id) := by
  rw [upsertInvoice, Tx.get_bind] at ran
  obtain ⟨_, _, due, ran⟩ := Tx.bind_ok.mp ran
  obtain ⟨rfl, _⟩ := column_ok due
  obtain ⟨_, _, start, ran⟩ := Tx.bind_ok.mp ran
  obtain ⟨rfl, _⟩ := column_ok start
  obtain ⟨_, _, periodEnd, ran⟩ := Tx.bind_ok.mp ran
  obtain ⟨rfl, _⟩ := column_ok periodEnd
  cases there : db.invoices.get (.stripeInvoiceId invoice.id) with
  | none =>
      simp only [there] at ran
      obtain ⟨_, _, checked, ran⟩ := Tx.bind_ok.mp ran
      obtain ⟨inserted, rfl⟩ := orViolation_ok checked
      obtain rfl := Tx.set_ok ran
      have found := (Table.get_insert inserted).trans
        (if_pos (List.mem_singleton_self (Column.stripeInvoiceId invoice.id)))
      refine ⟨⟨_, found, rfl⟩, fun id other => ?_⟩
      refine (Table.get_insert inserted).trans (if_neg fun own => other ?_)
      exact Column.stripeInvoiceId.inj (List.mem_singleton.mp own)
  | some existing =>
      simp only [there] at ran
      obtain rfl := Tx.set_ok ran
      have key {id : String} {row : Invoice}
          (found : db.invoices.get (.stripeInvoiceId id) = some row) : row.stripeInvoiceId = id :=
        (Column.stripeInvoiceId.inj (List.mem_singleton.mp (Table.get_eq_some.mp found).2)).symm
      have own : decide (existing.stripeInvoiceId = invoice.id) = true := by
        simpa using key there
      refine ⟨?_, fun id other => ?_⟩
      · rw [Table.get_update, there, Option.map_some, if_pos own]
        exact ⟨_, rfl, rfl⟩
      · rw [Table.get_update]
        cases found : db.invoices.get (.stripeInvoiceId id) with
        | none => rfl
        | some row =>
            have foreign : ¬ row.stripeInvoiceId = invoice.id := by
              rw [key found]
              exact other
            rw [Option.map_some, if_neg (by simpa using foreign)]

/-! ## Handlers -/

/-- The event is about the payment of the invoice with this id. -/
def StripeEventData.IsAbout (id : String) : StripeEventData → Prop
  | .invoicePaymentSucceeded invoice | .invoicePaymentFailed invoice => invoice.id = id
  | _ => False

theorem upsertInvoice_spares {invoice : StripeInvoice} {fallback : InvoiceStatus}
    {organization : Organization} {subscriptionId : String} (other : invoice.id ≠ id) :
    (upsertInvoice invoice fallback organization subscriptionId).Spares id :=
  fun _ _ _ ran => (upsertInvoice_rows ran).2 id other.symm

theorem handleCheckoutSessionCompleted_spares {session : CheckoutSession} :
    (handleCheckoutSessionCompleted choice session).Spares id := by
  refine organizationOfSession_spares.bind fun organization => ?_
  refine ensurePlanByCode_spares.bind fun fallbackPlan => ?_
  refine Tx.Spares.get fun db => ?_
  refine updateOrganization_spares.bind fun _ => ?_
  exact ensureSubscriptionForOrganization_spares.bind fun _ => Tx.Spares.pure

theorem handleInvoicePaymentSucceeded_spares {invoice : StripeInvoice} (other : invoice.id ≠ id) :
    (handleInvoicePaymentSucceeded choice invoice).Spares id := by
  refine organizationOfCustomer_spares.bind fun _ => ?_
  refine planOrStarter_spares.bind fun planId => ?_
  refine ensureSubscriptionForOrganization_spares.bind fun existing => ?_
  refine column_spares.bind fun currentPeriodEnd => ?_
  refine updateSubscriptions_spares.bind fun _ => ?_
  exact (upsertInvoice_spares other).bind fun _ => Tx.Spares.pure

theorem handleInvoicePaymentFailed_spares {gracePeriodDays : Int} {invoice : StripeInvoice}
    (other : invoice.id ≠ id) :
    (handleInvoicePaymentFailed choice gracePeriodDays invoice).Spares id := by
  refine organizationOfCustomer_spares.bind fun _ => ?_
  refine planOrStarter_spares.bind fun planId => ?_
  refine ensureSubscriptionForOrganization_spares.bind fun subscription => ?_
  refine column_spares.bind fun gracePeriodEndsAt => ?_
  refine updateSubscriptions_spares.bind fun _ => ?_
  exact (upsertInvoice_spares other).bind fun _ => Tx.Spares.pure

theorem handleCustomerSubscriptionDeleted_spares {subscription : StripeSubscription} :
    (handleCustomerSubscriptionDeleted choice subscription).Spares id := by
  refine organizationOfCustomer_spares.bind fun _ => ?_
  refine ensurePlanByCode_spares.bind fun starter => ?_
  refine updateOrganization_spares.bind fun _ => ?_
  exact updateSubscriptions_spares.bind fun _ => Tx.Spares.pure

theorem handleCustomerSubscriptionUpdated_spares {eventId : String}
    {subscription : StripeSubscription} {previousItems : List StripeItem} :
    (handleCustomerSubscriptionUpdated choice eventId subscription previousItems).Spares id := by
  refine organizationOfCustomer_spares.bind fun _ => ?_
  refine Tx.Spares.get fun db => ?_
  refine planOrStarter_spares.bind fun planId => ?_
  refine updateOrganization_spares.bind fun _ => ?_
  refine ensureSubscriptionForOrganization_spares.bind fun localSubscription => ?_
  refine column_spares.bind fun canceledAt => ?_
  refine column_spares.bind fun currentPeriodEnd => ?_
  refine updateSubscriptions_spares.bind fun _ => ?_
  exact createDowngradeProrationCredit_spares.bind fun _ => Tx.Spares.pure

/-- An event about no payment of the invoice leaves it. -/
theorem processStripeBillingEvent_spares {gracePeriodDays : Int} {event : StripeEvent}
    (other : ¬ event.data.IsAbout id) :
    (processStripeBillingEvent choice gracePeriodDays event).Spares id := by
  rw [processStripeBillingEvent]
  cases kind : event.data with
  | checkoutSessionCompleted session => exact handleCheckoutSessionCompleted_spares
  | invoicePaymentSucceeded invoice =>
      rw [kind] at other
      exact handleInvoicePaymentSucceeded_spares other
  | invoicePaymentFailed invoice =>
      rw [kind] at other
      exact handleInvoicePaymentFailed_spares other
  | customerSubscriptionDeleted subscription => exact handleCustomerSubscriptionDeleted_spares
  | customerSubscriptionUpdated subscription previousItems =>
      exact handleCustomerSubscriptionUpdated_spares
  | other => exact Tx.Spares.pure

theorem provisionStripeCustomerForOrganization_spares {reference : String} :
    (provisionStripeCustomerForOrganization choice reference).Spares id := by
  refine Tx.Spares.get fun db => ?_
  cases db.findOrganizationByReference reference with
  | none => exact Tx.Spares.throw
  | some organization =>
      dsimp only
      cases organization.stripeCustomerId.filter (· ≠ "") with
      | some customerId => exact Tx.Spares.pure
      | none =>
          refine updateOrganization_spares.bind fun _ => ?_
          exact updateSubscriptions_spares.bind fun _ => Tx.Spares.pure

theorem createOrganization_spares : (createOrganization choice).Spares id := by
  refine ensurePlanByCode_spares.bind fun starterPlan => ?_
  intro db db' organization ran
  rw [Tx.get_bind] at ran
  obtain ⟨organizations, _, checked, ran⟩ := Tx.bind_ok.mp ran
  obtain ⟨_, rfl⟩ := orViolation_ok checked
  obtain ⟨_, inserted, written, ran⟩ := Tx.bind_ok.mp ran
  have same : inserted.invoices = db.invoices := by rw [Tx.set_ok written]
  have provisions {reference : String} :
      (provisionStripeCustomerForOrganization choice reference).Spares id :=
    provisionStripeCustomerForOrganization_spares
  have rest := provisions.bind (fun _ => createSubscription_spares.bind fun _ => Tx.Spares.pure) ran
  rw [rest, same]

/-! ## Histories -/

/-- The command is no event about a payment of the invoice with this id. -/
def BillingCommand.Leaves (id : String) : BillingCommand → Prop
  | .createOrganization => True
  | .processEvent event => ¬ event.data.IsAbout id

theorem BillingCommand.transaction_spares {gracePeriodDays : Int} {command : BillingCommand}
    (leaves : command.Leaves id) : (command.transaction gracePeriodDays choice).Spares id := by
  cases command with
  | createOrganization => exact createOrganization_spares.bind fun _ => Tx.Spares.pure
  | processEvent event =>
      exact (processStripeBillingEvent_spares leaves).bind fun _ => Tx.Spares.pure

/-- No later command about something else changes a stored invoice. -/
theorem runCommands_spares {gracePeriodDays : Int} {db : Database}
    {commands : List (TxChoice × BillingCommand)}
    (leave : ∀ command ∈ commands, command.2.Leaves id) :
    (runCommands gracePeriodDays db commands).invoices.get (.stripeInvoiceId id) =
      db.invoices.get (.stripeInvoiceId id) := by
  induction commands using List.reverseRecOn with
  | nil => rfl
  | append_singleton commands command ih =>
      have before := ih fun earlier there => leave earlier (List.mem_append_left _ there)
      have last := leave command (List.mem_append_right _ (List.mem_singleton_self _))
      rw [runCommands, List.foldl_concat]
      show ((command.2.transaction gracePeriodDays command.1).commit
        (runCommands gracePeriodDays db commands)).invoices.get _ = _
      rcases Tx.commit_cases (command.2.transaction gracePeriodDays command.1)
        (runCommands gracePeriodDays db commands) with same | ⟨_, ran⟩
      · rw [same, before]
      · rw [BillingCommand.transaction_spares last ran, before]

end

/-- The invoice of a failed payment is stored with what Stripe's status maps to. -/
theorem failedPayment_stored {choice : TxChoice} {gracePeriodDays : Int} {event : StripeEvent}
    {invoice : StripeInvoice} {db db' : Database} {context : StripeBillingEventContext}
    (failed : event.data = .invoicePaymentFailed invoice)
    (processed : processStripeBillingEvent choice gracePeriodDays event db = .ok (context, db')) :
    ∃ row, db'.invoices.get (.stripeInvoiceId invoice.id) = some row ∧
      row.status = resolveInvoiceStatus invoice.status .past_due := by
  rw [processStripeBillingEvent, failed] at processed
  obtain ⟨_, _, _, processed⟩ := Tx.bind_ok.mp processed
  obtain ⟨_, _, _, processed⟩ := Tx.bind_ok.mp processed
  obtain ⟨_, _, _, processed⟩ := Tx.bind_ok.mp processed
  obtain ⟨_, _, _, processed⟩ := Tx.bind_ok.mp processed
  obtain ⟨_, _, _, processed⟩ := Tx.bind_ok.mp processed
  obtain ⟨_, _, upserted, processed⟩ := Tx.bind_ok.mp processed
  obtain ⟨_, rfl⟩ := Tx.pure_ok.mp processed
  exact (upsertInvoice_rows upserted).1

/-- The statuses that Stripe may give a failed invoice for which health scoring misses it. -/
def missedStatuses : List String := ["draft", "open", "paid", "void"]

theorem resolveInvoiceStatus_counted {candidate : Option String} :
    (resolveInvoiceStatus candidate .past_due = .past_due ∨
      resolveInvoiceStatus candidate .past_due = .uncollectible) ↔
      ∀ status ∈ candidate, status ∉ missedStatuses := by
  cases candidate with
  | none => simp [resolveInvoiceStatus]
  | some status =>
      unfold resolveInvoiceStatus
      split <;> simp_all [missedStatuses]

/-- The stored invoice of a failed payment, with whatever comes later about other things, is
counted in every window that contains it just when Stripe's status is not one of the four. -/
theorem failedPayment_counted_iff {choice : TxChoice} {gracePeriodDays : Int} {event : StripeEvent}
    {invoice : StripeInvoice} {db db' : Database} {context : StripeBillingEventContext}
    {later : List (TxChoice × BillingCommand)}
    (failed : event.data = .invoicePaymentFailed invoice)
    (processed : processStripeBillingEvent choice gracePeriodDays event db = .ok (context, db'))
    (last : ∀ command ∈ later, command.2.Leaves invoice.id) :
    (∃ row, (runCommands gracePeriodDays db' later).invoices.get (.stripeInvoiceId invoice.id) =
        some row ∧ row.CountedAsError (runCommands gracePeriodDays db' later)) ↔
      ∀ status ∈ invoice.status, status ∉ missedStatuses := by
  obtain ⟨row, stored, status⟩ := failedPayment_stored failed processed
  rw [runCommands_spares last, stored, ← resolveInvoiceStatus_counted, ← status]
  have there : row ∈ (runCommands gracePeriodDays db' later).invoices.rows :=
    (Table.get_eq_some.mp ((runCommands_spares last).trans stored)).1
  rw [← Invoice.countedAsError_iff there]
  constructor
  · rintro ⟨other, same, counted⟩
    cases same
    exact counted
  · exact fun counted => ⟨row, rfl, counted⟩

/-! ### Two invoices that could not be paid -/

/-- The payment of an invoice failed that has this status. -/
def declined (status : Option String) : StripeEvent where
  id := "evt"
  data := .invoicePaymentFailed { id := "in", customer := some "cus", status }

/-- Stripe has given the invoice up, and the failure is counted. -/
theorem uncollectible_counted :
    ∃ row, (runCommands 3 (after soldDatabase (declined (some "uncollectible"))) []).invoices.get
        (.stripeInvoiceId "in") = some row ∧
      row.CountedAsError (runCommands 3 (after soldDatabase (declined (some "uncollectible"))) []) := by
  obtain ⟨context, processed⟩ := processes_after (show (processStripeBillingEvent {} 3
    (declined (some "uncollectible")) soldDatabase).isOk = true by decide +kernel)
  exact (failedPayment_counted_iff rfl processed (List.forall_mem_nil _)).mpr (by decide)

/-- Stripe still tries to collect the invoice, and no window counts the failure. -/
theorem open_not_counted :
    ∃ context row, processStripeBillingEvent {} 3 (declined (some "open")) soldDatabase =
        .ok (context, after soldDatabase (declined (some "open"))) ∧
      (after soldDatabase (declined (some "open"))).invoices.get (.stripeInvoiceId "in") = some row ∧
      ¬ row.CountedAsError (after soldDatabase (declined (some "open"))) := by
  obtain ⟨context, processed⟩ := processes_after (show (processStripeBillingEvent {} 3
    (declined (some "open")) soldDatabase).isOk = true by decide +kernel)
  obtain ⟨row, stored, status⟩ := failedPayment_stored rfl processed
  refine ⟨context, row, processed, stored, fun counted => ?_⟩
  have failed := (Invoice.countedAsError_iff (Table.get_eq_some.mp stored).1).mp counted
  rw [status] at failed
  exact absurd failed (by decide)

end Billing
