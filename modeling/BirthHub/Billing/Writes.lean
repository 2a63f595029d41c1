import BirthHub.Billing.Stripe

/-!
# What processing an event writes

A transaction that succeeds is taken apart at each of its statements. `process_writes` says of
each event what its organization and its subscription are afterwards, and that the rows of
every other organization stay.
-/

namespace Billing

open Data

/-! ## Taking a transaction apart -/

section

variable {α β : Type} {db db' db'' : Database}

theorem Tx.bind_ok {x : Tx α} {f : α → Tx β} {b : β} :
    (x >>= f) db = .ok (b, db'') ↔ ∃ a db', x db = .ok (a, db') ∧ f a db' = .ok (b, db'') := by
  show (x db).bind (fun p => f p.1 p.2) = _ ↔ _
  cases x db with
  | error e =>
      constructor
      · intro ran
        cases ran
      · rintro ⟨_, _, answered, _⟩
        cases answered
  | ok p =>
      constructor
      · intro ran
        exact ⟨p.1, p.2, rfl, ran⟩
      · rintro ⟨_, _, answered, ran⟩
        cases answered
        exact ran

theorem Tx.pure_ok {a b : α} : (pure a : Tx α) db = .ok (b, db') ↔ a = b ∧ db = db' := by
  show Except.ok (a, db) = _ ↔ _
  simp

theorem Tx.throw_ok {e : Thrown} {b : α} : ¬ (throw e : Tx α) db = .ok (b, db') := nofun

theorem Tx.get_bind {f : Database → Tx α} : (get >>= f) db = f db db := rfl

theorem Tx.set_ok {d : Database} {u : PUnit} (ran : (set d : Tx PUnit) db = .ok (u, db')) :
    db' = d := by
  cases ran
  rfl

theorem orViolation_ok {x : Option α} {a : α} (ran : orViolation x db = .ok (a, db')) :
    x = some a ∧ db = db' := by
  cases x with
  | none => exact (Tx.throw_ok ran).elim
  | some b =>
      obtain ⟨rfl, rfl⟩ := Tx.pure_ok.mp ran
      exact ⟨rfl, rfl⟩

end

/-! ## Statements -/

section

variable {choice : TxChoice} {db db' : Database}

theorem column_ok {date : Option Date} {t : Option Int} (ran : column date db = .ok (t, db')) :
    db = db' ∧ date.bind (·.time) = t ∧ (date.isSome → t.isSome) := by
  cases date with
  | none =>
      obtain ⟨rfl, rfl⟩ := Tx.pure_ok.mp ran
      exact ⟨rfl, rfl, id⟩
  | some date =>
      simp only [column] at ran
      cases valid : date.time with
      | none =>
          rw [valid] at ran
          exact (Tx.throw_ok ran).elim
      | some time =>
          rw [valid] at ran
          obtain ⟨rfl, rfl⟩ := Tx.pure_ok.mp ran
          exact ⟨rfl, valid, fun _ => rfl⟩

/-- A plan that was there stays, and the one that is answered is there. -/
theorem ensurePlanByCode_ok {code : String} {plan : Plan}
    (ran : ensurePlanByCode choice code db = .ok (plan, db')) :
    db' = { db with plans := db'.plans } ∧
      (∀ id p, db.plan id = some p → db'.plan id = some p) ∧ db'.plan plan.id = some plan := by
  rw [ensurePlanByCode, Tx.get_bind] at ran
  dsimp only at ran
  cases stored : db.plans.get (.code (normalizePlanCode code)) with
  | some found =>
      rw [stored] at ran
      obtain ⟨rfl, rfl⟩ := Tx.pure_ok.mp ran
      exact ⟨rfl, fun _ _ there => there,
        Table.get_eq_some.mpr ⟨(Table.get_eq_some.mp stored).1, List.mem_cons_self⟩⟩
  | none =>
      rw [stored] at ran
      obtain ⟨plans, _, checked, ran⟩ := Tx.bind_ok.mp ran
      obtain ⟨inserted, rfl⟩ := orViolation_ok checked
      obtain ⟨_, _, written, ran⟩ := Tx.bind_ok.mp ran
      obtain rfl := Tx.set_ok written
      obtain ⟨rfl, rfl⟩ := Tx.pure_ok.mp ran
      have rows := (Table.insert_eq_some.mp inserted).1
      refine ⟨rfl, fun id p there => ?_, ?_⟩
      · obtain ⟨row, key⟩ := Table.get_eq_some.mp there
        exact Table.get_eq_some.mpr ⟨by rw [rows]; exact List.mem_append_left _ row, key⟩
      · exact Table.get_eq_some.mpr
          ⟨by rw [rows]; exact List.mem_append_right _ (List.mem_singleton.mpr rfl),
            List.mem_cons_self⟩

theorem planOrStarter_ok {planId : Option String} {p : String}
    (ran : planOrStarter choice planId db = .ok (p, db')) :
    db' = { db with plans := db'.plans } ∧
      (∀ id plan, db.plan id = some plan → db'.plan id = some plan) ∧
      (planId = some p ∨ planId = none ∧ (db'.plan p).isSome) := by
  cases planId with
  | some planId =>
      obtain ⟨rfl, rfl⟩ := Tx.pure_ok.mp ran
      exact ⟨rfl, fun _ _ there => there, .inl rfl⟩
  | none =>
      obtain ⟨starter, _, ensured, ran⟩ := Tx.bind_ok.mp ran
      obtain ⟨rfl, rfl⟩ := Tx.pure_ok.mp ran
      obtain ⟨frame, kept, there⟩ := ensurePlanByCode_ok ensured
      exact ⟨frame, kept, .inr ⟨rfl, by rw [there]; rfl⟩⟩

theorem Database.plan_of_plan {id : String} {plan : Plan} (found : db.plan id = some plan) :
    db.plan plan.id = some plan :=
  Table.get_eq_some.mpr ⟨(Table.get_eq_some.mp found).1, List.mem_cons_self⟩

theorem Database.organization_id {id : String} {organization : Organization}
    (found : db.organizations.get (.id id) = some organization) : organization.id = id := by
  have key : Column.id id ∈ Schema.keys organization := (Table.get_eq_some.mp found).2
  rcases List.mem_cons.mp key with same | other
  · exact (Column.id.inj same).symm
  · simp at other

theorem updateOrganization_ok {organization : Organization} {f : Organization → Organization}
    {u : Unit} (keeps : ∀ row, (f row).id = row.id)
    (found : db.organizations.get (.id organization.id) = some organization)
    (ran : updateOrganization organization.id f db = .ok (u, db')) :
    db' = { db with organizations := db'.organizations } ∧
      ∀ id, db'.organizations.get (.id id) =
        if id = organization.id then some (f organization) else db.organizations.get (.id id) := by
  rw [updateOrganization, Tx.get_bind] at ran
  obtain ⟨organizations, _, checked, ran⟩ := Tx.bind_ok.mp ran
  obtain ⟨changed, rfl⟩ := orViolation_ok checked
  obtain rfl := Tx.set_ok ran
  refine ⟨rfl, fun id => ?_⟩
  refine (Table.get_change changed fun row => by simp [Schema.keys, keeps row]).trans ?_
  by_cases same : id = organization.id
  · rw [if_pos same, same, found]
    simp
  · rw [if_neg same]
    cases there : db.organizations.get (.id id) with
    | none => rfl
    | some row => simp [Database.organization_id there, same]

/-- The subscriptions that satisfy `p` are changed, and stay with their organizations. -/
theorem updateSubscriptions_ok {now : Int} {p : Subscription → Bool}
    {f : Subscription → Subscription} {u : Unit}
    (keeps : ∀ row, (f row).organizationId = row.organizationId)
    (ran : updateSubscriptions now p f db = .ok (u, db')) :
    db' = { db with subscriptions := db'.subscriptions } ∧
      ∀ id, db'.subscription id = (db.subscription id).map fun row =>
        if p row then { f row with updatedAt := now } else row := by
  rw [updateSubscriptions, Tx.get_bind] at ran
  obtain ⟨subscriptions, _, checked, ran⟩ := Tx.bind_ok.mp ran
  obtain ⟨changed, rfl⟩ := orViolation_ok checked
  obtain rfl := Tx.set_ok ran
  exact ⟨rfl, fun id => Table.get_change changed fun row => by simp [Schema.keys, keeps row]⟩

theorem Database.subscription_organizationId {id : String} {row : Subscription}
    (found : db.subscription id = some row) : row.organizationId = id := by
  have key : Column.organizationId id ∈ Schema.keys row := (Table.get_eq_some.mp found).2
  rcases List.mem_cons.mp key with same | key
  · cases same
  · rcases List.mem_cons.mp key with same | other
    · exact (Column.organizationId.inj same).symm
    · simp at other

theorem Database.subscription_unique {id id' : String} {row row' : Subscription}
    (found : db.subscription id = some row) (found' : db.subscription id' = some row')
    (same : row.id = row'.id) : id = id' := by
  have equal : row = row' := Table.eq_of_keys (k := (Column.id row.id : Schema.Key Subscription))
    (Table.get_eq_some.mp found).1 (Table.get_eq_some.mp found').1 List.mem_cons_self
    (by rw [same]; exact List.mem_cons_self)
  rw [← Database.subscription_organizationId found, ← Database.subscription_organizationId found',
    equal]

/-- The subscription of one organization is changed. -/
theorem updateSubscriptions_of_organization {now : Int} {id : String}
    {f : Subscription → Subscription} {u : Unit}
    (keeps : ∀ row, (f row).organizationId = row.organizationId)
    (ran : updateSubscriptions now (·.organizationId = id) f db = .ok (u, db')) :
    db' = { db with subscriptions := db'.subscriptions } ∧
      ∀ id', db'.subscription id' =
        if id' = id then (db.subscription id).map fun row => { f row with updatedAt := now }
        else db.subscription id' := by
  obtain ⟨frame, rows⟩ := updateSubscriptions_ok keeps ran
  refine ⟨frame, fun id' => ?_⟩
  rw [rows]
  by_cases same : id' = id
  · subst same
    rw [if_pos rfl]
    cases there : db.subscription id' with
    | none => rfl
    | some row => simp [Database.subscription_organizationId there]
  · rw [if_neg same]
    cases there : db.subscription id' with
    | none => rfl
    | some row => simp [Database.subscription_organizationId there, same]

theorem updateSubscriptions_of_row {now : Int} {id : String} {existing : Subscription}
    {f : Subscription → Subscription} {u : Unit}
    (keeps : ∀ row, (f row).organizationId = row.organizationId)
    (found : db.subscription id = some existing)
    (ran : updateSubscriptions now (·.id = existing.id) f db = .ok (u, db')) :
    db' = { db with subscriptions := db'.subscriptions } ∧
      ∀ id', db'.subscription id' =
        if id' = id then some { f existing with updatedAt := now } else db.subscription id' := by
  obtain ⟨frame, rows⟩ := updateSubscriptions_ok keeps ran
  refine ⟨frame, fun id' => ?_⟩
  rw [rows]
  by_cases same : id' = id
  · subst same
    simp [found]
  · rw [if_neg same]
    cases there : db.subscription id' with
    | none => rfl
    | some row =>
        have other : row.id ≠ existing.id := fun shared =>
          same (Database.subscription_unique there found shared)
        simp [other]

theorem createSubscription_ok {row row' : Subscription}
    (ran : createSubscription row db = .ok (row', db')) :
    row' = row ∧ db' = { db with subscriptions := db'.subscriptions } ∧
      ∀ id, db'.subscription id =
        if id = row.organizationId then some row else db.subscription id := by
  rw [createSubscription, Tx.get_bind] at ran
  obtain ⟨subscriptions, _, checked, ran⟩ := Tx.bind_ok.mp ran
  obtain ⟨inserted, rfl⟩ := orViolation_ok checked
  obtain ⟨_, _, written, ran⟩ := Tx.bind_ok.mp ran
  obtain rfl := Tx.set_ok written
  obtain ⟨rfl, rfl⟩ := Tx.pure_ok.mp ran
  refine ⟨rfl, rfl, fun id => (Table.get_insert inserted).trans ?_⟩
  have key : ((Column.organizationId id : Schema.Key Subscription) ∈ Schema.keys row) ↔
      id = row.organizationId := by
    show Column.organizationId id ∈ _ :: _ :: _ ↔ _
    simp
  simp only [key]
  rfl

/-- The row that `ensureSubscriptionForOrganization` leaves. -/
def upserted (choice : TxChoice) (organization : Organization) (existing : Option Subscription)
    (planId stripeCustomerId : String) (currentPeriodEnd : Option Int)
    (stripeSubscriptionId : Option String) : Subscription :=
  let row := existing.getD {
    id := choice.subscriptionId
    organizationId := organization.id
    tenantId := organization.tenantId
    planId
    updatedAt := choice.now }
  { row with
    planId
    status := .active
    stripeCustomerId := some stripeCustomerId
    currentPeriodEnd
    stripeSubscriptionId
    updatedAt := choice.now }

theorem ensureSubscriptionForOrganization_ok {currentPeriodEnd : Option Date}
    {organizationId planId stripeCustomerId : String} {stripeSubscriptionId : Option String}
    {row : Subscription} {organization : Organization}
    (found : db.organizations.get (.id organizationId) = some organization)
    (ran : ensureSubscriptionForOrganization choice currentPeriodEnd organizationId planId
      stripeCustomerId stripeSubscriptionId db = .ok (row, db')) :
    row = upserted choice organization (db.subscription organizationId) planId stripeCustomerId
        (currentPeriodEnd.bind (·.time)) stripeSubscriptionId ∧
      db' = { db with subscriptions := db'.subscriptions } ∧
      ∀ id, db'.subscription id = if id = organizationId then some row else db.subscription id := by
  have named := Database.organization_id found
  rw [ensureSubscriptionForOrganization, Tx.get_bind] at ran
  simp only [found] at ran
  obtain ⟨periodEnd, _, stored, ran⟩ := Tx.bind_ok.mp ran
  obtain ⟨rfl, rfl, _⟩ := column_ok stored
  rw [named] at ran
  cases there : db.subscription organizationId with
  | none =>
      simp only [there] at ran
      obtain ⟨rfl, frame, rows⟩ := createSubscription_ok ran
      refine ⟨by simp [upserted, named], frame, fun id => ?_⟩
      simpa [there] using rows id
  | some existing =>
      simp only [there] at ran
      obtain ⟨_, _, updated, ran⟩ := Tx.bind_ok.mp ran
      obtain ⟨rfl, rfl⟩ := Tx.pure_ok.mp ran
      obtain ⟨frame, rows⟩ := updateSubscriptions_of_organization
        (by intro _; rfl) updated
      refine ⟨rfl, frame, fun id => ?_⟩
      rw [rows, there]
      rfl

theorem upsertInvoice_ok {invoice : StripeInvoice} {fallback : InvoiceStatus}
    {organization : Organization} {subscriptionId : String} {u : Unit}
    (ran : upsertInvoice invoice fallback organization subscriptionId db = .ok (u, db')) :
    db' = { db with invoices := db'.invoices } := by
  rw [upsertInvoice, Tx.get_bind] at ran
  obtain ⟨_, _, due, ran⟩ := Tx.bind_ok.mp ran
  obtain ⟨rfl, _⟩ := column_ok due
  obtain ⟨_, _, start, ran⟩ := Tx.bind_ok.mp ran
  obtain ⟨rfl, _⟩ := column_ok start
  obtain ⟨_, _, periodEnd, ran⟩ := Tx.bind_ok.mp ran
  obtain ⟨rfl, _⟩ := column_ok periodEnd
  cases there : db.invoices.get (.stripeInvoiceId invoice.id) with
  | none =>
      simp only [there] at ran
      obtain ⟨_, _, checked, ran⟩ := Tx.bind_ok.mp ran
      obtain ⟨_, rfl⟩ := orViolation_ok checked
      obtain rfl := Tx.set_ok ran
      rfl
  | some existing =>
      simp only [there] at ran
      obtain rfl := Tx.set_ok ran
      rfl

/-- A positive amount is credited, and must be a whole number. -/
theorem createDowngradeProrationCredit_ok {amountCents : ℚ} {credit : Int → BillingCredit} {u : Unit}
    (ran : createDowngradeProrationCredit amountCents credit db = .ok (u, db')) :
    db' = { db with credits := db'.credits } ∧
      (amountCents ≤ 0 ∧ db'.credits = db.credits ∨
        ∃ amount : Int, amountCents = amount ∧ 0 < amount ∧
          db'.credits.rows = db.credits.rows ++ [credit amount]) := by
  unfold createDowngradeProrationCredit at ran
  split at ran
  · rename_i nothing
    obtain ⟨_, rfl⟩ := Tx.pure_ok.mp ran
    exact ⟨rfl, .inl ⟨nothing, rfl⟩⟩
  · rename_i positive
    split at ran
    · exact (Tx.throw_ok ran).elim
    · rename_i fits
      rw [Tx.get_bind] at ran
      cases inserted : db.credits.insert (credit amountCents.num) with
      | none =>
          rw [inserted] at ran
          exact (Tx.throw_ok ran).elim
      | some credits =>
          rw [inserted] at ran
          obtain rfl := Tx.set_ok ran
          have whole : amountCents = amountCents.num := by
            have den : amountCents.den = 1 := by
              by_contra other
              exact fits (.inl other)
            exact (Rat.den_eq_one_iff amountCents).mp den |>.symm
          refine ⟨rfl, .inr ⟨amountCents.num, whole, ?_, (Table.insert_eq_some.mp inserted).1⟩⟩
          exact Rat.num_pos.mpr (not_le.mp positive)

theorem organizationOfCustomer_ok {customer : Option String} {what event customerId : String}
    {organization : Organization}
    (ran : organizationOfCustomer customer what event db = .ok ((customerId, organization), db')) :
    db = db' ∧ customer = some customerId ∧
      db.organizations.get (.stripeCustomerId customerId) = some organization := by
  unfold organizationOfCustomer at ran
  cases given : customer.filter (· ≠ "") with
  | none =>
      simp only [given] at ran
      exact (Tx.throw_ok ran).elim
  | some id =>
      simp only [given, resolveOrganizationByStripeCustomer] at ran
      obtain ⟨_, _, looked, ran⟩ := Tx.bind_ok.mp ran
      obtain ⟨rfl, rfl⟩ := Tx.pure_ok.mp looked
      cases found : db.organizations.get (.stripeCustomerId id) with
      | none =>
          rw [found] at ran
          exact (Tx.throw_ok ran).elim
      | some found' =>
          rw [found] at ran
          obtain ⟨same, rfl⟩ := Tx.pure_ok.mp ran
          cases same
          exact ⟨rfl, (Option.filter_eq_some_iff.mp given).1, found⟩

/-- The organization that an event is about. -/
def StripeEventData.organization (db : Database) : StripeEventData → Option Organization
  | .checkoutSessionCompleted session =>
      ((session.metadata.given "organizationId").bind fun id => db.organizations.get (.id id)) <|>
        (session.customer.filter (· ≠ "")).bind fun customerId =>
          db.organizations.get (.stripeCustomerId customerId)
  | .invoicePaymentSucceeded invoice | .invoicePaymentFailed invoice =>
      invoice.customer.bind fun customerId => db.organizations.get (.stripeCustomerId customerId)
  | .customerSubscriptionDeleted subscription | .customerSubscriptionUpdated subscription _ =>
      subscription.customer.bind fun customerId =>
        db.organizations.get (.stripeCustomerId customerId)
  | .other => none

theorem organizationOfSession_ok {session : CheckoutSession} {organization : Organization}
    (ran : organizationOfSession session db = .ok (organization, db')) :
    (StripeEventData.checkoutSessionCompleted session).organization db = some organization ∧
      db = db' := by
  rw [organizationOfSession, Tx.get_bind] at ran
  cases found : (StripeEventData.checkoutSessionCompleted session).organization db with
  | none =>
      rw [StripeEventData.organization] at found
      rw [found] at ran
      exact (Tx.throw_ok ran).elim
  | some found' =>
      rw [StripeEventData.organization] at found
      rw [found] at ran
      obtain ⟨rfl, rfl⟩ := Tx.pure_ok.mp ran
      exact ⟨rfl, rfl⟩

theorem Database.get_of_mem {organization : Organization}
    (there : organization ∈ db.organizations.rows) :
    db.organizations.get (.id organization.id) = some organization :=
  Table.get_eq_some.mpr ⟨there, List.mem_cons_self⟩

theorem StripeEventData.organization_found {data : StripeEventData} {organization : Organization}
    (named : data.organization db = some organization) :
    db.organizations.get (.id organization.id) = some organization := by
  have row {k : Schema.Key Organization} (found : db.organizations.get k = some organization) :
      db.organizations.get (.id organization.id) = some organization :=
    Database.get_of_mem (Table.get_eq_some.mp found).1
  cases data with
  | checkoutSessionCompleted session =>
      rcases (Option.orElse_eq_some _ _ _).mp named with by_id | ⟨_, paying⟩
      · obtain ⟨_, _, found⟩ := Option.bind_eq_some_iff.mp by_id
        exact row found
      · obtain ⟨_, _, found⟩ := Option.bind_eq_some_iff.mp paying
        exact row found
  | other => cases named
  | _ =>
      obtain ⟨_, _, found⟩ := Option.bind_eq_some_iff.mp named
      exact row found

end

/-! ## Events -/

/-- The row of its organization after an event that resolves to a plan. -/
def StripeEventData.organizationAfter (planId : String) (organization : Organization) :
    StripeEventData → Organization
  | .checkoutSessionCompleted session => { organization with
      planId := some planId
      stripeCustomerId := session.customer <|> organization.stripeCustomerId }
  | .customerSubscriptionDeleted _ | .customerSubscriptionUpdated .. =>
      { organization with planId := some planId }
  | _ => organization

/-- The subscription of its organization after an event that resolves to a plan. -/
def StripeEventData.subscriptionAfter (choice : TxChoice) (gracePeriodDays : Int) (planId : String)
    (organization : Organization) (existing : Option Subscription) :
    StripeEventData → Option Subscription
  | .checkoutSessionCompleted session =>
      some (upserted choice organization existing planId
        ((session.customer <|> organization.stripeCustomerId).getD "")
        ((unixToDate session.expires_at).bind (·.time)) session.subscription)
  | .invoicePaymentSucceeded invoice =>
      some { upserted choice organization existing planId (invoice.customer.getD "")
          (invoice.periodEnd.bind (·.time)) invoice.subscription with
        gracePeriodEndsAt := none }
  | .invoicePaymentFailed invoice =>
      some { upserted choice organization existing planId (invoice.customer.getD "")
          (invoice.periodEnd.bind (·.time)) invoice.subscription with
        gracePeriodEndsAt := (Date.ofTime (choice.now + dayMillis gracePeriodDays)).time
        status := .past_due }
  | .customerSubscriptionDeleted subscription => existing.map fun row => { row with
      canceledAt := some choice.now
      planId
      status := .canceled
      stripeSubscriptionId := some subscription.id
      updatedAt := choice.now }
  | .customerSubscriptionUpdated subscription _ =>
      some { upserted choice organization existing planId (subscription.customer.getD "")
          ((resolveSubscriptionPeriodEnd subscription).bind (·.time)) (some subscription.id) with
        canceledAt := (unixToDate subscription.canceled_at).bind (·.time)
        status := mapStripeSubscriptionStatus subscription.status }
  | .other => existing

/-- The event leaves the plan of an organization that has one. -/
def StripeEventData.leavesPlan : StripeEventData → Bool
  | .invoicePaymentSucceeded _ | .invoicePaymentFailed _ => true
  | _ => false

/-- What the event adds to the credits. -/
def StripeEvent.Credits (event : StripeEvent) (organization : Organization)
    (credits credits' : List BillingCredit) : Prop :=
  match event.data with
  | .customerSubscriptionUpdated subscription previousItems =>
      resolveProrationCreditCents subscription previousItems ≤ 0 ∧ credits' = credits ∨
        ∃ credit, credits' = credits ++ [credit] ∧ credit.stripeEventId = event.id ∧
          credit.organizationId = organization.id ∧ 0 < credit.amountCents ∧
          resolveProrationCreditCents subscription previousItems = credit.amountCents
  | _ => credits' = credits

/-- The event was processed for the organization with the plan. -/
structure Writes (choice : TxChoice) (gracePeriodDays : Int) (event : StripeEvent)
    (organization : Organization) (planId : String) (db db' : Database) : Prop where
  named : event.data.organization db = some organization
  plans : ∀ id plan, db.plan id = some plan → db'.plan id = some plan
  organizations : ∀ id, db'.organizations.get (.id id) =
    if id = organization.id then some (event.data.organizationAfter planId organization)
    else db.organizations.get (.id id)
  subscriptions : ∀ id, db'.subscription id =
    if id = organization.id then
      event.data.subscriptionAfter choice gracePeriodDays planId organization (db.subscription id)
    else db.subscription id
  plan : organization.planId = some planId ∨ (db'.plan planId).isSome
  leaves : event.data.leavesPlan = true → ∀ p, organization.planId = some p → planId = p
  credits : event.Credits organization db.credits.rows db'.credits.rows

/-! ### Each handler -/

section

variable {choice : TxChoice} {gracePeriodDays : Int} {db db' : Database} {id : String}
  {context : StripeBillingEventContext}

theorem handleCheckoutSessionCompleted_writes {session : CheckoutSession}
    (ran : handleCheckoutSessionCompleted choice session db = .ok (context, db')) :
    ∃ organization planId, context = contextOf organization ∧
      Writes choice gracePeriodDays ⟨id, .checkoutSessionCompleted session⟩ organization planId
        db db' := by
  obtain ⟨organization, _, who, ran⟩ := Tx.bind_ok.mp ran
  obtain ⟨named, rfl⟩ := organizationOfSession_ok who
  have row := StripeEventData.organization_found named
  obtain ⟨starter, db₁, ensured, ran⟩ := Tx.bind_ok.mp ran
  obtain ⟨frame₁, plans, there⟩ := ensurePlanByCode_ok ensured
  rw [Tx.get_bind] at ran
  generalize resolved : ((((session.metadata.given "planId").bind db₁.plan).map (·.id)) <|>
    organization.planId).getD starter.id = planId at ran
  obtain ⟨_, db₂, updated, ran⟩ := Tx.bind_ok.mp ran
  obtain ⟨frame₂, organizations⟩ := updateOrganization_ok (by intro _; rfl)
    (by rw [frame₁]; exact row) updated
  obtain ⟨_, db₃, upserted, ran⟩ := Tx.bind_ok.mp ran
  have row' := (organizations organization.id).trans (if_pos rfl)
  obtain ⟨rfl, frame₃, subscriptions⟩ := ensureSubscriptionForOrganization_ok row' upserted
  obtain ⟨rfl, rfl⟩ := Tx.pure_ok.mp ran
  refine ⟨organization, planId, rfl, named, fun id plan held => ?_, fun id' => ?_, fun id' => ?_,
    ?_, nofun, ?_⟩
  · rw [frame₃, frame₂]
    exact plans id plan held
  · rw [frame₃]
    refine (organizations id').trans ?_
    rw [frame₁]
    rfl
  · rw [subscriptions, frame₂, frame₁]
    by_cases same : id' = organization.id
    · rw [if_pos same, if_pos same, same]
      rfl
    · rw [if_neg same, if_neg same]
      rfl
  · have same : db₃.plan planId = db₁.plan planId := by rw [frame₃, frame₂]; rfl
    rw [same]
    cases requested : (session.metadata.given "planId").bind db₁.plan with
    | some plan =>
        rw [requested] at resolved
        obtain ⟨_, _, held⟩ := Option.bind_eq_some_iff.mp requested
        exact .inr (by rw [← resolved]; exact Option.isSome_of_eq_some (Database.plan_of_plan held))
    | none =>
        rw [requested] at resolved
        cases own : organization.planId with
        | some p =>
            rw [own] at resolved
            exact .inl (congrArg some resolved)
        | none =>
            rw [own] at resolved
            exact .inr (by rw [← resolved]; exact Option.isSome_of_eq_some there)
  · show db₃.credits.rows = db.credits.rows
    rw [frame₃, frame₂, frame₁]

/-- The plan of `planOrStarter` is that of the organization, or it is there. -/
theorem plan_of_planOrStarter {planId : Option String} {p : String}
    (plan : planId = some p ∨ planId = none ∧ (db.plan p).isSome) :
    planId = some p ∨ (db.plan p).isSome :=
  plan.imp id And.right

theorem handleInvoicePaymentSucceeded_writes {invoice : StripeInvoice}
    (ran : handleInvoicePaymentSucceeded choice invoice db = .ok (context, db')) :
    ∃ organization planId, context = contextOf organization ∧
      Writes choice gracePeriodDays ⟨id, .invoicePaymentSucceeded invoice⟩ organization planId
        db db' := by
  obtain ⟨⟨customerId, organization⟩, _, who, ran⟩ := Tx.bind_ok.mp ran
  obtain ⟨rfl, customer, found⟩ := organizationOfCustomer_ok who
  have named : (StripeEventData.invoicePaymentSucceeded invoice).organization db =
      some organization := by
    rw [StripeEventData.organization, customer]
    exact found
  have row := StripeEventData.organization_found named
  obtain ⟨planId, db₁, planned, ran⟩ := Tx.bind_ok.mp ran
  obtain ⟨frame₁, plans, plan⟩ := planOrStarter_ok planned
  obtain ⟨existing, db₂, ensured, ran⟩ := Tx.bind_ok.mp ran
  obtain ⟨rfl, frame₂, subscriptions⟩ := ensureSubscriptionForOrganization_ok
    (by rw [frame₁]; exact row) ensured
  obtain ⟨periodEnd, _, stored, ran⟩ := Tx.bind_ok.mp ran
  obtain ⟨rfl, rfl, _⟩ := column_ok stored
  obtain ⟨_, db₃, activated, ran⟩ := Tx.bind_ok.mp ran
  obtain ⟨frame₃, subscriptions'⟩ := updateSubscriptions_of_row (by intro _; rfl)
    ((subscriptions organization.id).trans (if_pos rfl)) activated
  obtain ⟨_, db₄, invoiced, ran⟩ := Tx.bind_ok.mp ran
  have frame₄ := upsertInvoice_ok invoiced
  obtain ⟨rfl, rfl⟩ := Tx.pure_ok.mp ran
  have unplanned : db₄.organizations = db.organizations ∧ db₄.credits = db.credits := by
    rw [frame₄, frame₃, frame₂, frame₁]
    exact ⟨rfl, rfl⟩
  have kept : db₄.plans = db₁.plans := by
    rw [frame₄, frame₃, frame₂]
  refine ⟨organization, planId, rfl, named, fun id plan held => ?_, fun id' => ?_, fun id' => ?_,
    ?_, fun _ p own => ?_, ?_⟩
  · rw [Database.plan, kept]
    exact plans id plan held
  · rw [unplanned.1]
    split
    · rename_i same
      rw [same]
      exact row
    · rfl
  · have last : db₄.subscription id' = db₃.subscription id' := by rw [frame₄]; rfl
    rw [last, subscriptions']
    by_cases same : id' = organization.id
    · rw [if_pos same, if_pos same, same, frame₁, StripeEventData.subscriptionAfter, customer]
      rfl
    · rw [if_neg same, if_neg same, subscriptions, if_neg same, frame₁]
      rfl
  · rw [Database.plan, kept]
    exact plan_of_planOrStarter plan
  · rcases plan with same | ⟨absent, _⟩
    · exact Option.some.inj (same.symm.trans own)
    · rw [absent] at own
      cases own
  · exact congrArg Table.rows unplanned.2

theorem handleInvoicePaymentFailed_writes {invoice : StripeInvoice}
    (ran : handleInvoicePaymentFailed choice gracePeriodDays invoice db = .ok (context, db')) :
    ∃ organization planId, context = contextOf organization ∧
      Writes choice gracePeriodDays ⟨id, .invoicePaymentFailed invoice⟩ organization planId
        db db' := by
  obtain ⟨⟨customerId, organization⟩, _, who, ran⟩ := Tx.bind_ok.mp ran
  obtain ⟨rfl, customer, found⟩ := organizationOfCustomer_ok who
  have named : (StripeEventData.invoicePaymentFailed invoice).organization db =
      some organization := by
    rw [StripeEventData.organization, customer]
    exact found
  have row := StripeEventData.organization_found named
  obtain ⟨planId, db₁, planned, ran⟩ := Tx.bind_ok.mp ran
  obtain ⟨frame₁, plans, plan⟩ := planOrStarter_ok planned
  obtain ⟨existing, db₂, ensured, ran⟩ := Tx.bind_ok.mp ran
  obtain ⟨rfl, frame₂, subscriptions⟩ := ensureSubscriptionForOrganization_ok
    (by rw [frame₁]; exact row) ensured
  obtain ⟨deadline, _, stored, ran⟩ := Tx.bind_ok.mp ran
  obtain ⟨rfl, rfl, _⟩ := column_ok stored
  obtain ⟨_, db₃, activated, ran⟩ := Tx.bind_ok.mp ran
  obtain ⟨frame₃, subscriptions'⟩ := updateSubscriptions_of_row (by intro _; rfl)
    ((subscriptions organization.id).trans (if_pos rfl)) activated
  obtain ⟨_, db₄, invoiced, ran⟩ := Tx.bind_ok.mp ran
  have frame₄ := upsertInvoice_ok invoiced
  obtain ⟨rfl, rfl⟩ := Tx.pure_ok.mp ran
  have unplanned : db₄.organizations = db.organizations ∧ db₄.credits = db.credits := by
    rw [frame₄, frame₃, frame₂, frame₁]
    exact ⟨rfl, rfl⟩
  have kept : db₄.plans = db₁.plans := by
    rw [frame₄, frame₃, frame₂]
  refine ⟨organization, planId, rfl, named, fun id plan held => ?_, fun id' => ?_, fun id' => ?_,
    ?_, fun _ p own => ?_, ?_⟩
  · rw [Database.plan, kept]
    exact plans id plan held
  · rw [unplanned.1]
    split
    · rename_i same
      rw [same]
      exact row
    · rfl
  · have last : db₄.subscription id' = db₃.subscription id' := by rw [frame₄]; rfl
    rw [last, subscriptions']
    by_cases same : id' = organization.id
    · rw [if_pos same, if_pos same, same, frame₁, StripeEventData.subscriptionAfter, customer]
      rfl
    · rw [if_neg same, if_neg same, subscriptions, if_neg same, frame₁]
      rfl
  · rw [Database.plan, kept]
    exact plan_of_planOrStarter plan
  · rcases plan with same | ⟨absent, _⟩
    · exact Option.some.inj (same.symm.trans own)
    · rw [absent] at own
      cases own
  · exact congrArg Table.rows unplanned.2

theorem handleCustomerSubscriptionDeleted_writes {subscription : StripeSubscription}
    (ran : handleCustomerSubscriptionDeleted choice subscription db = .ok (context, db')) :
    ∃ organization planId, context = contextOf organization ∧
      Writes choice gracePeriodDays ⟨id, .customerSubscriptionDeleted subscription⟩ organization
        planId db db' := by
  obtain ⟨⟨customerId, organization⟩, _, who, ran⟩ := Tx.bind_ok.mp ran
  obtain ⟨rfl, customer, found⟩ := organizationOfCustomer_ok who
  obtain ⟨starter, db₁, ensured, ran⟩ := Tx.bind_ok.mp ran
  obtain ⟨frame₁, plans, there⟩ := ensurePlanByCode_ok ensured
  have named : (StripeEventData.customerSubscriptionDeleted subscription).organization db =
      some organization := by
    rw [StripeEventData.organization, customer]
    exact found
  have row := StripeEventData.organization_found named
  obtain ⟨_, db₂, updated, ran⟩ := Tx.bind_ok.mp ran
  obtain ⟨frame₂, organizations⟩ := updateOrganization_ok (by intro _; rfl)
    (by rw [frame₁]; exact row) updated
  obtain ⟨_, db₃, canceled, ran⟩ := Tx.bind_ok.mp ran
  obtain ⟨frame₃, subscriptions⟩ := updateSubscriptions_of_organization (by intro _; rfl) canceled
  obtain ⟨rfl, rfl⟩ := Tx.pure_ok.mp ran
  refine ⟨organization, starter.id, rfl, named, fun id plan held => ?_, fun id' => ?_, fun id' => ?_,
    .inr ?_, nofun, ?_⟩
  · rw [frame₃, frame₂]
    exact plans id plan held
  · rw [frame₃]
    refine (organizations id').trans ?_
    rw [frame₁]
    rfl
  · rw [subscriptions, frame₂, frame₁]
    by_cases same : id' = organization.id
    · rw [if_pos same, if_pos same, same]
      rfl
    · rw [if_neg same, if_neg same]
      rfl
  · rw [frame₃, frame₂]
    exact Option.isSome_of_eq_some there
  · show db₃.credits.rows = db.credits.rows
    rw [frame₃, frame₂, frame₁]

theorem handleCustomerSubscriptionUpdated_writes {subscription : StripeSubscription}
    {previousItems : List StripeItem}
    (ran : handleCustomerSubscriptionUpdated choice id subscription previousItems db =
      .ok (context, db')) :
    ∃ organization planId, context = contextOf organization ∧
      Writes choice gracePeriodDays ⟨id, .customerSubscriptionUpdated subscription previousItems⟩
        organization planId db db' := by
  obtain ⟨⟨customerId, organization⟩, _, who, ran⟩ := Tx.bind_ok.mp ran
  obtain ⟨rfl, customer, found⟩ := organizationOfCustomer_ok who
  have named : (StripeEventData.customerSubscriptionUpdated subscription previousItems).organization
      db = some organization := by
    rw [StripeEventData.organization, customer]
    exact found
  have row := StripeEventData.organization_found named
  dsimp only at ran
  rw [Tx.get_bind] at ran
  generalize mapped : (((subscription.items.head?.bind (·.price)).bind (·.id)).filter (· ≠ "")).bind
    (fun stripePriceId => db.plans.get (.stripePriceId stripePriceId)) = mappedPlan at ran
  obtain ⟨planId, db₁, planned, ran⟩ := Tx.bind_ok.mp ran
  obtain ⟨frame₁, plans, plan⟩ := planOrStarter_ok planned
  obtain ⟨_, db₂, updated, ran⟩ := Tx.bind_ok.mp ran
  obtain ⟨frame₂, organizations⟩ := updateOrganization_ok (by intro _; rfl)
    (by rw [frame₁]; exact row) updated
  obtain ⟨existing, db₃, ensured, ran⟩ := Tx.bind_ok.mp ran
  obtain ⟨rfl, frame₃, subscriptions⟩ := ensureSubscriptionForOrganization_ok
    ((organizations organization.id).trans (if_pos rfl)) ensured
  obtain ⟨canceledAt, _, stored, ran⟩ := Tx.bind_ok.mp ran
  obtain ⟨rfl, rfl, _⟩ := column_ok stored
  obtain ⟨periodEnd, _, stored', ran⟩ := Tx.bind_ok.mp ran
  obtain ⟨rfl, rfl, _⟩ := column_ok stored'
  obtain ⟨_, db₄, mapped', ran⟩ := Tx.bind_ok.mp ran
  obtain ⟨frame₄, subscriptions'⟩ := updateSubscriptions_of_organization (by intro _; rfl) mapped'
  obtain ⟨_, db₅, credited, ran⟩ := Tx.bind_ok.mp ran
  obtain ⟨frame₅, credits⟩ := createDowngradeProrationCredit_ok credited
  obtain ⟨rfl, rfl⟩ := Tx.pure_ok.mp ran
  have kept : db₅.plans = db₁.plans := by rw [frame₅, frame₄, frame₃, frame₂]
  refine ⟨organization, planId, rfl, named, fun id plan held => ?_, fun id' => ?_, fun id' => ?_,
    ?_, nofun, ?_⟩
  · rw [Database.plan, kept]
    exact plans id plan held
  · rw [frame₅, frame₄, frame₃]
    refine (organizations id').trans ?_
    rw [frame₁]
    rfl
  · have last : db₅.subscription id' = db₄.subscription id' := by rw [frame₅]; rfl
    rw [last, subscriptions']
    by_cases same : id' = organization.id
    · rw [if_pos same, if_pos same, same, subscriptions, if_pos rfl, frame₂, frame₁,
        StripeEventData.subscriptionAfter, customer]
      rfl
    · rw [if_neg same, if_neg same, subscriptions, if_neg same, frame₂, frame₁]
      rfl
  · have same : db₅.plan planId = db₁.plan planId := by rw [Database.plan, kept]; rfl
    rw [same]
    rcases plan with own | ⟨_, there⟩
    · rcases (Option.orElse_eq_some _ _ _).mp own with priced | ⟨_, own⟩
      · obtain ⟨plan, there, rfl⟩ := Option.map_eq_some_iff.mp priced
        rw [there] at mapped
        obtain ⟨_, _, held⟩ := Option.bind_eq_some_iff.mp mapped
        exact .inr (Option.isSome_of_eq_some (plans _ _
          (Table.get_eq_some.mpr ⟨(Table.get_eq_some.mp held).1, List.mem_cons_self⟩)))
      · exact .inl own
    · exact .inr there
  · have before : db₄.credits = db.credits := by rw [frame₄, frame₃, frame₂, frame₁]
    rw [before] at credits
    rcases credits with ⟨nothing, same⟩ | ⟨amount, whole, positive, rows⟩
    · exact .inl ⟨nothing, congrArg Table.rows same⟩
    · exact .inr ⟨_, rows, rfl, rfl, positive, whole⟩

end

theorem process_writes {choice : TxChoice} {gracePeriodDays : Int} {event : StripeEvent}
    {db db' : Database} {context : StripeBillingEventContext}
    (ran : processStripeBillingEvent choice gracePeriodDays event db = .ok (context, db')) :
    event.data = .other ∧ context = {} ∧ db' = db ∨
      ∃ organization planId, context = contextOf organization ∧
        Writes choice gracePeriodDays event organization planId db db' := by
  obtain ⟨id, data⟩ := event
  cases data with
  | checkoutSessionCompleted session => exact .inr (handleCheckoutSessionCompleted_writes ran)
  | invoicePaymentSucceeded invoice => exact .inr (handleInvoicePaymentSucceeded_writes ran)
  | invoicePaymentFailed invoice => exact .inr (handleInvoicePaymentFailed_writes ran)
  | customerSubscriptionDeleted subscription =>
      exact .inr (handleCustomerSubscriptionDeleted_writes ran)
  | customerSubscriptionUpdated subscription previousItems =>
      exact .inr (handleCustomerSubscriptionUpdated_writes ran)
  | other =>
      obtain ⟨rfl, rfl⟩ := Tx.pure_ok.mp ran
      exact .inl ⟨rfl, rfl, rfl⟩

end Billing
