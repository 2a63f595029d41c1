import BirthHub.Billing.Writes

/-!
# The plan of an organization and of its subscription

Organizations are created, and Stripe events processed, one after another and each in a
transaction that is rolled back if it throws. After each of them every organization has the
plan of its subscription, and the plan exists. An invoice does not write the plan of the
organization; but an organization always has one, and then the subscription gets the same.
-/

namespace Billing

open Data

/-- Every organization has a subscription with the plan it has itself, and the plan exists. -/
def Database.PlansAgree (db : Database) : Prop :=
  ∀ organization ∈ db.organizations.rows, ∃ subscription,
    db.subscription organization.id = some subscription ∧
      organization.planId = some subscription.planId ∧ (db.plan subscription.planId).isSome

/-! ## Commands -/

inductive BillingCommand
  | createOrganization
  | processEvent (event : StripeEvent)

def BillingCommand.transaction (gracePeriodDays : Int) (choice : TxChoice) :
    BillingCommand → Tx Unit
  | .createOrganization => do
      let _ ← Billing.createOrganization choice
  | .processEvent event => do
      let _ ← processStripeBillingEvent choice gracePeriodDays event

/-- The database after a transaction; one that throws is rolled back. -/
def Tx.commit {α : Type} (transaction : Tx α) (db : Database) : Database :=
  match transaction db with
  | .ok (_, db') => db'
  | .error _ => db

def runCommands (gracePeriodDays : Int) (db : Database)
    (commands : List (TxChoice × BillingCommand)) : Database :=
  commands.foldl (fun db (choice, command) =>
    (command.transaction gracePeriodDays choice).commit db) db

theorem Tx.commit_cases {α : Type} (transaction : Tx α) (db : Database) :
    transaction.commit db = db ∨ ∃ a, transaction db = .ok (a, transaction.commit db) := by
  unfold Tx.commit
  cases transaction db with
  | error e => exact .inl rfl
  | ok r => exact .inr ⟨r.1, rfl⟩

/-! ## Plans by id -/

variable {choice : TxChoice} {db db' : Database}

/-- The plan that an organization has, if it has one. -/
def Database.organizationPlan (db : Database) (id : String) : Option (Option String) :=
  (db.organizations.get (.id id)).map (·.planId)

def Database.subscriptionPlan (db : Database) (id : String) : Option String :=
  (db.subscription id).map (·.planId)

theorem Database.plansAgree_iff : db.PlansAgree ↔ ∀ id planId, db.organizationPlan id = some planId →
    ∃ p, planId = some p ∧ db.subscriptionPlan id = some p ∧ (db.plan p).isSome := by
  constructor
  · intro agree id planId given
    obtain ⟨organization, found, rfl⟩ := Option.map_eq_some_iff.mp given
    obtain ⟨subscription, there, same, plan⟩ := agree organization (Table.get_eq_some.mp found).1
    rw [Database.organization_id found] at there
    exact ⟨_, same, by rw [Database.subscriptionPlan, there]; rfl, plan⟩
  · intro agree organization there
    obtain ⟨p, same, subscribed, plan⟩ := agree organization.id organization.planId
      (by rw [Database.organizationPlan, Database.get_of_mem there]; rfl)
    obtain ⟨subscription, found, rfl⟩ := Option.map_eq_some_iff.mp subscribed
    exact ⟨subscription, found, same, plan⟩

/-! ## One command -/

/-- A subscription after an event that writes one has the plan that the event resolves to. -/
theorem StripeEventData.subscriptionAfter_plan {data : StripeEventData} {gracePeriodDays : Int}
    {planId : String} {organization : Organization} {existing : Subscription}
    (writes : data ≠ .other) :
    (data.subscriptionAfter choice gracePeriodDays planId organization (some existing)).map
      (·.planId) = some planId := by
  cases data with
  | other => exact (writes rfl).elim
  | _ => rfl

theorem StripeEventData.organizationAfter_plan {data : StripeEventData} {planId : String}
    {organization : Organization} (own : organization.planId = some planId ∨ data.leavesPlan = false)
    (writes : data ≠ .other) : (data.organizationAfter planId organization).planId = some planId := by
  cases data with
  | other => exact (writes rfl).elim
  | invoicePaymentSucceeded _ | invoicePaymentFailed _ =>
      rcases own with own | changes
      · exact own
      · cases changes
  | _ => rfl

theorem Writes.plansAgree {gracePeriodDays : Int} {event : StripeEvent}
    {organization : Organization} {planId : String}
    (writes : Writes choice gracePeriodDays event organization planId db db')
    (agree : db.PlansAgree) : db'.PlansAgree := by
  have row := StripeEventData.organization_found writes.named
  have written : event.data ≠ .other := by
    intro other
    have named := writes.named
    rw [other] at named
    cases named
  have kept {p : String} (there : (db.plan p).isSome) : (db'.plan p).isSome := by
    obtain ⟨plan, found⟩ := Option.isSome_iff_exists.mp there
    exact Option.isSome_of_eq_some (writes.plans p plan found)
  intro organization' there
  have found := Database.get_of_mem there
  rw [writes.organizations] at found
  split at found
  · rename_i same
    obtain ⟨subscription, subscribed, own, plan⟩ := agree organization (Table.get_eq_some.mp row).1
    have after : (event.data.subscriptionAfter choice gracePeriodDays planId organization
        (some subscription)).map (·.planId) = some planId :=
      StripeEventData.subscriptionAfter_plan written
    obtain ⟨subscription', after, planned⟩ := Option.map_eq_some_iff.mp after
    have plan' : (db'.plan planId).isSome := by
      rcases writes.plan with own' | there
      · rw [own] at own'
        exact kept (Option.some.inj own' ▸ plan)
      · exact there
    refine ⟨subscription', ?_, ?_, planned ▸ plan'⟩
    · rw [writes.subscriptions, if_pos same, same, subscribed]
      exact after
    · rw [← Option.some.inj found, planned]
      refine StripeEventData.organizationAfter_plan ?_ written
      cases leaves : event.data.leavesPlan with
      | true => exact .inl (by rw [writes.leaves leaves _ own]; exact own)
      | false => exact .inr rfl
  · rename_i other
    obtain ⟨subscription, subscribed, own, plan⟩ :=
      agree organization' (Table.get_eq_some.mp found).1
    exact ⟨subscription, by rw [writes.subscriptions, if_neg other]; exact subscribed, own,
      kept plan⟩

theorem provisionStripeCustomer_plans {reference customerId : String}
    (ran : provisionStripeCustomerForOrganization choice reference db = .ok (customerId, db')) :
    db'.plans = db.plans ∧ ∀ id, db'.organizationPlan id = db.organizationPlan id ∧
      db'.subscriptionPlan id = db.subscriptionPlan id := by
  rw [provisionStripeCustomerForOrganization, Tx.get_bind] at ran
  cases found : db.findOrganizationByReference reference with
  | none =>
      simp only [found] at ran
      exact (Tx.throw_ok ran).elim
  | some organization =>
      simp only [found] at ran
      have there : db.organizations.get (.id organization.id) = some organization :=
        Database.get_of_mem (List.mem_of_find?_eq_some found)
      cases paying : organization.stripeCustomerId.filter (· ≠ "") with
      | some customerId =>
          simp only [paying] at ran
          obtain ⟨rfl, rfl⟩ := Tx.pure_ok.mp ran
          exact ⟨rfl, fun _ => ⟨rfl, rfl⟩⟩
      | none =>
          simp only [paying] at ran
          obtain ⟨_, db₁, updated, ran⟩ := Tx.bind_ok.mp ran
          obtain ⟨frame₁, organizations⟩ := updateOrganization_ok (by intro _; rfl) there updated
          obtain ⟨_, db₂, subscribed, ran⟩ := Tx.bind_ok.mp ran
          obtain ⟨frame₂, subscriptions⟩ :=
            updateSubscriptions_of_organization (by intro _; rfl) subscribed
          obtain ⟨rfl, rfl⟩ := Tx.pure_ok.mp ran
          refine ⟨by rw [frame₂, frame₁], fun id => ⟨?_, ?_⟩⟩
          · have same : db₂.organizations = db₁.organizations := by rw [frame₂]
            rw [Database.organizationPlan, same, organizations]
            by_cases own : id = organization.id
            · rw [if_pos own, own, Database.organizationPlan, there]
              rfl
            · rw [if_neg own]
              rfl
          · have same : db₁.subscription id = db.subscription id := by rw [frame₁]; rfl
            rw [Database.subscriptionPlan, subscriptions, Database.subscriptionPlan]
            by_cases own : id = organization.id
            · rw [if_pos own, ← own, same, Option.map_map]
              rfl
            · rw [if_neg own, same]

/-- A new organization gets the starter plan, as does its subscription. -/
theorem createOrganization_plansAgree {organization : Organization}
    (ran : createOrganization choice db = .ok (organization, db')) (agree : db.PlansAgree) :
    db'.PlansAgree := by
  obtain ⟨starter, db₁, ensured, ran⟩ := Tx.bind_ok.mp ran
  obtain ⟨frame₁, plans, there⟩ := ensurePlanByCode_ok ensured
  dsimp only at ran
  rw [Tx.get_bind] at ran
  obtain ⟨organizations, _, checked, ran⟩ := Tx.bind_ok.mp ran
  obtain ⟨inserted, rfl⟩ := orViolation_ok checked
  obtain ⟨_, db₂, written, ran⟩ := Tx.bind_ok.mp ran
  obtain rfl := Tx.set_ok written
  obtain ⟨customerId, db₃, provisioned, ran⟩ := Tx.bind_ok.mp ran
  obtain ⟨plans₃, rows₃⟩ := provisionStripeCustomer_plans provisioned
  obtain ⟨_, db₄, subscribed, ran⟩ := Tx.bind_ok.mp ran
  obtain ⟨rfl, frame₄, subscriptions⟩ := createSubscription_ok subscribed
  obtain ⟨rfl, rfl⟩ := Tx.pure_ok.mp ran
  have kept (p : String) : db₄.plan p = db₁.plan p := by
    rw [frame₄, Database.plan, Database.plan, plans₃]
  rw [Database.plansAgree_iff] at agree ⊢
  intro id planId given
  have organizationPlan : db₄.organizationPlan id =
      if id = choice.organizationId then some (some starter.id) else db.organizationPlan id := by
    have same : db₄.organizationPlan id = db₃.organizationPlan id := by rw [frame₄]; rfl
    rw [same, (rows₃ id).1, Database.organizationPlan, Table.get_insert inserted, frame₁]
    have key : ((Column.id id : Schema.Key Organization) ∈ Schema.keys
        ({ id := choice.organizationId, tenantId := choice.tenantId,
           planId := some starter.id } : Organization)) ↔ id = choice.organizationId := by
      show Column.id id ∈ _ :: _ :: _ ↔ _
      simp
    simp only [key]
    split <;> rfl
  have subscriptionPlan : db₄.subscriptionPlan id =
      if id = choice.organizationId then some starter.id else db.subscriptionPlan id := by
    rw [Database.subscriptionPlan, subscriptions]
    split
    · rfl
    · refine (rows₃ id).2.trans ?_
      rw [frame₁]
      rfl
  rw [organizationPlan] at given
  rw [subscriptionPlan]
  split at given
  · rename_i new
    rw [if_pos new]
    exact ⟨starter.id, (Option.some.inj given).symm, rfl,
      by rw [kept, there]; rfl⟩
  · rename_i old
    rw [if_neg old]
    obtain ⟨p, own, planned, plan⟩ := agree id planId given
    obtain ⟨plan', found⟩ := Option.isSome_iff_exists.mp plan
    exact ⟨p, own, planned, by rw [kept, plans p plan' found]; rfl⟩

/-! ## Every history -/

theorem BillingCommand.plansAgree {gracePeriodDays : Int} {command : BillingCommand}
    (agree : db.PlansAgree) :
    ((command.transaction gracePeriodDays choice).commit db).PlansAgree := by
  rcases Tx.commit_cases (command.transaction gracePeriodDays choice) db with same | ⟨_, ran⟩
  · rw [same]
    exact agree
  · cases command with
    | createOrganization =>
        obtain ⟨organization, _, created, ran⟩ := Tx.bind_ok.mp ran
        obtain ⟨_, same⟩ := Tx.pure_ok.mp ran
        rw [← same]
        exact createOrganization_plansAgree created agree
    | processEvent event =>
        obtain ⟨context, _, processed, ran⟩ := Tx.bind_ok.mp ran
        obtain ⟨_, same⟩ := Tx.pure_ok.mp ran
        rw [← same]
        rcases process_writes processed with ⟨_, _, rfl⟩ | ⟨organization, planId, _, writes⟩
        · exact agree
        · exact writes.plansAgree agree

/-- After any organizations were created and any events processed, with whatever plans there
were, every organization has the plan of its subscription. -/
theorem plansAgree_runCommands (gracePeriodDays : Int) (plans : Table Plan)
    (commands : List (TxChoice × BillingCommand)) :
    (runCommands gracePeriodDays { plans } commands).PlansAgree := by
  induction commands using List.reverseRecOn with
  | nil =>
      intro organization there
      cases there
  | append_singleton commands command ih =>
      rw [runCommands, List.foldl_concat]
      exact BillingCommand.plansAgree ih

end Billing
