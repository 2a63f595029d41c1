import BirthHub.Billing.Writes

/-!
# Proration credits

A `customer.subscription.updated` event grants the credit that the metadata of the subscription
names, and without one the amount by which the price dropped. The metadata stays on the
subscription, so that a later event that changes something else finds it there again: over a
sequence of events the credits are those of its downgrades just when no other event names one.
-/

namespace Billing

open Data

/-! ## What an event is about -/

namespace StripeEvent

/-- The price of the subscription was lowered. -/
def lowersPrice (event : StripeEvent) : Bool :=
  match event.data with
  | .customerSubscriptionUpdated subscription previousItems =>
      (priceDrop subscription previousItems).isSome
  | _ => false

/-- The metadata of the subscription names a positive credit. -/
def namesCredit (event : StripeEvent) : Bool :=
  match event.data with
  | .customerSubscriptionUpdated subscription _ => (metadataCredit subscription.metadata).isSome
  | _ => false

/-- The credit of an event in cents. -/
def creditCents (event : StripeEvent) : ℚ :=
  match event.data with
  | .customerSubscriptionUpdated subscription previousItems =>
      resolveProrationCreditCents subscription previousItems
  | _ => 0

end StripeEvent

theorem priceDrop_pos {subscription : StripeSubscription} {previousItems : List StripeItem} {drop : Int}
    (dropped : priceDrop subscription previousItems = some drop) : 0 < drop := by
  unfold priceDrop at dropped
  split at dropped
  · split at dropped
    · cases dropped
      omega
    · cases dropped
  · cases dropped

theorem metadataCredit_pos {metadata : Metadata} {credit : ℚ}
    (named : metadataCredit metadata = some credit) : 0 < credit := by
  have positive := (Option.filter_eq_some_iff.mp named).2
  simpa using positive

/-- An event has a credit just when it lowers the price or names a credit. -/
theorem StripeEvent.creditCents_pos_iff {event : StripeEvent} :
    0 < event.creditCents ↔ event.lowersPrice = true ∨ event.namesCredit = true := by
  obtain ⟨id, data⟩ := event
  cases data with
  | customerSubscriptionUpdated subscription previousItems =>
      simp only [creditCents, lowersPrice, namesCredit, resolveProrationCreditCents]
      cases named : metadataCredit subscription.metadata with
      | some credit => simp [metadataCredit_pos named]
      | none =>
          cases dropped : priceDrop subscription previousItems with
          | some drop => simp [priceDrop_pos dropped]
          | none => simp
  | _ => simp [creditCents, lowersPrice, namesCredit]

theorem StripeEvent.creditCents_nonneg (event : StripeEvent) : 0 ≤ event.creditCents := by
  obtain ⟨id, data⟩ := event
  cases data with
  | customerSubscriptionUpdated subscription previousItems =>
      simp only [creditCents, resolveProrationCreditCents]
      cases named : metadataCredit subscription.metadata with
      | some credit => exact (metadataCredit_pos named).le
      | none =>
          cases dropped : priceDrop subscription previousItems with
          | some drop =>
              show (0 : ℚ) ≤ (drop : ℚ)
              exact_mod_cast (priceDrop_pos dropped).le
          | none => exact le_refl _
  | _ => exact le_refl _

/-! ## Sequences of events -/

/-- The events are processed one after another. -/
inductive Processes (gracePeriodDays : Int) : Database → List StripeEvent → Database → Prop
  | nil {db : Database} : Processes gracePeriodDays db [] db
  | event {db db₁ db₂ : Database} {events : List StripeEvent} {choice : TxChoice}
      {event : StripeEvent} {context : StripeBillingEventContext}
      (before : Processes gracePeriodDays db events db₁)
      (processed : processStripeBillingEvent choice gracePeriodDays event db₁ = .ok (context, db₂)) :
      Processes gracePeriodDays db (events ++ [event]) db₂

/-- Credits are granted for the downgrades among the events, and for nothing else. -/
def GrantedPerDowngrade (events : List StripeEvent) (db db' : Database) : Prop :=
  ∃ granted, db'.credits.rows = db.credits.rows ++ granted ∧
    (∀ credit ∈ granted, 0 < credit.amountCents ∧
      ∃ event ∈ events, event.id = credit.stripeEventId ∧ event.lowersPrice = true) ∧
    ((granted.map fun credit => (credit.amountCents : ℚ)).sum =
      ((events.filter (·.lowersPrice)).map (·.creditCents)).sum)

theorem process_grants {choice : TxChoice} {gracePeriodDays : Int} {event : StripeEvent}
    {db db' : Database} {context : StripeBillingEventContext}
    (ran : processStripeBillingEvent choice gracePeriodDays event db = .ok (context, db')) :
    ∃ granted, db'.credits.rows = db.credits.rows ++ granted ∧
      (∀ credit ∈ granted, 0 < credit.amountCents ∧ event.id = credit.stripeEventId ∧
        0 < event.creditCents) ∧
      (granted.map fun credit => (credit.amountCents : ℚ)).sum = event.creditCents := by
  have none (same : db'.credits.rows = db.credits.rows) (free : event.creditCents ≤ 0) :
      ∃ granted, db'.credits.rows = db.credits.rows ++ granted ∧
        (∀ credit ∈ granted, 0 < credit.amountCents ∧ event.id = credit.stripeEventId ∧
          0 < event.creditCents) ∧
        (granted.map fun credit => (credit.amountCents : ℚ)).sum = event.creditCents :=
    ⟨[], by simp [same], by simp, by simp [le_antisymm free event.creditCents_nonneg]⟩
  rcases process_writes ran with ⟨other, _, rfl⟩ | ⟨organization, planId, _, writes⟩
  · exact none rfl (by simp [StripeEvent.creditCents, other])
  · have credits := writes.credits
    obtain ⟨id, data⟩ := event
    cases data with
    | customerSubscriptionUpdated subscription previousItems =>
        rcases credits with ⟨free, same⟩ | ⟨credit, rows, own, _, positive, amount⟩
        · exact none same free
        · refine ⟨[credit], rows, fun c one => ?_, by simp [StripeEvent.creditCents, amount]⟩
          rw [List.mem_singleton.mp one]
          refine ⟨positive, own.symm, ?_⟩
          simp only [StripeEvent.creditCents, amount]
          exact_mod_cast positive
    | _ => exact none credits (le_refl _)

theorem Processes.grants {gracePeriodDays : Int} {events : List StripeEvent} {db db' : Database}
    (ran : Processes gracePeriodDays db events db') :
    ∃ granted, db'.credits.rows = db.credits.rows ++ granted ∧
      (∀ credit ∈ granted, 0 < credit.amountCents ∧
        ∃ event ∈ events, event.id = credit.stripeEventId ∧ 0 < event.creditCents) ∧
      (granted.map fun credit => (credit.amountCents : ℚ)).sum =
        (events.map (·.creditCents)).sum := by
  induction ran with
  | nil => exact ⟨[], by simp, by simp, by simp⟩
  | event before processed ih =>
      obtain ⟨granted, rows, each, total⟩ := ih
      obtain ⟨granted', rows', each', total'⟩ := process_grants processed
      refine ⟨granted ++ granted', by rw [rows', rows, List.append_assoc], fun credit one => ?_, ?_⟩
      · rcases List.mem_append.mp one with first | last
        · obtain ⟨positive, event, there, rest⟩ := each credit first
          exact ⟨positive, event, List.mem_append_left _ there, rest⟩
        · obtain ⟨positive, rest⟩ := each' credit last
          exact ⟨positive, _, List.mem_append_right _ (List.mem_singleton.mpr rfl), rest⟩
      · simp [total, total']

/-- The credits of a list of events are those of its downgrades and those of the others. -/
theorem sum_creditCents (events : List StripeEvent) :
    (events.map (·.creditCents)).sum =
      ((events.filter (·.lowersPrice)).map (·.creditCents)).sum +
        ((events.filter fun event => !event.lowersPrice).map (·.creditCents)).sum := by
  induction events with
  | nil => simp
  | cons event events ih =>
      cases lowers : event.lowersPrice <;> simp [lowers, ih] <;> ring

/-- An event that names a credit and does not lower the price is credited all the same. -/
theorem Processes.not_grantedPerDowngrade {gracePeriodDays : Int} {events : List StripeEvent}
    {db db' : Database} (ran : Processes gracePeriodDays db events db') {event : StripeEvent}
    (there : event ∈ events) (named : event.namesCredit = true) (other : event.lowersPrice = false) :
    ¬ GrantedPerDowngrade events db db' := by
  rintro ⟨granted', rows', _, total'⟩
  obtain ⟨granted, rows, _, total⟩ := ran.grants
  have same : granted' = granted := List.append_cancel_left (rows'.symm.trans rows)
  rw [same, total, sum_creditCents] at total'
  have others : ((events.filter fun event => !event.lowersPrice).map (·.creditCents)).sum = 0 := by
    linarith
  have zero : event.creditCents = 0 := by
    refine List.all_zero_of_le_zero_le_of_sum_eq_zero (fun x member => ?_) others
      (List.mem_map.mpr ⟨event, List.mem_filter.mpr ⟨there, by simp [other]⟩, rfl⟩)
    obtain ⟨event', _, rfl⟩ := List.mem_map.mp member
    exact event'.creditCents_nonneg
  exact (StripeEvent.creditCents_pos_iff.mpr (.inr named)).ne' zero

/-- Over a sequence of processed events credits are granted for its downgrades alone, just when
every event whose metadata names a credit lowered the price. -/
theorem grantedPerDowngrade_iff {gracePeriodDays : Int} {events : List StripeEvent}
    {db db' : Database} (ran : Processes gracePeriodDays db events db') :
    GrantedPerDowngrade events db db' ↔
      ∀ event ∈ events, event.namesCredit = true → event.lowersPrice = true := by
  constructor
  · intro granted event there named
    by_contra other
    exact ran.not_grantedPerDowngrade there named (Bool.eq_false_iff.mpr other) granted
  · intro lowers
    obtain ⟨granted, rows, each, total⟩ := ran.grants
    have cause {event : StripeEvent} (there : event ∈ events) (positive : 0 < event.creditCents) :
        event.lowersPrice = true := by
      rcases StripeEvent.creditCents_pos_iff.mp positive with lowered | named
      · exact lowered
      · exact lowers event there named
    refine ⟨granted, rows, fun credit one => ?_, ?_⟩
    · obtain ⟨positive, event, there, own, credited⟩ := each credit one
      exact ⟨positive, event, there, own, cause there credited⟩
    · have others : ((events.filter fun event => !event.lowersPrice).map (·.creditCents)).sum = 0 := by
        refine List.sum_eq_zero fun x member => ?_
        obtain ⟨event, kept, rfl⟩ := List.mem_map.mp member
        obtain ⟨there, other⟩ := List.mem_filter.mp kept
        by_contra nonzero
        have positive : 0 < event.creditCents :=
          lt_of_le_of_ne event.creditCents_nonneg (Ne.symm nonzero)
        rw [cause there positive] at other
        cases other
      rw [total, sum_creditCents, others, add_zero]

/-! ### A downgrade and what comes after it -/

/-- One organization on the starter plan. -/
def soldDatabase : Database where
  plans := ⟨[newPlan "plan" "starter"], by decide⟩
  organizations := ⟨[{ id := "org", tenantId := "tenant", planId := some "plan",
                       stripeCustomerId := some "cus" }], by decide⟩
  subscriptions := ⟨[{ id := "sub", organizationId := "org", tenantId := "tenant", planId := "plan",
                       updatedAt := 0 }], by decide⟩

/-- The subscription with the credit of its downgrade in the metadata. -/
def credited : StripeSubscription where
  id := "stripe_sub"
  customer := some "cus"
  items := [{ price := some { id := some "price_starter_monthly", unit_amount := some 4900 } }]
  metadata := [("proration_credit_cents", "2500")]

def downgrade : StripeEvent where
  id := "evt_1"
  data := .customerSubscriptionUpdated credited [{ price := some { unit_amount := some 14900 } }]

/-- Another field of the subscription changes. -/
def renewal : StripeEvent where
  id := "evt_2"
  data := .customerSubscriptionUpdated { credited with status := "past_due" } []

/-- The database after the event; if that throws it is as before. -/
def after (db : Database) (event : StripeEvent) : Database :=
  match processStripeBillingEvent {} 3 event db with
  | .ok (_, db') => db'
  | .error _ => db

theorem processes_after {db : Database} {event : StripeEvent}
    (processed : (processStripeBillingEvent {} 3 event db).isOk = true) :
    ∃ context, processStripeBillingEvent {} 3 event db = .ok (context, after db event) := by
  unfold after
  cases ran : processStripeBillingEvent {} 3 event db with
  | error e =>
      rw [ran] at processed
      cases processed
  | ok r => exact ⟨r.1, rfl⟩

theorem processes_downgrade :
    Processes 3 soldDatabase [downgrade] (after soldDatabase downgrade) := by
  obtain ⟨context, processed⟩ := processes_after
    (show (processStripeBillingEvent {} 3 downgrade soldDatabase).isOk = true by decide +kernel)
  exact Processes.nil.event processed

/-- The downgrade alone is credited once. -/
theorem downgrade_grantedPerDowngrade :
    Processes 3 soldDatabase [downgrade] (after soldDatabase downgrade) ∧
      (after soldDatabase downgrade).credits.rows.map (·.amountCents) = [2500] ∧
      GrantedPerDowngrade [downgrade] soldDatabase (after soldDatabase downgrade) :=
  ⟨processes_downgrade, by decide +kernel,
    (grantedPerDowngrade_iff processes_downgrade).mpr (by decide +kernel)⟩

/-- The event after it is credited again. -/
theorem renewal_not_grantedPerDowngrade :
    ∃ db, Processes 3 soldDatabase [downgrade, renewal] db ∧ renewal.lowersPrice = false ∧
      db.credits.rows.map (·.amountCents) = [2500, 2500] ∧
      ¬ GrantedPerDowngrade [downgrade, renewal] soldDatabase db := by
  obtain ⟨context, processed⟩ := processes_after (show (processStripeBillingEvent {} 3
    renewal (after soldDatabase downgrade)).isOk = true by decide +kernel)
  have ran : Processes 3 soldDatabase [downgrade, renewal] _ := processes_downgrade.event processed
  exact ⟨_, ran, by decide +kernel, by decide +kernel,
    ran.not_grantedPerDowngrade (List.mem_cons_of_mem _ List.mem_cons_self) (by decide +kernel)
      (by decide)⟩

end Billing
