import BirthHub.Billing.Service
import BirthHub.Billing.Writes
import BirthHub.Effect.Serial

/-!
# Snapshots at one instant

Calls of `getBillingSnapshot` and `resolveBillingLock` at one instant over a database that
nothing else writes, and none of whose operations fails. With empty caches API and worker agree
on the lock of an organization. With the cache a call gives what it would give without, just
when the call that filled its key asked for the same organization and, where that matters, for
as many days.
-/

namespace Billing

open Data Effect

/-! ## The instant -/

/-- No row has or names the id. -/
def Database.isFreshPlanId (db : Database) (id : String) : Bool :=
  (db.plan id).isNone && db.organizations.rows.all (·.planId ≠ some id) &&
    db.subscriptions.rows.all (·.planId ≠ id)

/-- A plan is created under an id that was never used. -/
def BillingStore.admits (planId : String) (store : BillingStore) : BillingOp → Bool
  | .createPlan _ => store.db.isFreshPlanId planId
  | _ => true

/-- Calls of `getBillingSnapshot` with a reference and a number of days at the time `now`. -/
def atInstant (now : Int) : System BillingIface (String × Int) BillingStore (BillingSnapshot Value) where
  Choice := String
  handle o planId store :=
    if store.admits planId o then store.perform 0 { now, planId } o else none
  program request := getBillingSnapshot request.1 request.2
  Env := Empty
  env event := nomatch event

section

variable {now : Int} {s s' : BillingStore} {planId : String}

theorem at_now {a : BillingIface.Answer .now}
    (answered : (atInstant now).handle .now planId s = some (a, s')) : a = .ok now ∧ s' = s := by
  cases answered
  exact ⟨rfl, rfl⟩

theorem at_readCache {key : String} {a : BillingIface.Answer (.readCache key)}
    (answered : (atInstant now).handle (.readCache key) planId s = some (a, s')) :
    a = .ok (s.cache.lookup key) ∧ s' = s := by
  cases answered
  exact ⟨rfl, rfl⟩

theorem at_writeCache {key value : String} {a : BillingIface.Answer (.writeCache key value)}
    (answered : (atInstant now).handle (.writeCache key value) planId s = some (a, s')) :
    a = .ok () ∧ s' = s.writeCache key value := by
  cases answered
  exact ⟨rfl, rfl⟩

theorem at_findOrganization {reference : String}
    {a : BillingIface.Answer (.findOrganization reference)}
    (answered : (atInstant now).handle (.findOrganization reference) planId s = some (a, s')) :
    a = .ok (s.db.record reference) ∧ s' = s := by
  cases answered
  exact ⟨rfl, rfl⟩

theorem at_creditBalance {organizationId : String}
    {a : BillingIface.Answer (.creditBalance organizationId)}
    (answered : (atInstant now).handle (.creditBalance organizationId) planId s = some (a, s')) :
    a = .ok (s.db.creditBalanceCents organizationId) ∧ s' = s := by
  cases answered
  exact ⟨rfl, rfl⟩

theorem at_findPlan {code : String} {a : BillingIface.Answer (.findPlan code)}
    (answered : (atInstant now).handle (.findPlan code) planId s = some (a, s')) :
    a = .ok (s.db.plans.get (.code (normalizePlanCode code))) ∧ s' = s := by
  cases answered
  exact ⟨rfl, rfl⟩

end

/-! ## What a snapshot is computed from -/

/-- `subscription?.plan ?? organization.plan`. -/
def OrganizationRecord.ownPlan (found : OrganizationRecord) : Option Plan :=
  found.subscriptionPlan <|> found.plan

def Database.starter (db : Database) : Option Plan := db.plans.get (.code "starter")

/-- The starter plan is there, or nothing keeps it from being created. -/
def Database.hasStarter (db : Database) : Bool :=
  db.starter.isSome || db.plans.rows.all fun plan =>
    plan.stripeProductId ≠ some starterDefaults.stripeProductId ∧
      plan.stripePriceId ≠ some starterDefaults.stripePriceId

/-- The snapshot of an organization whose plan is there. -/
def Database.snapshot (db : Database) (now : Int) (reference : String) (gracePeriodDays : Int) :
    Option (BillingSnapshot Json) :=
  (db.record reference).bind fun found => (found.ownPlan <|> db.starter).map fun plan =>
    billingSnapshot found.organization found.subscription plan
      (db.creditBalanceCents found.organization.id) gracePeriodDays now

/-- The deadline and the end of the period are dates. -/
def datesValid (subscription : Option Subscription) (gracePeriodDays : Int) : Bool :=
  ((subscription.bind (·.currentPeriodEnd)).map Date.ofTime).all (·.time.isSome) &&
    (resolveGracePeriodEndsAt subscription gracePeriodDays).all (·.time.isSome)

/-- The computation of a snapshot succeeds. -/
def Database.answers (db : Database) (request : String × Int) : Bool :=
  match db.record request.1 with
  | none => false
  | some found =>
      (found.ownPlan.isSome || db.hasStarter) && datesValid found.subscription request.2

theorem serialize_billingSnapshot {organization : Organization} {subscription : Option Subscription}
    {plan : Plan} {credit gracePeriodDays now : Int} :
    (serializeBillingSnapshot (billingSnapshot organization subscription plan credit
      gracePeriodDays now)).isSome = datesValid subscription gracePeriodDays := by
  rw [Bool.eq_iff_iff, serialize_isSome]
  simp [billingSnapshot, datesValid, Option.all_eq_true]

/-- The database after a call: at most the starter plan was created. -/
structure Extends (db db' : Database) : Prop where
  organizations : db'.organizations = db.organizations
  subscriptions : db'.subscriptions = db.subscriptions
  credits : db'.credits = db.credits
  record : ∀ reference, db'.record reference = db.record reference
  starter : ∀ plan, db.starter = some plan → db'.starter = some plan
  hasStarter : db'.hasStarter = db.hasStarter

theorem Extends.refl (db : Database) : Extends db db :=
  ⟨rfl, rfl, rfl, fun _ => rfl, fun _ found => found, rfl⟩

theorem Extends.trans {db db' db'' : Database} (first : Extends db db') (second : Extends db' db'') :
    Extends db db'' where
  organizations := second.organizations.trans first.organizations
  subscriptions := second.subscriptions.trans first.subscriptions
  credits := second.credits.trans first.credits
  record reference := (second.record reference).trans (first.record reference)
  starter plan found := second.starter plan (first.starter plan found)
  hasStarter := second.hasStarter.trans first.hasStarter

theorem Extends.snapshot {db db' : Database} (ext : Extends db db') {now : Int}
    {reference : String} {days : Int} {snapshot : BillingSnapshot Json}
    (given : db.snapshot now reference days = some snapshot) :
    db'.snapshot now reference days = some snapshot := by
  obtain ⟨found, there, given⟩ := Option.bind_eq_some_iff.mp given
  obtain ⟨plan, planned, rfl⟩ := Option.map_eq_some_iff.mp given
  have planned' : (found.ownPlan <|> db'.starter) = some plan := by
    rcases (Option.orElse_eq_some _ _ _).mp planned with own | ⟨absent, starter⟩
    · exact (Option.orElse_eq_some _ _ _).mpr (.inl own)
    · exact (Option.orElse_eq_some _ _ _).mpr (.inr ⟨absent, ext.starter plan starter⟩)
  rw [Database.snapshot, ext.record, there]
  simp only [Option.bind_some, planned', Option.map_some, Database.creditBalanceCents, ext.credits]

theorem Extends.answers {db db' : Database} (ext : Extends db db') (request : String × Int) :
    db'.answers request = db.answers request := by
  rw [Database.answers, Database.answers, ext.record, ext.hasStarter]

/-! ## The starter plan -/

section

variable {now : Int} {s s' : BillingStore} {planId : String}

theorem mem_keys_plan {plan : Plan} {key : Column} :
    key ∈ Schema.keys plan ↔ key = .id plan.id ∨ key = .code plan.code ∨
      (∃ product, plan.stripeProductId = some product ∧ key = .stripeProductId product) ∨
      ∃ price, plan.stripePriceId = some price ∧ key = .stripePriceId price := by
  show _ ∈ _ :: _ :: _ ↔ _
  simp [eq_comm]

theorem mem_keys_newPlan {key : Column} :
    key ∈ Schema.keys (newPlan planId "starter") ↔ key = .id planId ∨ key = .code "starter" ∨
      key = .stripeProductId starterDefaults.stripeProductId ∨
      key = .stripePriceId starterDefaults.stripePriceId := by
  rw [mem_keys_plan]
  simp [newPlan, defaultPlan]

theorem plan_of_insert {db : Database} {plans : Table Plan} {p : String} (other : p ≠ planId)
    (inserted : db.plans.insert (newPlan planId "starter") = some plans) :
    ({ db with plans } : Database).plan p = db.plan p := by
  refine (Table.get_insert inserted).trans (if_neg ?_)
  show Column.id p ∉ _ :: _ :: _
  simp [newPlan, other]

theorem hasStarter_of_insert {db : Database} {plans : Table Plan}
    (inserted : db.plans.insert (newPlan planId "starter") = some plans) : db.hasStarter = true := by
  have apart := (Table.insert_eq_some.mp inserted).2
  rw [Database.hasStarter, Bool.or_eq_true, List.all_eq_true]
  refine .inr fun plan there => ?_
  have free := apart plan there
  rw [decide_eq_true_eq]
  constructor
  · intro product
    have mine : Column.stripeProductId starterDefaults.stripeProductId ∈ Schema.keys plan := by
      show _ ∈ _ :: _ :: _
      simp [product]
    exact free mine (mem_keys_newPlan.mpr (.inr (.inr (.inl rfl))))
  · intro price
    have mine : Column.stripePriceId starterDefaults.stripePriceId ∈ Schema.keys plan := by
      show _ ∈ _ :: _ :: _
      simp [price]
    exact free mine (mem_keys_newPlan.mpr (.inr (.inr (.inr rfl))))

/-- The starter plan is created unless a plan has its code, its product or its price. -/
theorem insert_isSome {db : Database} (fresh : db.isFreshPlanId planId = true)
    (absent : db.starter = none) (has : db.hasStarter = true) :
    ∃ plans, db.plans.insert (newPlan planId "starter") = some plans := by
  simp only [Database.isFreshPlanId, Bool.and_eq_true, Option.isNone_iff_eq_none] at fresh
  rw [Database.hasStarter, absent, Option.isSome_none, Bool.false_or, List.all_eq_true] at has
  refine Table.exists_insert fun plan there key mine starters => ?_
  have apart := has plan there
  rw [decide_eq_true_eq] at apart
  rcases mem_keys_newPlan.mp starters with rfl | rfl | rfl | rfl
  · exact Table.get_eq_none.mp fresh.1.1 plan there mine
  · exact Table.get_eq_none.mp absent plan there mine
  · rcases mem_keys_plan.mp mine with same | same | ⟨product, named, same⟩ | ⟨price, named, same⟩
    · cases same
    · cases same
    · cases same
      exact apart.1 named
    · cases same
  · rcases mem_keys_plan.mp mine with same | same | ⟨product, named, same⟩ | ⟨price, named, same⟩
    · cases same
    · cases same
    · cases same
    · cases same
      exact apart.2 named

theorem extends_of_insert {db : Database} {plans : Table Plan} (fresh : db.isFreshPlanId planId = true)
    (absent : db.starter = none)
    (inserted : db.plans.insert (newPlan planId "starter") = some plans) :
    Extends db { db with plans } ∧ ({ db with plans } : Database).starter =
      some (newPlan planId "starter") := by
  have starter : ({ db with plans } : Database).starter = some (newPlan planId "starter") :=
    (Table.get_insert inserted).trans (if_pos (List.mem_cons_of_mem _ List.mem_cons_self))
  simp only [Database.isFreshPlanId, Bool.and_eq_true, List.all_eq_true, decide_eq_true_eq] at fresh
  refine ⟨⟨rfl, rfl, rfl, fun reference => ?_, fun plan found => ?_, ?_⟩, starter⟩
  · unfold Database.record
    have same : ({ db with plans } : Database).findOrganizationByReference reference =
      db.findOrganizationByReference reference := rfl
    rw [same]
    cases found : db.findOrganizationByReference reference with
    | none => rfl
    | some organization =>
        have own : organization.planId.bind ({ db with plans } : Database).plan =
            organization.planId.bind db.plan := by
          cases named : organization.planId with
          | none => rfl
          | some p =>
              refine plan_of_insert (fun same => ?_) inserted
              exact fresh.1.2 organization (List.mem_of_find?_eq_some found) (by rw [named, same])
        have subscribed : (({ db with plans } : Database).subscription organization.id).bind
            (fun row => ({ db with plans } : Database).plan row.planId) =
            (db.subscription organization.id).bind fun row => db.plan row.planId := by
          cases there : db.subscription organization.id with
          | none =>
              have same : ({ db with plans } : Database).subscription organization.id = none := there
              rw [same]
              rfl
          | some row =>
              have same : ({ db with plans } : Database).subscription organization.id = some row :=
                there
              rw [same]
              exact plan_of_insert (fresh.2 row (Table.get_eq_some.mp there).1) inserted
        simp only [Option.map_some, own, subscribed]
        rfl
  · rw [absent] at found
    cases found
  · rw [hasStarter_of_insert inserted, Database.hasStarter, starter]
    rfl

theorem normalizePlanCode_starter : normalizePlanCode "starter" = "starter" := by decide +kernel

theorem createPlan_starter {choice : TxChoice} {db : Database} :
    BillingStore.createPlan choice "starter" db =
      match db.plans.insert (newPlan choice.planId "starter") with
      | some plans => .ok (newPlan choice.planId "starter", { db with plans })
      | none => .error uniqueViolation := by
  unfold BillingStore.createPlan
  rw [normalizePlanCode_starter, Tx.get_bind]
  cases db.plans.insert (newPlan choice.planId "starter") <;> rfl

theorem transact_createPlan {choice : TxChoice} :
    s.transact (BillingStore.createPlan choice "starter") =
      match s.db.plans.insert (newPlan choice.planId "starter") with
      | some plans => (.ok (newPlan choice.planId "starter"), { s with db := { s.db with plans } })
      | none => (.error uniqueViolation, s) := by
  unfold BillingStore.transact
  rw [createPlan_starter]
  cases s.db.plans.insert (newPlan choice.planId "starter") <;> rfl

theorem exec_ensureStarterPlan {x : Except Thrown Plan}
    (ran : (atInstant now).Exec ensureStarterPlan s x s') :
    (∃ plan, x = .ok plan ∧ s'.db.starter = some plan ∧ Extends s.db s'.db ∧ s'.cache = s.cache ∧
      s.db.hasStarter = true) ∨
    ∃ e, x = .error e ∧ s' = s ∧ s.db.starter = none ∧ s.db.hasStarter = false := by
  rcases System.exec_performBind.mp ran with ⟨e, _, _, failed⟩ | ⟨found, planId, s₁, answered, rest⟩
  · cases (at_findPlan failed).1
  obtain ⟨same, rfl⟩ := at_findPlan answered
  rw [normalizePlanCode_starter] at same
  have found' : s₁.db.starter = found := (Except.ok.inj same).symm
  cases found with
  | some plan =>
      obtain ⟨rfl, rfl⟩ := System.exec_pure.mp rest
      exact .inl ⟨plan, rfl, found', .refl _, rfl, by rw [Database.hasStarter, found']; rfl⟩
  | none =>
      obtain ⟨id, answered⟩ := System.exec_perform.mp rest
      obtain ⟨fresh, created⟩ := Option.ite_none_right_eq_some.mp answered
      have made := transact_createPlan.symm.trans (Option.some.inj created)
      cases inserted : s₁.db.plans.insert (newPlan id "starter") with
      | some plans =>
          obtain ⟨ext, starter⟩ := extends_of_insert fresh found' inserted
          rw [inserted] at made
          obtain ⟨rfl, rfl⟩ := Prod.mk.inj made
          exact .inl ⟨_, rfl, starter, ext, rfl, hasStarter_of_insert inserted⟩
      | none =>
          rw [inserted] at made
          obtain ⟨rfl, rfl⟩ := Prod.mk.inj made
          refine .inr ⟨_, rfl, rfl, found', ?_⟩
          by_contra has
          obtain ⟨plans, created⟩ := insert_isSome fresh found' (by simpa using has)
          rw [inserted] at created
          cases created

theorem exec_planOfRecord {found : OrganizationRecord} {x : Except Thrown Plan}
    (ran : (atInstant now).Exec (planOfRecord found) s x s') :
    (∃ plan, x = .ok plan ∧ (found.ownPlan <|> s'.db.starter) = some plan ∧ Extends s.db s'.db ∧
      s'.cache = s.cache ∧ (found.ownPlan.isSome || s.db.hasStarter) = true) ∨
    ∃ e, x = .error e ∧ s' = s ∧ (found.ownPlan.isSome || s.db.hasStarter) = false := by
  unfold planOfRecord at ran
  cases own : found.ownPlan with
  | some plan =>
      rw [OrganizationRecord.ownPlan] at own
      rw [own] at ran
      obtain ⟨rfl, rfl⟩ := System.exec_pure.mp ran
      exact .inl ⟨plan, rfl, rfl, .refl _, rfl, rfl⟩
  | none =>
      rw [OrganizationRecord.ownPlan] at own
      rw [own] at ran
      rcases exec_ensureStarterPlan ran with ⟨plan, rfl, starter, ext, cache, has⟩ |
        ⟨e, rfl, rfl, _, has⟩
      · exact .inl ⟨plan, rfl, starter, ext, cache, has⟩
      · exact .inr ⟨e, rfl, rfl, has⟩

/-! ## What a miss caches -/

theorem BillingStore.lookup_writeCache {key value k : String} :
    (s.writeCache key value).cache.lookup k = if k = key then some value else s.cache.lookup k := by
  unfold BillingStore.writeCache
  by_cases same : k = key
  · rw [if_pos same, List.lookup_cons, same, beq_self_eq_true]
  · rw [if_neg same, List.lookup_cons, beq_false_of_ne same]
    induction s.cache with
    | nil => rfl
    | cons entry rest ih =>
        by_cases its : entry.1 = key
        · have other : k ≠ entry.1 := fun other => same (other.trans its)
          rw [List.filter_cons_of_neg (by simpa using its), List.lookup_cons, beq_false_of_ne other]
          exact ih
        · rw [List.filter_cons_of_pos (by simpa using its), List.lookup_cons, List.lookup_cons]
          cases k == entry.1
          · exact ih
          · rfl

theorem exec_awaitWrites {text : String} {references : List String} {x : Except Thrown Unit}
    (ran : (atInstant now).Exec (awaitAll (references.map fun reference =>
      awaitBilling (.writeCache (billingSnapshotCacheKey reference) text))) s x s') :
    x = .ok () ∧ s'.db = s.db ∧ ∀ k, s'.cache.lookup k =
      if k ∈ references.map billingSnapshotCacheKey then some text else s.cache.lookup k := by
  induction references generalizing s with
  | nil =>
      obtain ⟨rfl, rfl⟩ := System.exec_pure.mp ran
      exact ⟨rfl, rfl, fun k => rfl⟩
  | cons reference rest ih =>
      cases ran with
      | op answered others =>
          obtain ⟨rfl, rfl⟩ := at_writeCache answered
          obtain ⟨ended, db, cached⟩ := ih others
          refine ⟨ended, db, fun k => ?_⟩
          rw [cached, BillingStore.lookup_writeCache, List.map_cons]
          by_cases later : k ∈ rest.map billingSnapshotCacheKey
          · rw [if_pos later, if_pos (List.mem_cons_of_mem _ later)]
          · rw [if_neg later]
            by_cases same : k = billingSnapshotCacheKey reference
            · rw [if_pos same, same, if_pos List.mem_cons_self]
            · rw [if_neg same, if_neg (fun there => (List.mem_cons.mp there).elim same later)]

/-- The keys under which the snapshot of an organization is cached. -/
def Organization.cacheKeys (organization : Organization) : List String :=
  [billingSnapshotCacheKey organization.id, billingSnapshotCacheKey organization.tenantId]

theorem Database.record_eq_some {db : Database} {reference : String} {found : OrganizationRecord}
    (there : db.record reference = some found) :
    db.findOrganizationByReference reference = some found.organization ∧
      (reference = found.organization.id ∨ reference = found.organization.tenantId) := by
  obtain ⟨organization, located, rfl⟩ := Option.map_eq_some_iff.mp there
  have named := List.find?_some located
  rw [decide_eq_true_eq] at named
  exact ⟨located, named.imp Eq.symm Eq.symm⟩

/-- The reference of a call is one of the organization found, and adds no key. -/
theorem mem_snapshotReferences {α : Type} {snapshot : BillingSnapshot α}
    {organization : Organization} {reference k : String}
    (id : snapshot.organizationId = organization.id)
    (tenant : snapshot.tenantId = organization.tenantId)
    (named : reference = organization.id ∨ reference = organization.tenantId) :
    k ∈ (snapshotReferences snapshot reference).map billingSnapshotCacheKey ↔
      k ∈ organization.cacheKeys := by
  have same : ∀ r, r ∈ snapshotReferences snapshot reference ↔
      r = organization.id ∨ r = organization.tenantId := by
    intro r
    rw [snapshotReferences, List.mem_eraseDups, id, tenant]
    by_cases given : reference = ""
    · simp [given]
    · rw [if_neg given]
      rcases named with rfl | rfl <;> simp [or_comm]
  simp only [List.mem_map, same, Organization.cacheKeys, List.mem_cons, List.not_mem_nil, or_false]
  constructor
  · rintro ⟨r, rfl | rfl, rfl⟩
    · exact .inl rfl
    · exact .inr rfl
  · rintro (rfl | rfl)
    · exact ⟨_, .inl rfl, rfl⟩
    · exact ⟨_, .inr rfl, rfl⟩

/-- A computation returns the snapshot and caches its text under the keys of the organization,
or fails where it must and leaves the cache as it was. -/
theorem exec_compute {request : String × Int} {x : Except Thrown (BillingSnapshot Value)}
    (ran : (atInstant now).Exec (computeBillingSnapshot request.1 request.2) s x s') :
    Extends s.db s'.db ∧
    ((∃ snapshot text organization, x = .ok snapshot.meaning ∧ s.db.answers request = true ∧
        s.db.findOrganizationByReference request.1 = some organization ∧
        s'.db.snapshot now request.1 request.2 = some snapshot ∧
        serializeBillingSnapshot snapshot = some text ∧
        ∀ k, s'.cache.lookup k =
          if k ∈ organization.cacheKeys then some text else s.cache.lookup k) ∨
      ∃ e, x = .error e ∧ s.db.answers request = false ∧ s'.cache = s.cache) := by
  rcases System.exec_performBind.mp ran with ⟨e, _, _, failed⟩ | ⟨found, _, s₁, answered, rest⟩
  · cases (at_findOrganization failed).1
  obtain ⟨same, rfl⟩ := at_findOrganization answered
  cases Except.ok.inj same
  cases located : s₁.db.record request.1 with
  | none =>
      rw [located] at rest
      obtain ⟨rfl, rfl⟩ := System.exec_throw.mp rest
      exact ⟨.refl _, .inr ⟨_, rfl, by rw [Database.answers, located], rfl⟩⟩
  | some found =>
      rw [located] at rest
      obtain ⟨organization, named⟩ := Database.record_eq_some located
      have answers : s₁.db.answers request = ((found.ownPlan.isSome || s₁.db.hasStarter) &&
          datesValid found.subscription request.2) := by
        rw [Database.answers, located]
      rcases System.exec_bind.mp rest with ⟨e, rfl, failed⟩ | ⟨plan, s₂, planned, rest⟩
      · rcases exec_planOfRecord failed with ⟨_, done, _⟩ | ⟨_, _, rfl, absent⟩
        · cases done
        · exact ⟨.refl _, .inr ⟨e, rfl, by rw [answers, absent]; rfl, rfl⟩⟩
      rcases exec_planOfRecord planned with ⟨_, done, its, ext, cache, has⟩ | ⟨_, failed, _⟩
      swap
      · cases failed
      cases Except.ok.inj done
      rw [has, Bool.true_and] at answers
      rcases System.exec_performBind.mp rest with ⟨e, _, _, failed⟩ | ⟨credit, _, s₃, answered, rest⟩
      · cases (at_creditBalance failed).1
      obtain ⟨same, rfl⟩ := at_creditBalance answered
      cases Except.ok.inj same
      rcases System.exec_performBind.mp rest with ⟨e, _, _, failed⟩ | ⟨t, _, s₄, answered, rest⟩
      · cases (at_now failed).1
      obtain ⟨clock, rfl⟩ := at_now answered
      have instant : t = now := Except.ok.inj clock
      rw [instant] at rest
      have computed : s₄.db.snapshot now request.1 request.2 = some (billingSnapshot
          found.organization found.subscription plan
          (s₄.db.creditBalanceCents found.organization.id) request.2 now) := by
        rw [Database.snapshot, ext.record, located, Option.bind_some, its, Option.map_some]
      have serializes : (serializeBillingSnapshot (billingSnapshot found.organization
          found.subscription plan (s₄.db.creditBalanceCents found.organization.id)
          request.2 now)).isSome = datesValid found.subscription request.2 :=
        serialize_billingSnapshot
      rw [← serializes] at answers
      rcases System.exec_bind.mp rest with ⟨e, rfl, cachedIt⟩ | ⟨_, s₅, cachedIt, rest⟩
      · unfold cacheBillingSnapshot at cachedIt
        split at cachedIt
        · rename_i invalid
          obtain ⟨_, rfl⟩ := System.exec_throw.mp cachedIt
          exact ⟨ext, .inr ⟨e, rfl, by rw [answers, invalid]; rfl, cache⟩⟩
        · cases (exec_awaitWrites cachedIt).1
      · obtain ⟨rfl, rfl⟩ := System.exec_pure.mp rest
        unfold cacheBillingSnapshot at cachedIt
        split at cachedIt
        · cases (System.exec_throw.mp cachedIt).1
        · rename_i text serialized
          obtain ⟨_, db, cached⟩ := exec_awaitWrites cachedIt
          refine ⟨db ▸ ext, .inl ⟨_, text, found.organization, rfl, ?_, organization,
            db ▸ computed, serialized, fun k => ?_⟩⟩
          · rw [answers, serialized]
            rfl
          · have keys := mem_snapshotReferences (k := k) (Eq.refl (billingSnapshot
              found.organization found.subscription plan
              (s₄.db.creditBalanceCents found.organization.id) request.2 now).organizationId)
              rfl named
            simp only [cached, cache, keys]

/-- Where nothing is cached under its key a call computes. -/
theorem exec_getBillingSnapshot_of_miss {request : String × Int}
    {x : Except Thrown (BillingSnapshot Value)}
    (miss : s.cache.lookup (billingSnapshotCacheKey request.1) = none) :
    (atInstant now).Exec (getBillingSnapshot request.1 request.2) s x s' ↔
      (atInstant now).Exec (computeBillingSnapshot request.1 request.2) s x s' := by
  constructor
  · intro ran
    rcases System.exec_performBind.mp ran with ⟨e, _, _, failed⟩ | ⟨cached, _, s₁, answered, rest⟩
    · cases (at_readCache failed).1
    obtain ⟨same, rfl⟩ := at_readCache answered
    rw [miss] at same
    cases Except.ok.inj same
    exact rest
  · intro ran
    refine System.exec_performBind.mpr (.inr ⟨none, "", s, ?_, ran⟩)
    show some (Except.ok (s.cache.lookup (billingSnapshotCacheKey request.1)), s) = _
    rw [miss]
    rfl

/-! ## API and worker -/

/-- Where nothing is cached the worker computes the lock of the subscription there is. -/
theorem exec_resolveBillingLock {reference : String} {days : Int} {y : Except Thrown BillingLock}
    (miss : s.cache.lookup (billingStatusCacheKey reference) = none)
    (ran : (atInstant now).Exec (resolveBillingLock reference days) s y s') :
    y = .ok (billingLock ((s.db.record reference).bind (·.subscription)) days now) := by
  rcases System.exec_performBind.mp ran with ⟨e, _, _, failed⟩ | ⟨cached, _, s₁, answered, rest⟩
  · cases (at_readCache failed).1
  obtain ⟨same, rfl⟩ := at_readCache answered
  rw [miss] at same
  cases Except.ok.inj same
  rcases System.exec_performBind.mp rest with ⟨e, _, _, failed⟩ | ⟨found, _, s₂, answered, rest⟩
  · cases (at_findOrganization failed).1
  obtain ⟨located, rfl⟩ := at_findOrganization answered
  cases Except.ok.inj located
  rcases System.exec_performBind.mp rest with ⟨e, _, _, failed⟩ | ⟨t, _, s₃, answered, rest⟩
  · cases (at_now failed).1
  obtain ⟨clock, rfl⟩ := at_now answered
  have instant : t = now := Except.ok.inj clock
  rw [instant] at rest
  rcases System.exec_performBind.mp rest with ⟨e, _, _, failed⟩ | ⟨_, _, s₄, _, rest⟩
  · cases (at_writeCache failed).1
  · exact (System.exec_pure.mp rest).1

/-- The flag of the snapshot is the flag of the lock. -/
theorem hardLocked_billingSnapshot {organization : Organization} {plan : Plan} {credit days : Int}
    (subscription : Option Subscription) :
    (billingSnapshot organization subscription plan credit days now).hardLocked =
      (billingLock subscription days now).locked := by
  cases subscription with
  | none => rfl
  | some row =>
      by_cases due : row.status = .past_due
      · cases stored : row.gracePeriodEndsAt with
        | none => simp [billingSnapshot, billingLock, resolveGracePeriodEndsAt, due, stored,
            calculateGraceBoundary, Option.filter]
        | some deadline => simp [billingSnapshot, billingLock, resolveGracePeriodEndsAt, due, stored,
            Option.filter]
      · simp [billingSnapshot, billingLock, due]

/-- API and worker, asked for one organization with empty caches, come to the same lock; the
worker always does, and the API just when the snapshot can be computed. -/
theorem hardLocked_eq_locked {db : Database} {reference tenantReference : String} {days : Int}
    {x : Except Thrown (BillingSnapshot Value)} {y : Except Thrown BillingLock}
    (same : db.findOrganizationByReference reference =
      db.findOrganizationByReference tenantReference)
    (api : (atInstant now).Exec (getBillingSnapshot reference days) { db } x s)
    (worker : (atInstant now).Exec (resolveBillingLock tenantReference days) { db } y s') :
    ∃ lock, y = .ok lock ∧ (∀ snapshot, x = .ok snapshot → snapshot.hardLocked = lock.locked) ∧
      ((∃ snapshot, x = .ok snapshot) ↔ db.answers (reference, days) = true) := by
  have locked := exec_resolveBillingLock rfl worker
  have sameRecord : db.record tenantReference = db.record reference := by
    rw [Database.record, Database.record, same]
  refine ⟨_, locked, ?_⟩
  have computes :=
    (@exec_getBillingSnapshot_of_miss _ { db } _ (reference, days) _ rfl).mp api
  obtain ⟨ext, ⟨snapshot, _, _, rfl, answers, _, computed, _⟩ | ⟨e, rfl, fails, _⟩⟩ :=
    exec_compute computes
  · refine ⟨fun given returned => ?_, fun _ => answers, fun _ => ⟨_, rfl⟩⟩
    cases Except.ok.inj returned
    obtain ⟨found, there, planned⟩ := Option.bind_eq_some_iff.mp computed
    obtain ⟨plan, _, rfl⟩ := Option.map_eq_some_iff.mp planned
    have read : db.record tenantReference = some found := by
      rw [sameRecord, ← there, ext.record]
    rw [BillingSnapshot.meaning]
    dsimp only
    rw [hardLocked_billingSnapshot, read]
    rfl
  · refine ⟨fun _ returned => (nomatch returned), ?_⟩
    rw [fails]
    simp

end

/-- An organization whose last payment failed at the beginning of 1970. -/
def overdueDatabase : Database where
  plans := (Table.empty.insert (newPlan "plan" "starter")).getD .empty
  organizations := (Table.empty.insert
    { id := "org", tenantId := "tenant", planId := some "plan" }).getD .empty
  subscriptions := (Table.empty.insert
    { id := "sub", organizationId := "org", tenantId := "tenant", planId := "plan",
      status := .past_due, updatedAt := 0 }).getD .empty

def overdueSnapshot : Option (Except Thrown (BillingSnapshot Value) × BillingStore) :=
  (atInstant (dayMillis 3)).alone (getBillingSnapshot "org" 3) (List.replicate 6 "")
    { db := overdueDatabase }

def overdueLock : Option (Except Thrown BillingLock × BillingStore) :=
  (atInstant (dayMillis 3)).alone (resolveBillingLock "tenant" 3) (List.replicate 4 "")
    { db := overdueDatabase }

theorem overdueSnapshot_isSome : overdueSnapshot.isSome := by decide

theorem overdueLock_isSome : overdueLock.isSome := by decide

/-- At the very end of three days both are locked. -/
theorem overdue_hardLocked_eq_locked :
    overdueLock.any (·.1.toOption = some ⟨true, some .past_due⟩) = true ∧
    ∃ lock, (overdueLock.get overdueLock_isSome).1 = .ok lock ∧
      (∀ snapshot, (overdueSnapshot.get overdueSnapshot_isSome).1 = .ok snapshot →
        snapshot.hardLocked = lock.locked) ∧
      ((∃ snapshot, (overdueSnapshot.get overdueSnapshot_isSome).1 = .ok snapshot) ↔
        overdueDatabase.answers ("org", 3) = true) :=
  ⟨by decide, hardLocked_eq_locked (by decide)
    (.of_alone_get overdueSnapshot_isSome) (.of_alone_get overdueLock_isSome)⟩

end Billing
