import BirthHub.Data.IsoDate
import BirthHub.Data.JsonParse
import BirthHub.Data.Table

/-!
# Plans, subscriptions and snapshots

The rows that `apps/api/src/modules/billing/service.ts` reads and writes, the billing snapshot
of an organization and the text that caches it, and the lock that the worker computes from the
same rows (`resolveBillingLock` of `apps/worker/src/worker.ts`).

A column of type `DateTime` holds milliseconds since 1970, and what is read of it is the
`Date` of that time.
-/

namespace Billing

open Data

/-! ## Rows -/

inductive SubscriptionStatus
  | trial
  | active
  | past_due
  | canceled
  | paused
deriving DecidableEq, Repr

def SubscriptionStatus.text : SubscriptionStatus → String
  | trial => "trial"
  | active => "active"
  | past_due => "past_due"
  | canceled => "canceled"
  | paused => "paused"

def SubscriptionStatus.all : List SubscriptionStatus := [trial, active, past_due, canceled, paused]

structure Plan where
  id : String
  code : String
  name : String
  limits : Json
  currency : String := "usd"
  stripePriceId : Option String := none
  stripeProductId : Option String := none

structure Organization where
  id : String
  tenantId : String
  planId : Option String := none
  stripeCustomerId : Option String := none
deriving DecidableEq

structure Subscription where
  id : String
  organizationId : String
  tenantId : String
  planId : String
  stripeSubscriptionId : Option String := none
  stripeCustomerId : Option String := none
  status : SubscriptionStatus := .trial
  currentPeriodEnd : Option Int := none
  canceledAt : Option Int := none
  gracePeriodEndsAt : Option Int := none
  updatedAt : Int
deriving DecidableEq

/-- A credit; the only reason there is is `DOWNGRADE_PRORATION`. -/
structure BillingCredit where
  stripeEventId : String
  organizationId : String
  tenantId : String
  subscriptionId : Option String := none
  stripeInvoiceId : Option String := none
  amountCents : Int
  currency : String := "usd"
deriving DecidableEq

inductive InvoiceStatus
  | draft
  | open
  | paid
  | uncollectible
  | void
  | past_due
deriving DecidableEq, Repr

structure Invoice where
  stripeInvoiceId : String
  organizationId : String
  tenantId : String
  subscriptionId : Option String
  status : InvoiceStatus
  currency : String
  amountDueCents : Int
  amountPaidCents : Int
  hostedInvoiceUrl : Option String
  invoicePdfUrl : Option String
  dueDate : Option Int
  periodStart : Option Int
  periodEnd : Option Int
deriving DecidableEq

/-- The unique columns of the tables. -/
inductive Column
  | id (value : String)
  | code (value : String)
  | tenantId (value : String)
  | organizationId (value : String)
  | stripePriceId (value : String)
  | stripeProductId (value : String)
  | stripeCustomerId (value : String)
  | stripeSubscriptionId (value : String)
  | stripeEventId (value : String)
  | stripeInvoiceId (value : String)
deriving DecidableEq

instance : Schema Plan where
  Key := Column
  keys plan := .id plan.id :: .code plan.code ::
    (plan.stripeProductId.map .stripeProductId).toList ++
    (plan.stripePriceId.map .stripePriceId).toList

instance : Schema Organization where
  Key := Column
  keys organization := .id organization.id :: .tenantId organization.tenantId ::
    (organization.stripeCustomerId.map .stripeCustomerId).toList

instance : Schema Subscription where
  Key := Column
  keys subscription := .id subscription.id :: .organizationId subscription.organizationId ::
    (subscription.stripeSubscriptionId.map .stripeSubscriptionId).toList

instance : Schema BillingCredit where
  Key := Column
  keys credit := [.stripeEventId credit.stripeEventId]

instance : Schema Invoice where
  Key := Column
  keys invoice := [.stripeInvoiceId invoice.stripeInvoiceId]

structure Database where
  plans : Table Plan := .empty
  organizations : Table Organization := .empty
  subscriptions : Table Subscription := .empty
  credits : Table BillingCredit := .empty
  invoices : Table Invoice := .empty

namespace Database

variable (db : Database)

/-- `findOrganizationByReference`. -/
def findOrganizationByReference (reference : String) : Option Organization :=
  db.organizations.rows.find? fun organization =>
    organization.id = reference ∨ organization.tenantId = reference

def plan (id : String) : Option Plan := db.plans.get (.id id)

/-- The subscription of an organization; there is one at most. -/
def subscription (organizationId : String) : Option Subscription :=
  db.subscriptions.get (.organizationId organizationId)

/-- `getBillingCreditBalanceCents`. -/
def creditBalanceCents (organizationId : String) : Int :=
  ((db.credits.rows.filter (·.organizationId = organizationId)).map (·.amountCents)).sum

end Database

/-! ## Plans -/

structure PlanDefaults where
  name : String
  limits : Json
  stripePriceId : String
  stripeProductId : String

/-- The limits of a default plan. -/
def planLimits (agents aiPrompts apiRequests emails monthlyTokens storageGb workflows : Number)
    (features : List (String × Json)) : Json :=
  .object [("agents", .number agents), ("aiPrompts", .number aiPrompts),
    ("apiRequests", .number apiRequests), ("emails", .number emails),
    ("features", .object features), ("monthlyTokens", .number monthlyTokens),
    ("storageGb", .number storageGb), ("workflows", .number workflows)]

def unlimited : Number := .finite true 1 0

def planFeatures (advancedAnalytics : Bool) : List (String × Json) :=
  [("advancedAnalytics", .bool advancedAnalytics), ("agents", .bool true),
    ("customerPortal", .bool true)]

/-- `DEFAULT_PLANS.starter`. -/
def starterDefaults : PlanDefaults where
  name := "Starter"
  limits := planLimits (.ofNat 5) (.ofNat 5000) (.ofNat 5000) (.ofNat 2500) (.ofNat 250000)
    (.ofNat 100) (.ofNat 30) (planFeatures false ++ [("workflows", .bool true)])
  stripePriceId := "price_starter_monthly"
  stripeProductId := "prod_starter"

/-- `DEFAULT_PLANS[code] ?? DEFAULT_PLANS.starter`. -/
def defaultPlan (code : String) : PlanDefaults :=
  if code = "enterprise" then {
    name := "Enterprise"
    limits := planLimits unlimited unlimited unlimited unlimited unlimited unlimited unlimited
      (planFeatures true ++ [("prioritySupport", .bool true), ("workflows", .bool true)])
    stripePriceId := "price_enterprise_monthly"
    stripeProductId := "prod_enterprise" }
  else if code = "pro" then {
    name := "Pro"
    limits := planLimits (.ofNat 25) (.ofNat 25000) (.ofNat 25000) (.ofNat 10000) (.ofNat 2500000)
      (.ofNat 500) (.ofNat 250) (planFeatures true ++ [("workflows", .bool true)])
    stripePriceId := "price_pro_monthly"
    stripeProductId := "prod_pro" }
  else starterDefaults

def normalizePlanCode (code : String) : String :=
  let normalized := (trim code).toLower
  if normalized = "professional" then "pro" else normalized

/-- The row that `ensurePlanByCode` creates. -/
def newPlan (id code : String) : Plan :=
  let defaults := defaultPlan code
  { id, code
    name := defaults.name
    limits := defaults.limits
    stripePriceId := some defaults.stripePriceId
    stripeProductId := some defaults.stripeProductId }

/-- `P2002`. -/
def uniqueViolation : Thrown :=
  { message := some "Unique constraint failed.", code := some "P2002" }

/-! ## Snapshots -/

structure SnapshotPlan (α : Type) where
  code : String
  id : String
  limits : α
  name : String

/-- `BillingSnapshot`; the limits are a JavaScript value, or the JSON value it has. -/
structure BillingSnapshot (α : Type) where
  creditBalanceCents : Int
  currentPeriodEnd : Option Date
  gracePeriodEndsAt : Option Date
  hardLocked : Bool
  isPaid : Bool
  isWithinGracePeriod : Bool
  organizationId : String
  plan : SnapshotPlan α
  secondsUntilHardLock : Option Int
  status : Option SubscriptionStatus
  stripeCustomerId : Option String
  subscriptionId : Option String
  tenantId : String

/-- The snapshot with the JSON value of the limits. -/
def BillingSnapshot.meaning (snapshot : BillingSnapshot Json) : BillingSnapshot Value :=
  { snapshot with plan := { snapshot.plan with limits := snapshot.plan.limits.meaning } }

/-- The milliseconds of some days. -/
def dayMillis (days : Int) : Int := days * 24 * 60 * 60 * 1000

def resolveGracePeriodEndsAt (subscription : Option Subscription) (gracePeriodDays : Int) :
    Option Date :=
  subscription.map fun subscription =>
    match subscription.gracePeriodEndsAt with
    | some deadline => .ofTime deadline
    | none => .ofTime (subscription.updatedAt + dayMillis gracePeriodDays)

/-- What `getBillingSnapshot` computes of the rows it has read. The seconds until an invalid
deadline do not matter, since such a snapshot is not cached nor returned. -/
def billingSnapshot (organization : Organization) (subscription : Option Subscription) (plan : Plan)
    (creditBalanceCents gracePeriodDays now : Int) : BillingSnapshot Json :=
  let gracePeriodEndsAt := resolveGracePeriodEndsAt subscription gracePeriodDays
  let status := subscription.map (·.status)
  let isPastDue : Bool := status = some .past_due
  let hardLocked := isPastDue && gracePeriodEndsAt.any (·.atMost now)
  { creditBalanceCents
    currentPeriodEnd := (subscription.bind (·.currentPeriodEnd)).map .ofTime
    gracePeriodEndsAt
    hardLocked
    isPaid := status = some .active ∨ status = some .past_due ∨ status = some .paused
    isWithinGracePeriod := isPastDue && gracePeriodEndsAt.isSome && !hardLocked
    organizationId := organization.id
    plan := { code := plan.code, id := plan.id, limits := plan.limits, name := plan.name }
    secondsUntilHardLock := ((gracePeriodEndsAt.filter fun _ => isPastDue).bind (·.time)).map
      fun t => max 0 ((t - now) / 1000)
    status
    stripeCustomerId := organization.stripeCustomerId
    subscriptionId := subscription.map (·.id)
    tenantId := organization.tenantId }

/-! ## The text of a snapshot -/

def int (n : Int) : Json := .number (.finite (n < 0) n.natAbs 0)

def orNull {α : Type} (f : α → Json) : Option α → Json
  | some a => f a
  | none => .null

/-- `date?.toISOString() ?? null`. -/
def dateText : Option Date → Option Json
  | some date => date.toISOString.map .string
  | none => some .null

/-- `serializeBillingSnapshot`; `toISOString` throws for an invalid date. -/
def serializeBillingSnapshot (snapshot : BillingSnapshot Json) : Option String := do
  let currentPeriodEnd ← dateText snapshot.currentPeriodEnd
  let gracePeriodEndsAt ← dateText snapshot.gracePeriodEndsAt
  return (Json.object [
    ("creditBalanceCents", int snapshot.creditBalanceCents),
    ("currentPeriodEnd", currentPeriodEnd),
    ("gracePeriodEndsAt", gracePeriodEndsAt),
    ("hardLocked", .bool snapshot.hardLocked),
    ("isPaid", .bool snapshot.isPaid),
    ("isWithinGracePeriod", .bool snapshot.isWithinGracePeriod),
    ("organizationId", .string snapshot.organizationId),
    ("plan", .object [("code", .string snapshot.plan.code), ("id", .string snapshot.plan.id),
      ("limits", snapshot.plan.limits), ("name", .string snapshot.plan.name)]),
    ("secondsUntilHardLock", orNull int snapshot.secondsUntilHardLock),
    ("status", orNull (fun status => .string status.text) snapshot.status),
    ("stripeCustomerId", orNull .string snapshot.stripeCustomerId),
    ("subscriptionId", orNull .string snapshot.subscriptionId),
    ("tenantId", .string snapshot.tenantId)]).stringify

/-! ### Reading it back -/

def readInt : Value → Option Int
  | .number q => if q.den = 1 then some q.num else none
  | _ => none

def readBool : Value → Option Bool
  | .bool b => some b
  | _ => none

def readString : Value → Option String
  | .string s => some s
  | _ => none

/-- A member that may be `null`. -/
def readNullable {α : Type} (f : Value → Option α) : Value → Option (Option α)
  | .null => some none
  | v => (f v).map some

/-- `value ? new Date(value) : null`. -/
def readDate (v : Value) : Option (Option Date) :=
  (readNullable readString v).map fun text => (text.filter (· ≠ "")).map Date.parse

def readStatus (v : Value) : Option SubscriptionStatus :=
  (readString v).bind fun text => SubscriptionStatus.all.find? (·.text = text)

def readPlan : Value → Option (SnapshotPlan Value)
  | .object members => do
      return {
        code := ← (members.lookup "code").bind readString
        id := ← (members.lookup "id").bind readString
        limits := ← members.lookup "limits"
        name := ← (members.lookup "name").bind readString }
  | _ => none

def readSnapshot : Value → Option (BillingSnapshot Value)
  | .object members => do
      return {
        creditBalanceCents := ← (members.lookup "creditBalanceCents").bind readInt
        currentPeriodEnd := ← (members.lookup "currentPeriodEnd").bind readDate
        gracePeriodEndsAt := ← (members.lookup "gracePeriodEndsAt").bind readDate
        hardLocked := ← (members.lookup "hardLocked").bind readBool
        isPaid := ← (members.lookup "isPaid").bind readBool
        isWithinGracePeriod := ← (members.lookup "isWithinGracePeriod").bind readBool
        organizationId := ← (members.lookup "organizationId").bind readString
        plan := ← (members.lookup "plan").bind readPlan
        secondsUntilHardLock :=
          ← (members.lookup "secondsUntilHardLock").bind (readNullable readInt)
        status := ← (members.lookup "status").bind (readNullable readStatus)
        stripeCustomerId := ← (members.lookup "stripeCustomerId").bind (readNullable readString)
        subscriptionId := ← (members.lookup "subscriptionId").bind (readNullable readString)
        tenantId := ← (members.lookup "tenantId").bind readString }
  | _ => none

/-- `parseBillingSnapshot`, of a text with the members of a snapshot. -/
def parseBillingSnapshot (raw : String) : Option (BillingSnapshot Value) :=
  (Json.parse raw).bind readSnapshot

/-! ### The round trip -/

theorem readInt_int {n : Int} : readInt (int n).meaning = some n := by
  have value : (Number.finite (decide (n < 0)) n.natAbs 0).value = some (n : ℚ) := by
    rcases lt_or_ge n 0 with negative | positive
    · have size : ((n.natAbs : ℕ) : ℚ) = -(n : ℚ) := by
        rw [← Int.cast_natCast, Int.natCast_natAbs, abs_of_neg negative, Int.cast_neg]
      simp [Number.value, negative, size]
    · have size : ((n.natAbs : ℕ) : ℚ) = (n : ℚ) := by
        rw [← Int.cast_natCast, Int.natCast_natAbs, abs_of_nonneg positive]
      simp [Number.value, not_lt.mpr positive, size]
  simp [int, Json.meaning, value, readInt]

theorem readNullable_orNull {α : Type} {f : α → Json} {g : Value → Option α}
    (back : ∀ a, (f a).meaning ≠ .null ∧ g (f a).meaning = some a) (a : Option α) :
    readNullable g (orNull f a).meaning = some a := by
  cases a with
  | none => rfl
  | some a =>
      obtain ⟨given, read⟩ := back a
      rw [orNull]
      cases value : (f a).meaning with
      | null => exact (given value).elim
      | _ => rw [value] at read; simp [readNullable, read]

theorem readStatus_text (status : SubscriptionStatus) :
    readStatus (.string status.text) = some status := by
  cases status <;> decide

theorem readDate_dateText {date : Option Date} {v : Json} (text : dateText date = some v) :
    readDate v.meaning = some date := by
  cases date with
  | none =>
      cases text
      rfl
  | some date =>
      obtain ⟨s, printed, rfl⟩ := Option.map_eq_some_iff.mp text
      have given : s ≠ "" := Date.toISOString_ne_empty printed
      simp [Json.meaning, readDate, readNullable, readString, given, Date.parse_toISOString printed]

theorem parse_serialize {snapshot : BillingSnapshot Json} {text : String}
    (serialized : serializeBillingSnapshot snapshot = some text) :
    parseBillingSnapshot text = some snapshot.meaning := by
  unfold serializeBillingSnapshot at serialized
  obtain ⟨periodEnd, first, serialized⟩ := Option.bind_eq_some_iff.mp serialized
  obtain ⟨deadline, second, serialized⟩ := Option.bind_eq_some_iff.mp serialized
  cases serialized
  have seconds := readNullable_orNull (f := int) (g := readInt)
    (fun n => ⟨by simp [int, Json.meaning, Number.value], readInt_int⟩) snapshot.secondsUntilHardLock
  have differs (text : String) : (Json.string text).meaning ≠ .null := by simp [Json.meaning]
  have status := readNullable_orNull (f := fun status : SubscriptionStatus => .string status.text)
    (g := readStatus) (fun status => ⟨differs status.text, readStatus_text status⟩) snapshot.status
  have text := readNullable_orNull (f := .string) (g := readString) (fun text => ⟨differs text, rfl⟩)
  rw [parseBillingSnapshot, Json.parse_stringify, Option.bind_some]
  -- each member is looked up under its own name, in the order in which they are read
  refine Option.bind_eq_some_iff.mpr ⟨_, readInt_int, ?_⟩
  refine Option.bind_eq_some_iff.mpr ⟨_, readDate_dateText first, ?_⟩
  refine Option.bind_eq_some_iff.mpr ⟨_, readDate_dateText second, ?_⟩
  refine Option.bind_eq_some_iff.mpr ⟨_, rfl, ?_⟩
  refine Option.bind_eq_some_iff.mpr ⟨_, rfl, ?_⟩
  refine Option.bind_eq_some_iff.mpr ⟨_, rfl, ?_⟩
  refine Option.bind_eq_some_iff.mpr ⟨_, rfl, ?_⟩
  refine Option.bind_eq_some_iff.mpr ⟨_, rfl, ?_⟩
  refine Option.bind_eq_some_iff.mpr ⟨_, seconds, ?_⟩
  refine Option.bind_eq_some_iff.mpr ⟨_, status, ?_⟩
  refine Option.bind_eq_some_iff.mpr ⟨_, text snapshot.stripeCustomerId, ?_⟩
  refine Option.bind_eq_some_iff.mpr ⟨_, text snapshot.subscriptionId, ?_⟩
  exact Option.bind_eq_some_iff.mpr ⟨_, rfl, rfl⟩

theorem serialize_isSome {snapshot : BillingSnapshot Json} :
    (serializeBillingSnapshot snapshot).isSome ↔
      (∀ date ∈ snapshot.currentPeriodEnd, date.time.isSome) ∧
        ∀ date ∈ snapshot.gracePeriodEndsAt, date.time.isSome := by
  have text (date : Option Date) :
      (dateText date).isSome ↔ ∀ d ∈ date, d.time.isSome := by
    cases date with
    | none => simp [dateText]
    | some date => simp [dateText, Date.toISOString_isSome]
  rw [← text, ← text]
  unfold serializeBillingSnapshot
  cases dateText snapshot.currentPeriodEnd <;> cases dateText snapshot.gracePeriodEndsAt <;> simp

end Billing
