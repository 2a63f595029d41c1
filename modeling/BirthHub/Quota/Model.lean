import BirthHub.Data.Decimals
import BirthHub.Data.Months
import BirthHub.Data.Table
import BirthHub.Effect.Embed
import BirthHub.Workflow.Runner

/-!
# Shared quotas

A tenant shares a quota of each resource for a month. The steps of workflows that execute
agents consume the quota for prompts by `consumeSharedAgentBudget`, and `quotaResetJob`
makes the rows of the month for all tenants. `quotas` is the system of any number of these
as time passes.
-/

namespace Quota

open Data Effect Workflow

/-! ## Rows -/

structure QuotaUsage extends Workflow.QuotaUsage where
  period : String

inductive QuotaKey
  | id (id : String)
  | period (tenantId : String) (resourceType : QuotaResourceType) (period : String)
deriving DecidableEq

instance : Schema QuotaUsage where
  Key := QuotaKey
  keys row := [.id row.id, .period row.tenantId row.resourceType row.period]

/-- The row that a quota starts with, but for its id. -/
structure NewQuota where
  limit : Int
  period : String
  resetAt : Int
  resourceType : QuotaResourceType
  tenantId : String

def NewQuota.row (create : NewQuota) (id : String) : QuotaUsage where
  id
  tenantId := create.tenantId
  resourceType := create.resourceType
  count := 0
  limit := create.limit
  resetAt := create.resetAt
  period := create.period

/-! ## Operations -/

inductive QuotaOp
  /-- An operation of the runner of workflows. -/
  | runner (o : RunnerOp)
  /-- The tenants of all organizations. -/
  | findOrganizations
  /-- `upsert` by tenant, resource and period with an empty `update`. -/
  | upsertQuota (create : NewQuota)

def QuotaOp.Result : QuotaOp → Type
  | .runner o => o.Result
  | .findOrganizations => List String
  | .upsertQuota _ => Unit

abbrev QuotaIface : Iface where
  Op := QuotaOp
  Res := QuotaOp.Result
  Err := Thrown

def await (o : QuotaOp) : Prog QuotaIface o.Result := Prog.perform (I := QuotaIface) o

def runnerOps : Embedding RunnerIface QuotaIface where
  op := .runner
  answer _ answer := answer
  err e := e

/-! ## The reset job -/

/-- `Object.values(QuotaResourceType)`. -/
def resourceTypes : List QuotaResourceType :=
  [.EMAILS_SENT, .AI_PROMPTS, .WORKFLOW_RUNS, .STORAGE_GB, .API_REQUESTS]

def defaultLimits : QuotaResourceType → Int
  | .AI_PROMPTS => 1000
  | .API_REQUESTS => 5000
  | .EMAILS_SENT => 2500
  | .STORAGE_GB => 100
  | .WORKFLOW_RUNS => 10000

def currentMonthlyPeriod (reference : Int) : String :=
  "MONTHLY-" ++ toString (Date.getUTCFullYear reference) ++ "-" ++
    String.ofList (Date.two (Date.getUTCMonth reference + 1).toNat)

def nextMonthlyReset (reference : Int) : Int :=
  Date.firstOfMonth (Date.getUTCFullYear reference) (Date.getUTCMonth reference + 1)

def newQuota (reference : Int) (tenantId : String) (resourceType : QuotaResourceType) :
    NewQuota where
  limit := defaultLimits resourceType
  period := currentMonthlyPeriod reference
  resetAt := nextMonthlyReset reference
  resourceType
  tenantId

/-- The upserts of the job, one after another. -/
def upsertAll : List NewQuota → Prog QuotaIface Unit
  | [] => pure ()
  | create :: rest => do
      await (.upsertQuota create)
      upsertAll rest

structure ResetResult where
  period : String
  upserts : Nat

def quotaResetJob (reference : Int) : Prog QuotaIface ResetResult := do
  let organizations ← await .findOrganizations
  let creates := organizations.flatMap fun tenantId =>
    resourceTypes.map (newQuota reference tenantId)
  upsertAll creates
  pure { period := currentMonthlyPeriod reference, upserts := creates.length }

/-! ## The system -/

/-- The outside; the clock counts milliseconds from 1970 on. -/
structure Store where
  clock : Nat := 0
  organizations : List String
  quotas : Table QuotaUsage

/-- An operation that fails; with `lost` it has its effect, and only the answer is lost. -/
structure Fault where
  error : Thrown
  lost : Bool := false

structure Choice where
  fault : Option Fault := none
  /-- The id of a new row. -/
  id : String := ""

namespace QuotaUsage

/-- A quota of prompts of the tenant. -/
def IsFor (tenantId : String) (row : QuotaUsage) : Prop :=
  row.tenantId = tenantId ∧ row.resourceType = .AI_PROMPTS

instance (tenantId : String) (row : QuotaUsage) : Decidable (row.IsFor tenantId) :=
  inferInstanceAs (Decidable (_ ∧ _))

end QuotaUsage

namespace Store

variable (store : Store)

/-- `findFirst` of the quotas of prompts of the tenant, the one that resets last first. -/
def latest (tenantId : String) : Option QuotaUsage :=
  store.quotas.rows.find? fun row => decide (row.IsFor tenantId ∧
    ∀ other ∈ store.quotas.rows, other.IsFor tenantId → other.resetAt ≤ row.resetAt)

def increment (id : String) : Store :=
  { store with
    quotas := store.quotas.update (decide <| ·.id = id)
      (fun row => { row with count := row.count + 1 }) fun _ => rfl }

def notFound : Thrown :=
  { message := some "No record was found for an update.", code := some "P2025" }

def uniqueViolation : Thrown :=
  { message := some "Unique constraint failed.", code := some "P2002" }

/-- The answer to an operation that does not fail by a fault, and its effect. -/
def perform (choice : Choice) : (o : QuotaOp) → Option (QuotaIface.Answer o × Store)
  | .runner (.findQuota tenantId) =>
      some (.ok ((store.latest tenantId).map QuotaUsage.toQuotaUsage), store)
  | .runner (.incrementQuota id) =>
      match store.quotas.get (.id id) with
      | some _ => some (.ok (), store.increment id)
      | none => some (.error notFound, store)
  | .runner _ => none
  | .findOrganizations => some (.ok store.organizations, store)
  | .upsertQuota create =>
      match store.quotas.get (.period create.tenantId create.resourceType create.period) with
      | some _ => some (.ok (), store)
      | none =>
          match store.quotas.insert (create.row choice.id) with
          | some quotas => some (.ok (), { store with quotas })
          | none => some (.error uniqueViolation, store)

def handle (o : QuotaOp) (choice : Choice) : Option (QuotaIface.Answer o × Store) :=
  match choice.fault with
  | none => store.perform choice o
  | some fault =>
      if fault.lost then (store.perform choice o).map fun (_, store') => (.error fault.error, store')
      else some (.error fault.error, store)

end Store

inductive QuotaTask
  | consume (tenantId : String)
  | reset (reference : Nat)

inductive QuotaResponse
  | consumed
  | reset (result : ResetResult)

def serve : QuotaTask → Prog QuotaIface QuotaResponse
  | .consume tenantId => do
      (consumeSharedAgentBudget tenantId).embed runnerOps
      pure .consumed
  | .reset reference => do pure (.reset (← quotaResetJob reference))

/-- A step of a workflow consumes the quota of its tenant, the reset job starts, or time
passes. -/
inductive QuotaEvent
  | consume (tenantId : String)
  | reset
  | tick (ms : Nat)

def quotas : System QuotaIface QuotaTask Store QuotaResponse where
  Choice := Choice
  handle o choice store := store.handle o choice
  program := serve
  Env := QuotaEvent
  env event store _ := some (match event with
    | .consume tenantId => { store, spawn := [.consume tenantId] }
    | .reset => { store, spawn := [.reset store.clock] }
    | .tick ms => { store := { store with clock := store.clock + ms } })

/-! ## What an operation changes -/

namespace Store

variable {store store' : Store} {choice : Choice}

/-- An answered operation was performed, whatever is told about it, or it did nothing. -/
theorem handle_cases {o : QuotaOp} {answer : QuotaIface.Answer o}
    (answered : store.handle o choice = some (answer, store')) :
    (∃ told, store.perform choice o = some (told, store') ∧
      (answer = told ∨ (∃ e, answer = .error e) ∧ ∃ fault ∈ choice.fault, fault.lost = true)) ∨
    store' = store ∧ ∃ e, answer = .error e := by
  unfold handle at answered
  split at answered
  · exact .inl ⟨answer, answered, .inl rfl⟩
  rename_i fault failed
  split at answered
  · rename_i lost
    obtain ⟨⟨told, after⟩, performed, same⟩ := Option.map_eq_some_iff.mp answered
    cases same
    exact .inl ⟨told, performed, .inr ⟨⟨_, rfl⟩, fault, failed, lost⟩⟩
  · cases answered
    exact .inr ⟨rfl, _, rfl⟩

theorem handle_findQuota {tenantId : String} {answer : QuotaIface.Answer (.runner (.findQuota tenantId))}
    (answered : store.handle (.runner (.findQuota tenantId)) choice = some (answer, store')) :
    store' = store ∧ ∀ record, answer = .ok record →
      record = (store.latest tenantId).map QuotaUsage.toQuotaUsage := by
  rcases handle_cases answered with ⟨told, performed, same⟩ | ⟨rfl, e, rfl⟩
  · cases performed
    refine ⟨rfl, fun record ok => ?_⟩
    rcases same with rfl | ⟨⟨e, rfl⟩, _⟩
    · exact (Except.ok.inj ok).symm
    · cases ok
  · exact ⟨rfl, nofun⟩

/-- When the call is told of it, the row is counted up, or nothing happens. -/
theorem handle_incrementQuota {id : String}
    {answer : QuotaIface.Answer (.runner (.incrementQuota id))}
    (answered : store.handle (.runner (.incrementQuota id)) choice = some (answer, store'))
    (told : ∀ fault ∈ choice.fault, fault.lost = false) :
    (answer = .ok () ∧ store' = store.increment id ∧ ∃ row ∈ store.quotas.rows, row.id = id) ∨
      store' = store ∧ ∃ e, answer = .error e := by
  rcases handle_cases answered with ⟨told', performed, same⟩ | unchanged
  · have exactly : answer = told' := by
      rcases same with same | ⟨_, fault, failed, lost⟩
      · exact same
      · rw [told fault failed] at lost
        cases lost
    subst exactly
    simp only [perform] at performed
    split at performed
    · rename_i row found
      cases performed
      obtain ⟨inside, key⟩ := Table.get_eq_some.mp found
      refine .inl ⟨rfl, rfl, row, inside, ?_⟩
      rcases List.mem_cons.mp key with same | period
      · exact (QuotaKey.id.inj same).symm
      · cases List.mem_singleton.mp period
    · cases performed
      exact .inr ⟨rfl, _, rfl⟩
  · exact .inr unchanged

theorem handle_findOrganizations {answer : QuotaIface.Answer .findOrganizations}
    (answered : store.handle .findOrganizations choice = some (answer, store')) :
    store' = store := by
  rcases handle_cases answered with ⟨told, performed, _⟩ | ⟨same, _⟩
  · cases performed
    rfl
  · exact same

/-- The row of a month is made once, with an id of its own. -/
theorem handle_upsertQuota {create : NewQuota} {answer : QuotaIface.Answer (.upsertQuota create)}
    (answered : store.handle (.upsertQuota create) choice = some (answer, store')) :
    store' = store ∨ ∃ quotas id, store' = { store with quotas } ∧
      quotas.rows = store.quotas.rows ++ [create.row id] ∧ ∀ row ∈ store.quotas.rows, row.id ≠ id := by
  rcases handle_cases answered with ⟨told, performed, _⟩ | ⟨same, _⟩
  · simp only [perform] at performed
    split at performed
    · cases performed
      exact .inl rfl
    split at performed
    · rename_i quotas inserted
      cases performed
      obtain ⟨rows, apart⟩ := Table.insert_eq_some.mp inserted
      refine .inr ⟨quotas, choice.id, rfl, rows, fun row inside same => ?_⟩
      exact apart row inside (List.mem_cons_self : QuotaKey.id row.id ∈ Schema.keys row)
        (by simp [Schema.keys, NewQuota.row, same])
    · cases performed
      exact .inl rfl
  · exact .inl same

theorem mem_increment {id : String} {row : QuotaUsage} :
    row ∈ (store.increment id).quotas.rows ↔ ∃ before ∈ store.quotas.rows,
      row = if before.id = id then { before with count := before.count + 1 } else before := by
  simp only [increment, Table.mem_update, decide_eq_true_eq]

/-- The row that is found resets last among those of the tenant. -/
theorem latest_eq_some {tenantId : String} {row : QuotaUsage}
    (found : store.latest tenantId = some row) :
    row ∈ store.quotas.rows ∧ row.IsFor tenantId ∧
      ∀ other ∈ store.quotas.rows, other.IsFor tenantId → other.resetAt ≤ row.resetAt := by
  have holds := List.find?_some found
  exact ⟨List.mem_of_find?_eq_some found, of_decide_eq_true holds⟩

end Store

/-! ## Periods -/

theorem nextMonthlyReset_eq (reference : Int) :
    nextMonthlyReset reference = Date.monthStart (Date.monthOf reference + 1) * 86400000 := by
  rw [nextMonthlyReset, Date.firstOfMonth_eq, Date.monthOf, add_assoc]

/-- A later reset is that of a later month. -/
theorem monthOf_le_of_reset {t t' : Int} (later : nextMonthlyReset t' ≤ nextMonthlyReset t) :
    Date.monthOf t' ≤ Date.monthOf t := by
  rw [nextMonthlyReset_eq, nextMonthlyReset_eq] at later
  have starts : Date.monthStart (Date.monthOf t' + 1) ≤ Date.monthStart (Date.monthOf t + 1) :=
    le_of_mul_le_mul_right later (by norm_num)
  have order := Date.monthStart_strictMono.le_iff_le.mp starts
  omega

/-- The text of a period says which month it is. -/
theorem monthOf_of_period {t t' : Int} (same : currentMonthlyPeriod t = currentMonthlyPeriod t') :
    Date.monthOf t = Date.monthOf t' := by
  have chars := congrArg String.toList same
  simp only [currentMonthlyPeriod, String.toList_append, String.toList_ofList] at chars
  obtain ⟨front, month⟩ := List.append_inj' chars rfl
  obtain ⟨front, -⟩ := List.append_inj' front rfl
  have year := toString_int_injective (String.toList_inj.mp (List.append_cancel_left front))
  have first := Date.getUTCMonth_bounds t
  have second := Date.getUTCMonth_bounds t'
  have equal := congrArg Number.ofDigits month
  rw [Date.ofDigits_two (by omega), Date.ofDigits_two (by omega)] at equal
  rw [Date.monthOf, Date.monthOf, year]
  omega

theorem period_of_monthOf {t t' : Int} (same : Date.monthOf t = Date.monthOf t') :
    currentMonthlyPeriod t = currentMonthlyPeriod t' := by
  have first := Date.getUTCMonth_bounds t
  have second := Date.getUTCMonth_bounds t'
  rw [Date.monthOf, Date.monthOf] at same
  have parts : Date.getUTCFullYear t = Date.getUTCFullYear t' ∧
      Date.getUTCMonth t = Date.getUTCMonth t' := by omega
  rw [currentMonthlyPeriod, currentMonthlyPeriod, parts.1, parts.2]

end Quota
