import BirthHub.Data.Json
import BirthHub.Effect.Rely
import Mathlib.Data.List.DropRight

/-!
# Repositories of a tenant

`BaseRepository` passes the calls of a caller on to a delegate, with the tenant of the context
of the call put into the conditions and the data. The delegate is a parameter: a table, and any
way to answer that takes all conditions of `where` together (`Delegate.Conjunctive`). Whatever
the arguments of the calls, and however they are interleaved, a call in the context of a tenant
sees and writes rows of that tenant only, and a call outside of a context reaches no delegate.
-/

namespace Tenancy

open Data Effect

/-! ## Argument objects -/

/-- A value of an argument object; `ν` stands for the values that are neither strings nor
plain objects. -/
inductive Value (ν : Type)
  | string (text : String)
  | object (members : List (String × Value ν))
  | other (value : ν)

/-- The own properties of an object. -/
abbrev Members (ν : Type) := List (String × Value ν)

variable {ν ρ κ δ : Type}

/-- The properties that spreading a value gives. -/
def spread : Option (Value ν) → Members ν
  | some (.object members) => members
  | _ => []

/-- `{ ...members, [key]: value }`: a property that is there keeps its place. -/
def put : Members ν → String → Value ν → Members ν
  | [], key, value => [(key, value)]
  | member :: members, key, value =>
      if member.1 = key then (key, value) :: members else member :: put members key value

/-- The properties of `omitTenantId(value) ?? {}`. -/
def omitTenantId (value : Option (Value ν)) : Members ν :=
  (spread value).filter (·.1 ≠ "tenantId")

theorem mem_put (members : Members ν) (key : String) (value : Value ν) :
    (key, value) ∈ put members key value := by
  induction members with
  | nil => exact List.mem_cons_self
  | cons member members ih =>
      rw [put]
      split
      · exact List.mem_cons_self
      · exact List.mem_cons_of_mem _ ih

theorem lookup_put (members : Members ν) (key : String) (value : Value ν) :
    (put members key value).lookup key = some value := by
  induction members with
  | nil => simp [put]
  | cons member members ih =>
      rw [put]
      split
      · simp
      · rename_i differs
        rw [List.lookup_cons, beq_false_of_ne (Ne.symm differs)]
        exact ih

theorem lookup_put_other (members : Members ν) {key other : String} (value : Value ν)
    (differs : other ≠ key) : (put members key value).lookup other = members.lookup other := by
  induction members with
  | nil => simpa [put] using differs
  | cons member members ih =>
      rw [put]
      split
      · rename_i same
        rw [List.lookup_cons, List.lookup_cons, same]
        simp [beq_false_of_ne differs]
      · rw [List.lookup_cons, List.lookup_cons, ih]

/-! ## The delegate -/

inductive DelegateOp (ν : Type)
  | create (args : Members ν)
  | deleteMany (args : Members ν)
  | findFirst (args : Members ν)
  | findMany (args : Members ν)
  | updateMany (args : Members ν)

/-- Rows are in `ρ`; the writes of many rows answer their number. -/
abbrev DelegateOp.Result (ρ : Type) : DelegateOp ν → Type
  | .create _ => ρ
  | .deleteMany _ => Nat
  | .findFirst _ => Option ρ
  | .findMany _ => List ρ
  | .updateMany _ => Nat

/-- What is thrown: the two errors of the repository, and those of the delegate. -/
inductive Failure (δ : Type)
  | tenantRequired (operation : String)
  | error (message : String)
  | delegate (failure : δ)

/-- The message of an error of the repository. -/
def Failure.message : Failure δ → Option String
  | .tenantRequired operation => some s!"Tenant context is required for {operation}."
  | .error message => some message
  | .delegate _ => none

abbrev RepositoryIface (ν ρ δ : Type) : Iface where
  Op := DelegateOp ν
  Res := DelegateOp.Result ρ
  Err := Failure δ

/-! ## The tenant context -/

inductive TenantSource
  | activeHeader
  | authenticated
  | seed
  | system
deriving DecidableEq

structure TenantContext where
  tenantId : String
  tenantSlug : Option String := none
  userId : Option String := none
  source : TenantSource

def normalizeTenantId (tenantId : Option String) (operation : String) : Except (Failure δ) String :=
  match tenantId.map trim with
  | none => .error (.tenantRequired operation)
  | some normalizedTenantId =>
      if normalizedTenantId = "" then .error (.tenantRequired operation)
      else .ok normalizedTenantId

section Programs

variable {α : Type}

/-- The callback runs with its own context in the place of the one around it. -/
def runWithTenantContext (context : TenantContext)
    (callback : Option TenantContext → Prog (RepositoryIface ν ρ δ) α) :
    Prog (RepositoryIface ν ρ δ) α := do
  let tenantId ← Prog.ofExcept (normalizeTenantId (some context.tenantId)
    "tenant context bootstrap")
  callback (some { context with tenantId })

/-- The callback runs within contexts, the outermost first. -/
def runWithin (callback : Option TenantContext → Prog (RepositoryIface ν ρ δ) α) :
    List TenantContext → Option TenantContext → Prog (RepositoryIface ν ρ δ) α
  | [], store => callback store
  | context :: contexts, _ => runWithTenantContext context (runWithin callback contexts)

/-- `requireTenantId`, whose only error is passed on. -/
def getScopedTenantId (store : Option TenantContext) (operation : String) :
    Prog (RepositoryIface ν ρ δ) String :=
  Prog.ofExcept (normalizeTenantId (store.map (·.tenantId)) operation)

/-! ## The repository -/

def await (o : DelegateOp ν) : Prog (RepositoryIface ν ρ δ) (o.Result ρ) :=
  Prog.perform (I := RepositoryIface ν ρ δ) o

/-- The properties of a member of the arguments, with the tenant in the place of theirs. -/
def withTenant (args : Members ν) (member tenantId : String) : Members ν :=
  put (omitTenantId (args.lookup member)) "tenantId" (.string tenantId)

variable (store : Option TenantContext) (args : Members ν)

def create : Prog (RepositoryIface ν ρ δ) ρ := do
  let tenantId ← getScopedTenantId store "create"
  await (.create (put args "data" (.object (withTenant args "data" tenantId))))

def delete : Prog (RepositoryIface ν ρ δ) ρ := do
  let tenantId ← getScopedTenantId store "delete"
  let where_ := withTenant args "where" tenantId
  let existingRecord : Option ρ ← await (.findFirst [("where", .object where_)])
  match existingRecord with
  | none => .throw (.error "Scoped record not found.")
  | some existingRecord => do
      let _ ← await (.deleteMany [("where", .object where_)])
      pure existingRecord

def findFirst : Prog (RepositoryIface ν ρ δ) (Option ρ) := do
  let tenantId ← getScopedTenantId store "findFirst"
  await (.findFirst (put args "where" (.object (withTenant args "where" tenantId))))

def findMany : Prog (RepositoryIface ν ρ δ) (List ρ) := do
  let tenantId ← getScopedTenantId store "findMany"
  await (.findMany (put args "where" (.object (withTenant args "where" tenantId))))

def update : Prog (RepositoryIface ν ρ δ) ρ := do
  let tenantId ← getScopedTenantId store "update"
  let where_ := withTenant args "where" tenantId
  let data := withTenant args "data" tenantId
  let count : Nat ← await (.updateMany
    (put (put args "data" (.object data)) "where" (.object where_)))
  if count = 0 then .throw (.error "Scoped record not found.")
  else do
    let updatedRecord : Option ρ ← await (.findFirst [("where", .object where_)])
    match updatedRecord with
    | none => .throw (.error "Scoped record not found after update.")
    | some updatedRecord => pure updatedRecord

end Programs

/-- A call with its arguments; those of the searches may be left out, that is empty. -/
inductive RepositoryCall (ν : Type)
  | create (args : Members ν)
  | delete (args : Members ν)
  | findFirst (args : Members ν)
  | findMany (args : Members ν)
  | update (args : Members ν)

/-- The rows that a call returns. -/
def RepositoryCall.run (store : Option TenantContext) :
    RepositoryCall ν → Prog (RepositoryIface ν ρ δ) (List ρ)
  | .create args => do
      let record ← Tenancy.create store args
      pure [record]
  | .delete args => do
      let record ← Tenancy.delete store args
      pure [record]
  | .findFirst args => do
      let record ← Tenancy.findFirst store args
      pure record.toList
  | .findMany args => Tenancy.findMany store args
  | .update args => do
      let record ← Tenancy.update store args
      pure [record]

/-- A call made within contexts, the outermost first. -/
structure Request (ν : Type) where
  contexts : List TenantContext
  call : RepositoryCall ν

/-! ## The table -/

/-- A delegate over a table whose rows are known by keys in `κ`. -/
structure Delegate (ν ρ κ δ : Type) where
  /-- What the arguments and the table leave open. -/
  Choice : Type
  answer : (o : DelegateOp ν) → Choice → (κ → Option ρ) →
    (RepositoryIface ν ρ δ).Answer o × (κ → Option ρ)

/-- Requests are made at any time. -/
def repository (delegate : Delegate ν ρ κ δ) :
    System (RepositoryIface ν ρ δ) (Request ν) (κ → Option ρ) (List ρ) where
  Choice := delegate.Choice
  handle o choice rows := some (delegate.answer o choice rows)
  program request := runWithin (fun store => request.call.run store) request.contexts none
  Env := Request ν
  env request rows _ := some { store := rows, spawn := [request] }

end Tenancy
