import Mathlib.Logic.Function.Basic

/-!
# Transactions at READ COMMITTED

Rows have keys, and a row that an open transaction has written is held by it until the
transaction ends: the transaction sees its own version, everybody else the committed one,
and nobody else can write the row. A log takes the entries of a transaction when it
commits. A statement outside any transaction commits at once.
-/

namespace Data

/-- The versions of a row: the committed one, and the one written by the open transaction
that holds the row. -/
structure Versions (ρ : Type) where
  committed : Option ρ := none
  pending : Option (Nat × ρ) := none

/-- How far a transaction is; an open one has the log entries it has made. -/
inductive TxStatus (ε : Type)
  | unknown
  | active (entries : List ε)
  | committed
  | aborted

structure Database (κ ρ ε : Type) where
  rows : κ → Versions ρ
  log : List ε
  /-- The number of transactions begun so far. -/
  begun : Nat
  status : Nat → TxStatus ε

namespace Versions

variable {ρ : Type} (versions : Versions ρ) (tx : Nat)

/-- The version that `tx` wrote becomes the committed one. -/
def commit : Versions ρ :=
  match versions.pending with
  | some (holder, row) => if holder = tx then { committed := some row } else versions
  | none => versions

/-- The version that `tx` wrote is dropped. -/
def rollback : Versions ρ :=
  match versions.pending with
  | some (holder, _) => if holder = tx then { versions with pending := none } else versions
  | none => versions

end Versions

namespace Database

variable {κ ρ ε : Type} [DecidableEq κ] (db : Database κ ρ ε)

/-- The log entries that a transaction has made and not committed. -/
def entries (tx : Nat) : List ε :=
  match db.status tx with
  | .active entries => entries
  | _ => []

def isActive (tx : Nat) : Bool :=
  match db.status tx with
  | .active _ => true
  | _ => false

def isCommitted (tx : Nat) : Bool :=
  match db.status tx with
  | .committed => true
  | _ => false

/-- A statement can be made: in an open transaction, or in none. -/
def isOpen (tx : Option Nat) : Bool := tx.all db.isActive

/-- Another transaction holds the row. -/
def isHeld (tx : Option Nat) (k : κ) : Bool :=
  (db.rows k).pending.any fun (holder, _) => tx != some holder

/-- The version of a row that a statement sees. -/
def seen (tx : Option Nat) (k : κ) : Option ρ :=
  match (db.rows k).pending with
  | some (holder, row) => if tx = some holder then some row else (db.rows k).committed
  | none => (db.rows k).committed

/-- Begin a transaction. -/
def begin : Nat × Database κ ρ ε :=
  (db.begun, { db with
    begun := db.begun + 1
    status := Function.update db.status db.begun (.active []) })

def write (tx : Option Nat) (k : κ) (row : ρ) : Database κ ρ ε :=
  { db with
    rows := Function.update db.rows k (match tx with
      | none => { committed := some row }
      | some tx => { db.rows k with pending := some (tx, row) }) }

def append (tx : Option Nat) (entry : ε) : Database κ ρ ε :=
  match tx with
  | none => { db with log := db.log ++ [entry] }
  | some tx => { db with
      status := Function.update db.status tx (.active (db.entries tx ++ [entry])) }

def commit (tx : Nat) : Database κ ρ ε :=
  { db with
    rows := fun k => (db.rows k).commit tx
    log := db.log ++ db.entries tx
    status := Function.update db.status tx .committed }

def rollback (tx : Nat) : Database κ ρ ε :=
  { db with
    rows := fun k => (db.rows k).rollback tx
    status := Function.update db.status tx .aborted }

end Database

end Data
