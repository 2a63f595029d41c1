import Mathlib

/-!
# Programs over awaited operations

`Prog I α` is a program that awaits operations of an interface `I` (database
statements, queue calls, clock reads), each of which either answers or fails, and
that ends by returning a value or by letting an error escape. `Prog.tryCatch` and
`Prog.finallyDo` are the two ways such a program handles an error.

`Prog.Follows` relates a program to a *protocol*: a labelled transition relation on
stages that says which operations may be awaited at a stage and where each answer
leads. A program that follows a protocol can be replaced by its stage in every
argument about interleavings (`Effect.System`).
-/

namespace Effect

/-- The operations a program may await, what each answers, and the errors. -/
structure Iface where
  Op : Type
  Res : Op → Type
  Err : Type

/-- The answer to an operation: a result, or an error thrown at the `await`. -/
abbrev Iface.Answer (I : Iface) (o : I.Op) : Type := Except I.Err (I.Res o)

inductive Prog (I : Iface) (α : Type) : Type
  | pure (a : α)
  | throw (e : I.Err)
  | op (o : I.Op) (k : I.Answer o → Prog I α)

/-- How far a program is: still awaiting, returned, or ended by an error. -/
inductive Outcome
  | running
  | returned
  | threw
deriving DecidableEq, Repr

namespace Prog

variable {I : Iface} {α β : Type}

protected def bind : Prog I α → (α → Prog I β) → Prog I β
  | .pure a, f => f a
  | .throw e, _ => .throw e
  | .op o k, f => .op o fun r => (k r).bind f

/-- `try { p } catch (e) { h e }`. -/
protected def tryCatch : Prog I α → (I.Err → Prog I α) → Prog I α
  | .pure a, _ => .pure a
  | .throw e, h => h e
  | .op o k, h => .op o fun r => (k r).tryCatch h

/-- `try { p } finally { q }`: `q` runs on both exits and keeps the exit of `p`
unless it throws itself. -/
protected def finallyDo : Prog I α → Prog I Unit → Prog I α
  | .pure a, q => q.bind fun _ => .pure a
  | .throw e, q => q.bind fun _ => .throw e
  | .op o k, q => .op o fun r => (k r).finallyDo q

instance : Monad (Prog I) where
  pure := .pure
  bind := .bind

/-- Await one operation. -/
def perform (o : I.Op) : Prog I (I.Res o) :=
  .op o fun
    | .ok r => .pure r
    | .error e => .throw e

/-- A synchronous computation that may throw. -/
def ofExcept : Except I.Err α → Prog I α
  | .ok a => .pure a
  | .error e => .throw e

def outcome : Prog I α → Outcome
  | .pure _ => .returned
  | .throw _ => .threw
  | .op _ _ => .running

/-- The operation a program awaits next. -/
def pending : Prog I α → Option I.Op
  | .op o _ => some o
  | _ => none

@[simp] theorem pure_eq (a : α) : (Pure.pure a : Prog I α) = .pure a := rfl

@[simp] theorem bind_eq (p : Prog I α) (f : α → Prog I β) : p >>= f = p.bind f := rfl

@[simp] theorem pure_bind (a : α) (f : α → Prog I β) : (Prog.pure a).bind f = f a := rfl

@[simp] theorem throw_bind (e : I.Err) (f : α → Prog I β) :
    (Prog.throw e).bind f = .throw e := rfl

@[simp] theorem op_bind (o : I.Op) (k : I.Answer o → Prog I α) (f : α → Prog I β) :
    (Prog.op o k).bind f = .op o fun r => (k r).bind f := rfl

@[simp] theorem pure_tryCatch (a : α) (h : I.Err → Prog I α) :
    (Prog.pure a).tryCatch h = .pure a := rfl

@[simp] theorem throw_tryCatch (e : I.Err) (h : I.Err → Prog I α) :
    (Prog.throw e).tryCatch h = h e := rfl

@[simp] theorem op_tryCatch (o : I.Op) (k : I.Answer o → Prog I α) (h : I.Err → Prog I α) :
    (Prog.op o k).tryCatch h = .op o fun r => (k r).tryCatch h := rfl

@[simp] theorem pending_op (o : I.Op) (k : I.Answer o → Prog I α) :
    (Prog.op o k).pending = some o := rfl

theorem outcome_eq_running {p : Prog I α} : p.outcome = .running ↔ p.pending.isSome := by
  cases p <;> simp [outcome, pending]

end Prog

/-! ## Protocols -/

namespace Prog

variable {I : Iface} {α β : Type} {S : Type}
  {step : S → (o : I.Op) → I.Answer o → S → Prop}
  {Q Q' : Except I.Err α → S → Prop} {s : S}

/-- Every operation awaited from stage `s` on is a step of the protocol, whatever the
answers, and the exit satisfies `Q` at the stage reached. -/
def Follows (step : S → (o : I.Op) → I.Answer o → S → Prop)
    (Q : Except I.Err α → S → Prop) : Prog I α → S → Prop
  | .pure a, s => Q (.ok a) s
  | .throw e, s => Q (.error e) s
  | .op o k, s => ∀ r, ∃ s', step s o r s' ∧ (k r).Follows step Q s'

/-- The exit condition of `p` in `p.bind f`. -/
def bindPost (step : S → (o : I.Op) → I.Answer o → S → Prop)
    (Q : Except I.Err β → S → Prop) (f : α → Prog I β) : Except I.Err α → S → Prop
  | .ok a, s => (f a).Follows step Q s
  | .error e, s => Q (.error e) s

/-- The exit condition of `p` in `p.tryCatch h`. -/
def catchPost (step : S → (o : I.Op) → I.Answer o → S → Prop)
    (Q : Except I.Err α → S → Prop) (h : I.Err → Prog I α) : Except I.Err α → S → Prop
  | .ok a, s => Q (.ok a) s
  | .error e, s => (h e).Follows step Q s

theorem Follows.mono {p : Prog I α} (imp : ∀ x s, Q x s → Q' x s)
    (follows : p.Follows step Q s) : p.Follows step Q' s := by
  induction p generalizing s with
  | pure a => exact imp _ _ follows
  | throw e => exact imp _ _ follows
  | op o k ih =>
      intro r
      obtain ⟨s', taken, rest⟩ := follows r
      exact ⟨s', taken, ih r rest⟩

theorem Follows.bind {p : Prog I α} {f : α → Prog I β} {Q : Except I.Err β → S → Prop}
    (follows : p.Follows step (bindPost step Q f) s) : (p.bind f).Follows step Q s := by
  induction p generalizing s with
  | pure a => exact follows
  | throw e => exact follows
  | op o k ih =>
      intro r
      obtain ⟨s', taken, rest⟩ := follows r
      exact ⟨s', taken, ih r rest⟩

theorem Follows.tryCatch {p : Prog I α} {h : I.Err → Prog I α}
    (follows : p.Follows step (catchPost step Q h) s) : (p.tryCatch h).Follows step Q s := by
  induction p generalizing s with
  | pure a => exact follows
  | throw e => exact follows
  | op o k ih =>
      intro r
      obtain ⟨s', taken, rest⟩ := follows r
      exact ⟨s', taken, ih r rest⟩

/-- The exit condition of `p` in `p.finallyDo q`. -/
def finallyPost (step : S → (o : I.Op) → I.Answer o → S → Prop)
    (Q : Except I.Err α → S → Prop) (q : Prog I Unit) : Except I.Err α → S → Prop :=
  fun x s => q.Follows step (fun
    | .ok _, s' => Q x s'
    | .error e, s' => Q (.error e) s') s

theorem Follows.finallyDo {p : Prog I α} {q : Prog I Unit}
    (follows : p.Follows step (finallyPost step Q q) s) : (p.finallyDo q).Follows step Q s := by
  induction p generalizing s with
  | pure a =>
      refine Follows.bind (Follows.mono (fun x s' exit => ?_) follows)
      cases x <;> exact exit
  | throw e =>
      refine Follows.bind (Follows.mono (fun x s' exit => ?_) follows)
      cases x <;> exact exit
  | op o k ih =>
      intro r
      obtain ⟨s', taken, rest⟩ := follows r
      exact ⟨s', taken, ih r rest⟩

theorem Follows.perform {o : I.Op} {Q : Except I.Err (I.Res o) → S → Prop}
    (steps : ∀ r, ∃ s', step s o r s' ∧ Q r s') : (Prog.perform o).Follows step Q s := by
  intro r
  obtain ⟨s', taken, exit⟩ := steps r
  cases r <;> exact ⟨s', taken, exit⟩

theorem Follows.performBind {o : I.Op} {f : I.Res o → Prog I α}
    (answered : ∀ a, ∃ s', step s o (.ok a) s' ∧ (f a).Follows step Q s')
    (failed : ∀ e, ∃ s', step s o (.error e) s' ∧ Q (.error e) s') :
    ((Prog.perform o).bind f).Follows step Q s := by
  refine Follows.bind (Follows.perform fun r => ?_)
  cases r with
  | ok a => exact answered a
  | error e => exact failed e

/-! ### The operations a program may await -/

/-- Every operation the program may come to await satisfies `A`. -/
def Within (A : I.Op → Prop) : Prog I α → Prop
  | .pure _ => True
  | .throw _ => True
  | .op o k => A o ∧ ∀ r, (k r).Within A

variable {A : I.Op → Prop}

theorem Within.mono {A' : I.Op → Prop} {p : Prog I α} (imp : ∀ o, A o → A' o)
    (within : p.Within A) : p.Within A' := by
  induction p with
  | pure a => trivial
  | throw e => trivial
  | op o k ih => exact ⟨imp o within.1, fun r => ih r (within.2 r)⟩

theorem Within.all (p : Prog I α) : p.Within fun _ => True := by
  induction p with
  | pure a => trivial
  | throw e => trivial
  | op o k ih => exact ⟨trivial, ih⟩

theorem Within.bind {p : Prog I α} {f : α → Prog I β} (first : p.Within A)
    (rest : ∀ a, (f a).Within A) : (p.bind f).Within A := by
  induction p with
  | pure a => exact rest a
  | throw e => trivial
  | op o k ih => exact ⟨first.1, fun r => ih r (first.2 r)⟩

theorem Within.of_bind {p : Prog I α} {f : α → Prog I β} (within : (p.bind f).Within A) :
    p.Within A := by
  induction p with
  | pure a => trivial
  | throw e => trivial
  | op o k ih => exact ⟨within.1, fun r => ih r (within.2 r)⟩

theorem Within.tryCatch {p : Prog I α} {h : I.Err → Prog I α} (first : p.Within A)
    (rest : ∀ e, (h e).Within A) : (p.tryCatch h).Within A := by
  induction p with
  | pure a => trivial
  | throw e => exact rest e
  | op o k ih => exact ⟨first.1, fun r => ih r (first.2 r)⟩

theorem Within.finallyDo {p : Prog I α} {q : Prog I Unit} (first : p.Within A)
    (last : q.Within A) : (p.finallyDo q).Within A := by
  induction p with
  | pure a => exact last.bind fun _ => trivial
  | throw e => exact last.bind fun _ => trivial
  | op o k ih => exact ⟨first.1, fun r => ih r (first.2 r)⟩

theorem Within.perform {o : I.Op} (within : A o) : (Prog.perform o).Within A := by
  refine ⟨within, fun r => ?_⟩
  cases r <;> trivial

theorem Within.ite {c : Prop} [Decidable c] {p q : Prog I α} (first : p.Within A)
    (second : q.Within A) : (if c then p else q).Within A := by
  split
  · exact first
  · exact second

theorem Within.ofExcept {x : Except I.Err α} : (Prog.ofExcept x).Within A := by
  cases x <;> trivial

/-- The program comes to another one through some operations, with their answers. -/
inductive Goes {α : Type} : Prog I α → List ((o : I.Op) × I.Answer o) → Prog I α → Prop
  | stop {p : Prog I α} : Goes p [] p
  | op {o : I.Op} {k : I.Answer o → Prog I α} {answer : I.Answer o} {p : Prog I α}
      {events : List ((o : I.Op) × I.Answer o)} (more : Goes (k answer) events p) :
      Goes (.op o k) (⟨o, answer⟩ :: events) p

/-- What a program has awaited is within what it may await. -/
theorem Within.goes {p p' : Prog I α} {events : List ((o : I.Op) × I.Answer o)}
    (within : p.Within A) (goes : p.Goes events p') : ∀ event ∈ events, A event.1 := by
  induction goes with
  | stop => exact fun event inside => (List.not_mem_nil inside).elim
  | op more ih =>
      intro event inside
      rcases List.mem_cons.mp inside with rfl | later
      · exact within.1
      · exact ih (within.2 _) event later

theorem Goes.stop_inv {p p' : Prog I α} (goes : p.Goes [] p') : p = p' := by
  cases goes with
  | stop => rfl

theorem Goes.op_inv {o o' : I.Op} {k : I.Answer o → Prog I α} {answer : I.Answer o'}
    {events : List ((o : I.Op) × I.Answer o)} {p : Prog I α}
    (goes : (Prog.op o k).Goes (⟨o', answer⟩ :: events) p) :
    ∃ same : o' = o, (k (same ▸ answer)).Goes events p := by
  cases goes with
  | op more => exact ⟨rfl, more⟩

end Prog

end Effect
