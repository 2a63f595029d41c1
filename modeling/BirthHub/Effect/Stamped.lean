import BirthHub.Effect.System

/-!
# Runs with stamps

The trace of a run says in which order operations were answered, and not when.
`System.stamped` is a system that also keeps, for each event of the trace, a stamp of the
store in which the operation was answered, the time of a clock for instance. The stamps are
on the side: `System.Run.stamped` gives every run of the system its stamps.
-/

namespace Effect

variable {I : Iface} {τ σ α β κ : Type}

/-- The system with a stamp for each event of the trace, newest first. -/
def System.stamped (sys : System I τ σ α) (stamp : σ → κ) : System I τ (σ × List κ) α where
  Choice := sys.Choice
  handle o choice s :=
    (sys.handle o choice s.1).map fun (answer, s') => (answer, s', stamp s.1 :: s.2)
  program := sys.program
  Env := sys.Env
  env event s threads :=
    (sys.env event s.1 threads).map fun c =>
      { store := (c.store, s.2), spawn := c.spawn, settle := c.settle }

namespace World

/-- A world with the given stamps. -/
def stamp (w : World I τ σ β) (stamps : List κ) : World I τ (σ × List κ) β where
  store := (w.store, stamps)
  threads := w.threads
  trace := w.trace

/-- A world without its stamps. -/
def unstamped (w : World I τ (σ × List κ) β) : World I τ σ β where
  store := w.store.1
  threads := w.threads
  trace := w.trace

/-- The events with their stamps, newest first. -/
def log (w : World I τ (σ × List κ) β) : List (κ × Event I) := w.store.2.zip w.trace

@[simp] theorem unstamped_stamp (w : World I τ σ β) (stamps : List κ) :
    (w.stamp stamps).unstamped = w := rfl

theorem advance_log (w : World I τ (σ × List κ) β) (i : Nat) (b : β) (store : σ) (k : κ)
    (event : Event I) :
    (w.advance i b (store, k :: w.store.2) event).log = (k, event) :: w.log := rfl

end World

variable {sys : System I τ σ α} {stamp : σ → κ}

/-- An answer of the stamped system is one of the system, with a new stamp. -/
theorem System.stamped_handle {o : I.Op} {choice : sys.Choice} {s s' : σ × List κ}
    {answer : I.Answer o}
    (answered : (sys.stamped stamp).handle o choice s = some (answer, s')) :
    ∃ after, sys.handle o choice s.1 = some (answer, after) ∧ s' = (after, stamp s.1 :: s.2) := by
  obtain ⟨⟨answer', after⟩, before, same⟩ := Option.map_eq_some_iff.mp answered
  cases same
  exact ⟨after, before, rfl⟩

/-- A step of the system is one of the stamped system. -/
theorem System.step_stamped {w w' : World I τ σ (Prog I α)} {act : Act sys.Choice sys.Env}
    (taken : sys.step w act = some w') (stamps : List κ) :
    ∃ stamps', (sys.stamped stamp).step (w.stamp stamps) act = some (w'.stamp stamps') := by
  cases act with
  | run i choice =>
      obtain ⟨t, o, k, answer, store, found, pending, answered, rfl⟩ := step_run taken
      obtain ⟨tag, body, settled⟩ := t
      cases pending
      refine ⟨stamp w.store :: stamps, ?_⟩
      simp [step, World.stamp, World.advance, found, stamped, answered]
  | env event =>
      obtain ⟨c, allowed, rfl⟩ := step_env taken
      refine ⟨stamps, ?_⟩
      simp only [step, World.stamp, stamped, allowed, Option.map_some, Option.some.injEq]
      rfl

/-- Every run has stamps. -/
theorem System.Run.stamped {guard : World I τ σ (Prog I α) → Act sys.Choice sys.Env → Prop}
    {w₀ w : World I τ σ (Prog I α)} (stamps₀ : List κ) (reached : sys.Run guard w₀ w) :
    ∃ stamps, (sys.stamped stamp).Run (fun w act => guard w.unstamped act) (w₀.stamp stamps₀)
      (w.stamp stamps) := by
  induction reached with
  | refl => exact ⟨stamps₀, .refl⟩
  | step before allowed taken ih =>
      obtain ⟨stamps, ih⟩ := ih
      obtain ⟨stamps', taken'⟩ := System.step_stamped taken stamps
      exact ⟨stamps', .step ih allowed taken'⟩

end Effect
