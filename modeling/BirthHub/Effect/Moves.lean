import BirthHub.Effect.System

/-!
# Disciplines given by moves

A move leads from a stage to a stage by an answered operation, and says nothing about
where a program may end. `movesDiscipline` marks each stage with how far the thread is,
which is read off the program, so that a program that follows the moves follows the
discipline.
-/

namespace Effect

/-- A stage, and how far a thread at it is. -/
structure Marked (S : Type) where
  stage : S
  outcome : Outcome

section

variable {I : Iface} {τ σ α S : Type}

/-- The step of marked stages: a running thread makes a move. -/
def markedStep (move : τ → S → (o : I.Op) → I.Answer o → S → Prop) (tag : τ) (s : Marked S)
    (o : I.Op) (answer : I.Answer o) (s' : Marked S) : Prop :=
  s.outcome = .running ∧ move tag s.stage o answer s'.stage

/-- The end of a marked stage: the outcome is that of the exit. -/
def markedEnds (exit : τ → Except I.Err α → S → Prop) (tag : τ) (x : Except I.Err α)
    (s : Marked S) : Prop :=
  s.outcome = (match x with
    | .ok _ => .returned
    | .error _ => .threw) ∧ exit tag x s.stage

variable {sys : System I τ σ α} {start : τ → S}
  {move : τ → S → (o : I.Op) → I.Answer o → S → Prop} {exit : τ → Except I.Err α → S → Prop}

/-- A program that follows the moves follows the steps of marked stages. -/
theorem Prog.Follows.marked {tag : τ} {p : Prog I α} {s : S}
    (follows : p.Follows (move tag) (exit tag) s) :
    p.Follows (markedStep move tag) (markedEnds exit tag) ⟨s, p.outcome⟩ := by
  induction p generalizing s with
  | pure a => exact ⟨rfl, follows⟩
  | throw e => exact ⟨rfl, follows⟩
  | op o k ih =>
      intro r
      obtain ⟨s', taken, rest⟩ := follows r
      exact ⟨⟨s', (k r).outcome⟩, ⟨rfl, taken⟩, ih r rest⟩

/-- The discipline of a system whose programs follow the moves. -/
def movesDiscipline (sys : System I τ σ α) (start : τ → S)
    (move : τ → S → (o : I.Op) → I.Answer o → S → Prop)
    (exit : τ → Except I.Err α → S → Prop) : Discipline I τ α where
  Stage := Marked S
  start tag := ⟨start tag, (sys.program tag).outcome⟩
  step := markedStep move
  ends := markedEnds exit
  progress := Marked.outcome
  progress_step taken := taken.1
  progress_returned ended := ended.1
  progress_threw ended := ended.1

end

end Effect
