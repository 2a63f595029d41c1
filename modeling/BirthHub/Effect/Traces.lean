import BirthHub.Effect.Prog

/-!
# What a program has done

An observer folds the events of a run, one operation with its answer after another, into what is
known of the run so far, and a rule says which operations are allowed at what is known. A program
that follows the rule keeps to it in all its runs, and what the rule preserves holds at all times.
-/

namespace Effect

/-- An operation with its answer. -/
abbrev Iface.Event (I : Iface) : Type := (o : I.Op) × I.Answer o

section

variable {I : Iface} {α S : Type} {observe : S → I.Event → S} {allowed : S → I.Op → Prop}
  {Q : Except I.Err α → S → Prop} {s : S} {p p' : Prog I α} {events : List I.Event}

theorem Prog.Follows.ofExcept {step : S → (o : I.Op) → I.Answer o → S → Prop} {x : Except I.Err α}
    (returns : ∀ a, x = .ok a → Q (.ok a) s) (throws : ∀ e, x = .error e → Q (.error e) s) :
    (Prog.ofExcept x).Follows step Q s := by
  cases x with
  | ok a => exact returns a rfl
  | error e => exact throws e rfl

/-- The protocol of an observer: each allowed operation, and what is known after its answer. -/
def Watched (observe : S → I.Event → S) (allowed : S → I.Op → Prop) (s : S) (o : I.Op)
    (answer : I.Answer o) (s' : S) : Prop :=
  allowed s o ∧ s' = observe s ⟨o, answer⟩

/-- What is left of a program after some events follows the rule from what they show. -/
theorem Prog.Follows.watched (follows : p.Follows (Watched observe allowed) Q s)
    (goes : p.Goes events p') : p'.Follows (Watched observe allowed) Q (events.foldl observe s) := by
  induction goes generalizing s with
  | stop => exact follows
  | @op o k answer p' events more ih =>
      obtain ⟨s', ⟨_, rfl⟩, rest⟩ := follows answer
      exact ih rest

/-- Every operation of a run was allowed when it was awaited. -/
theorem Prog.Follows.keeps (follows : p.Follows (Watched observe allowed) Q s)
    (goes : p.Goes events p') {before after : List I.Event} {event : I.Event}
    (parts : events = before ++ event :: after) : allowed (before.foldl observe s) event.1 := by
  induction goes generalizing s before with
  | stop =>
      exact (List.append_ne_nil_of_right_ne_nil _ (List.cons_ne_nil event after) parts.symm).elim
  | @op o k answer p' events more ih =>
      obtain ⟨s', ⟨permitted, rfl⟩, rest⟩ := follows answer
      cases before with
      | nil =>
          obtain ⟨rfl, _⟩ := List.cons.inj parts
          exact permitted
      | cons first before =>
          obtain ⟨rfl, parts'⟩ := List.cons.inj parts
          exact ih rest parts'

theorem Prog.Follows.invariant (Inv : S → Prop) (follows : p.Follows (Watched observe allowed) Q s)
    (preserved : ∀ s (event : I.Event), Inv s → allowed s event.1 → Inv (observe s event))
    (start : Inv s) (goes : p.Goes events p') : Inv (events.foldl observe s) := by
  induction goes generalizing s with
  | stop => exact start
  | @op o k answer p' events more ih =>
      obtain ⟨s', ⟨permitted, rfl⟩, rest⟩ := follows answer
      exact ih rest (preserved s ⟨o, answer⟩ start permitted)

end

end Effect
