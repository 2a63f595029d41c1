import BirthHub.Effect.System

/-!
# Requests served one after another

`System.Exec` is the big step of a program that runs alone, and `System.Serves` a
history of requests each of which is served to its end before the next one starts. An
inversion rule for each way to build a program turns an execution into what it did, and
`System.Serves.invariant` carries a property of the store through a history.
-/

namespace Effect

/-- A request that was served, and how it ended. -/
structure Call (I : Iface) (τ α : Type) where
  request : τ
  result : Except I.Err α

section

variable {I : Iface} {τ σ α β γ : Type} (sys : System I τ σ α)

/-- Alone, a program takes the store from `s` to `s'` and ends with `x`. -/
inductive System.Exec {β : Type} : Prog I β → σ → Except I.Err β → σ → Prop
  | pure {a : β} {s : σ} : Exec (.pure a) s (.ok a) s
  | throw {e : I.Err} {s : σ} : Exec (.throw e) s (.error e) s
  | op {o : I.Op} {k : I.Answer o → Prog I β} {choice : sys.Choice} {answer : I.Answer o}
      {x : Except I.Err β} {s s' s'' : σ}
      (answered : sys.handle o choice s = some (answer, s'))
      (rest : Exec (k answer) s' x s'') : Exec (.op o k) s x s''

/-- From `s` the calls are served one after another up to `s'`; each is made in a store
that allows its request. -/
inductive System.Serves (guard : σ → τ → Prop) : σ → List (Call I τ α) → σ → Prop
  | refl {s : σ} : Serves guard s [] s
  | call {s s' s'' : σ} {calls : List (Call I τ α)} {request : τ} {result : Except I.Err α}
      (before : Serves guard s calls s') (allowed : guard s' request)
      (served : sys.Exec (sys.program request) s' result s'') :
      Serves guard s (calls ++ [⟨request, result⟩]) s''

/-- The system that answers only the operations that `allows` lets pass. -/
def System.guarded (allows : σ → I.Op → Bool) : System I τ σ α where
  Choice := sys.Choice
  handle o choice s := if allows s o then sys.handle o choice s else none
  program := sys.program
  Env := sys.Env
  env := sys.env

/-- Run a program alone with the given choices for its operations. -/
def System.alone : Prog I β → List sys.Choice → σ → Option (Except I.Err β × σ)
  | .pure a, _, s => some (.ok a, s)
  | .throw e, _, s => some (.error e, s)
  | .op o k, choice :: choices, s =>
      (sys.handle o choice s).bind fun (answer, s') => alone (k answer) choices s'
  | .op _ _, [], _ => none

/-- Serve the given requests, each with the choices for its operations, as long as each
passes the guard. -/
def System.serve (guard : σ → τ → Bool) (s : σ) :
    List (τ × List sys.Choice) → Option (List (Call I τ α) × σ)
  | [] => some ([], s)
  | (request, choices) :: rest =>
      if guard s request then
        (sys.alone (sys.program request) choices s).bind fun (result, s') =>
          (serve guard s' rest).map fun (calls, s'') => (⟨request, result⟩ :: calls, s'')
      else none

end

section

variable {I : Iface} {τ σ α β γ : Type} {sys : System I τ σ α}
  {p : Prog I β} {f : β → Prog I γ} {s s' s'' : σ}

theorem System.exec_pure {a : β} {x : Except I.Err β} :
    sys.Exec (.pure a) s x s' ↔ x = .ok a ∧ s' = s := by
  constructor
  · intro ran
    cases ran
    exact ⟨rfl, rfl⟩
  · rintro ⟨rfl, rfl⟩
    exact .pure

theorem System.exec_throw {e : I.Err} {x : Except I.Err β} :
    sys.Exec (.throw e) s x s' ↔ x = .error e ∧ s' = s := by
  constructor
  · intro ran
    cases ran
    exact ⟨rfl, rfl⟩
  · rintro ⟨rfl, rfl⟩
    exact .throw

theorem System.exec_perform {o : I.Op} {x : I.Answer o} :
    sys.Exec (Prog.perform o) s x s' ↔ ∃ choice, sys.handle o choice s = some (x, s') := by
  constructor
  · intro ran
    cases ran with
    | @op _ _ choice answer _ _ _ _ answered rest =>
        cases answer with
        | ok r =>
            cases rest
            exact ⟨choice, answered⟩
        | error e =>
            cases rest
            exact ⟨choice, answered⟩
  · rintro ⟨choice, answered⟩
    cases x with
    | ok r => exact .op answered .pure
    | error e => exact .op answered .throw

/-- A sequence ends by an error of its first part, or goes on from what that returned. -/
theorem System.exec_bind {x : Except I.Err γ} :
    sys.Exec (p.bind f) s x s'' ↔
      (∃ e, x = .error e ∧ sys.Exec p s (.error e) s'') ∨
      ∃ a s', sys.Exec p s (.ok a) s' ∧ sys.Exec (f a) s' x s'' := by
  constructor
  · intro ran
    induction p generalizing s with
    | pure a => exact .inr ⟨a, s, .pure, ran⟩
    | throw e =>
        obtain ⟨rfl, rfl⟩ := System.exec_throw.mp ran
        exact .inl ⟨e, rfl, .throw⟩
    | op o k ih =>
        cases ran with
        | op answered rest =>
            rcases ih _ rest with ⟨e, ended, first⟩ | ⟨a, s₁, first, second⟩
            · exact .inl ⟨e, ended, .op answered first⟩
            · exact .inr ⟨a, s₁, .op answered first, second⟩
  · rintro (⟨e, rfl, first⟩ | ⟨a, s₁, first, second⟩)
    · induction p generalizing s with
      | pure a => cases (System.exec_pure.mp first).1
      | throw e' =>
          obtain ⟨same, rfl⟩ := System.exec_throw.mp first
          cases Except.error.inj same
          exact .throw
      | op o k ih =>
          cases first with
          | op answered rest => exact .op answered (ih _ rest)
    · induction p generalizing s with
      | pure a' =>
          obtain ⟨same, rfl⟩ := System.exec_pure.mp first
          cases Except.ok.inj same
          exact second
      | throw e => cases (System.exec_throw.mp first).1
      | op o k ih =>
          cases first with
          | op answered rest => exact .op answered (ih _ rest)

/-- An awaited operation fails and ends the sequence, or answers and the rest goes on. -/
theorem System.exec_performBind {o : I.Op} {f : I.Res o → Prog I γ} {x : Except I.Err γ} :
    sys.Exec ((Prog.perform o).bind f) s x s'' ↔
      (∃ e choice, x = .error e ∧ sys.handle o choice s = some (.error e, s'')) ∨
      ∃ r choice s', sys.handle o choice s = some (.ok r, s') ∧ sys.Exec (f r) s' x s'' := by
  rw [System.exec_bind]
  constructor
  · rintro (⟨e, ended, failed⟩ | ⟨r, s', answered, rest⟩)
    · obtain ⟨choice, failed⟩ := System.exec_perform.mp failed
      exact .inl ⟨e, choice, ended, failed⟩
    · obtain ⟨choice, answered⟩ := System.exec_perform.mp answered
      exact .inr ⟨r, choice, s', answered, rest⟩
  · rintro (⟨e, choice, ended, failed⟩ | ⟨r, choice, s', answered, rest⟩)
    · exact .inl ⟨e, ended, System.exec_perform.mpr ⟨choice, failed⟩⟩
    · exact .inr ⟨r, s', System.exec_perform.mpr ⟨choice, answered⟩, rest⟩

/-- What every operation keeps holds after a program if it held before. -/
theorem System.Exec.keeps {P : σ → Prop} {x : Except I.Err β}
    (each : ∀ {o choice s answer s'}, P s → sys.handle o choice s = some (answer, s') → P s')
    (holds : P s) (ran : sys.Exec p s x s') : P s' := by
  induction ran with
  | pure => exact holds
  | throw => exact holds
  | op answered rest ih => exact ih (each holds answered)

/-- What every operation within `A` keeps holds after a program within `A`. -/
theorem System.Exec.keeps_within {A : I.Op → Prop} {P : σ → Prop} {x : Except I.Err β}
    (each : ∀ {o choice s answer s'}, A o → P s → sys.handle o choice s = some (answer, s') → P s')
    (within : p.Within A) (holds : P s) (ran : sys.Exec p s x s') : P s' := by
  induction ran with
  | pure => exact holds
  | throw => exact holds
  | op answered rest ih => exact ih (within.2 _) (each within.1 holds answered)

theorem System.exists_exec {A : I.Op → Prop} (within : p.Within A)
    (each : ∀ o s, A o → ∃ choice answer s', sys.handle o choice s = some (answer, s')) (s : σ) :
    ∃ x s', sys.Exec p s x s' := by
  induction p generalizing s with
  | pure a => exact ⟨_, _, .pure⟩
  | throw e => exact ⟨_, _, .throw⟩
  | op o k ih =>
      obtain ⟨choice, answer, s₁, answered⟩ := each o s within.1
      obtain ⟨x, s', rest⟩ := ih answer (within.2 answer) s₁
      exact ⟨x, s', .op answered rest⟩

/-- What a program does in a store it does in a related one, if its operations do. -/
theorem System.Exec.simulate {A : I.Op → Prop} {R : σ → σ → Prop} {x : Except I.Err β} {t : σ}
    (each : ∀ {o choice s t answer s'}, A o → R s t → sys.handle o choice s = some (answer, s') →
      ∃ t', sys.handle o choice t = some (answer, t') ∧ R s' t')
    (within : p.Within A) (related : R s t) (ran : sys.Exec p s x s') :
    ∃ t', sys.Exec p t x t' ∧ R s' t' := by
  induction ran generalizing t with
  | pure => exact ⟨t, .pure, related⟩
  | throw => exact ⟨t, .throw, related⟩
  | op answered rest ih =>
      obtain ⟨t₁, answered', related'⟩ := each within.1 related answered
      obtain ⟨t', rest', last⟩ := ih (within.2 _) related'
      exact ⟨t', .op answered' rest', last⟩

theorem System.guarded_handle {allows : σ → I.Op → Bool} {o : I.Op} {choice : sys.Choice}
    {answered : I.Answer o × σ} :
    (sys.guarded allows).handle o choice s = some answered ↔
      allows s o = true ∧ sys.handle o choice s = some answered :=
  Option.ite_none_right_eq_some

/-! ## Histories -/

variable {guard : σ → τ → Prop} {calls later : List (Call I τ α)}

theorem System.Serves.trans (first : sys.Serves guard s calls s')
    (second : sys.Serves guard s' later s'') : sys.Serves guard s (calls ++ later) s'' := by
  induction second with
  | refl => simpa using first
  | call before allowed served ih =>
      rw [← List.append_assoc]
      exact .call ih allowed served

/-- What every allowed call keeps holds after a history if it held before. -/
theorem System.Serves.invariant {P : σ → Prop}
    (each : ∀ {s request result s'}, P s → guard s request →
      sys.Exec (sys.program request) s result s' → P s')
    (holds : P s) (served : sys.Serves guard s calls s') : P s' := by
  induction served with
  | refl => exact holds
  | call before allowed served ih => exact each ih allowed served

theorem System.Exec.of_alone {x : Except I.Err β} {choices : List sys.Choice}
    (ran : sys.alone p choices s = some (x, s')) : sys.Exec p s x s' := by
  induction p generalizing s choices with
  | pure a =>
      cases ran
      exact .pure
  | throw e =>
      cases ran
      exact .throw
  | op o k ih =>
      cases choices with
      | nil => cases ran
      | cons choice choices =>
          obtain ⟨⟨answer, s₁⟩, answered, rest⟩ := Option.bind_eq_some_iff.mp ran
          exact .op answered (ih _ rest)

theorem System.Exec.of_alone_get {choices : List sys.Choice}
    (ends : (sys.alone p choices s).isSome) :
    sys.Exec p s ((sys.alone p choices s).get ends).1 ((sys.alone p choices s).get ends).2 :=
  .of_alone (Option.some_get ends).symm

theorem System.Serves.of_serve {test : σ → τ → Bool}
    (sound : ∀ s request, test s request = true → guard s request)
    {requests : List (τ × List sys.Choice)}
    (ran : sys.serve test s requests = some (calls, s')) : sys.Serves guard s calls s' := by
  induction requests generalizing s calls with
  | nil =>
      cases ran
      exact .refl
  | cons first rest ih =>
      obtain ⟨request, choices⟩ := first
      simp only [serve] at ran
      split at ran
      · rename_i passes
        obtain ⟨⟨result, s₁⟩, alone, others⟩ := Option.bind_eq_some_iff.mp ran
        obtain ⟨⟨calls', s₂⟩, served, same⟩ := Option.map_eq_some_iff.mp others
        cases same
        have one : sys.Serves guard s [⟨request, result⟩] s₁ :=
          .call .refl (sound s request passes) (.of_alone alone)
        exact one.trans (ih served)
      · cases ran

theorem System.Serves.of_serve_get {test : σ → τ → Bool}
    (sound : ∀ s request, test s request = true → guard s request)
    {requests : List (τ × List sys.Choice)} (ends : (sys.serve test s requests).isSome) :
    sys.Serves guard s ((sys.serve test s requests).get ends).1
      ((sys.serve test s requests).get ends).2 :=
  .of_serve sound (Option.some_get ends).symm

end

end Effect
