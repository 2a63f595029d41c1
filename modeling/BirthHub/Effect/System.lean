import BirthHub.Effect.Prog

/-!
# Systems of interleaved programs

A `World` is a store shared by numbered threads, each of which runs a program, with
the trace of the operations answered so far. A `System` says how the store answers an
operation, which program a task runs, and what the environment may do between two
operations: change the store, start a thread, acknowledge one that has ended.

`System.Run` is a run whose steps all satisfy a guard; `System.execute` evaluates one
given run. `Discipline.Refines` replaces each program by the stage of a protocol it
follows, and `System.Run.invariant` is the rule by which a property of stages, store
and trace is carried through every run.
-/

namespace Effect

/-- A thread: the task it was started for, how far it is, and whether the environment
has acknowledged its end. -/
structure Thread (τ β : Type) where
  tag : τ
  body : β
  settled : Bool

def Thread.map {τ β γ : Type} (f : β → γ) (t : Thread τ β) : Thread τ γ :=
  ⟨t.tag, f t.body, t.settled⟩

/-- An operation that was answered, and the thread that awaited it. -/
structure Event (I : Iface) where
  actor : Nat
  op : I.Op
  answer : I.Answer op

/-- A store, the threads by number, and the trace, newest event first. -/
structure World (I : Iface) (τ σ β : Type) where
  store : σ
  threads : List (Thread τ β)
  trace : List (Event I)

/-- What the environment does in one step. -/
structure Change (τ σ : Type) where
  store : σ
  spawn : List τ := []
  settle : Option Nat := none

/-- One step of a run: the thread that moves with the choice left to its operation, or
a move of the environment. -/
inductive Act (χ ε : Type)
  | run (thread : Nat) (choice : χ)
  | env (event : ε)

structure System (I : Iface) (τ σ α : Type) where
  Choice : Type
  /-- The answer of the store to an operation; `none` when it does not answer now. -/
  handle : (o : I.Op) → Choice → σ → Option (I.Answer o × σ)
  program : τ → Prog I α
  Env : Type
  /-- What the environment may do, given the store and how far each thread is. -/
  env : Env → σ → List (Thread τ Outcome) → Option (Change τ σ)

namespace World

variable {I : Iface} {τ σ β : Type}

/-- Thread `i` moves to `b` by an operation that was answered. -/
def advance (w : World I τ σ β) (i : Nat) (b : β) (store : σ) (event : Event I) :
    World I τ σ β where
  store := store
  threads := w.threads.modify i fun t => { t with body := b }
  trace := event :: w.trace

/-- The environment makes a change; a spawned thread starts at `start`. -/
def change (w : World I τ σ β) (start : τ → β) (c : Change τ σ) : World I τ σ β where
  store := c.store
  threads :=
    (match c.settle with
      | none => w.threads
      | some i => w.threads.modify i fun t => { t with settled := true }) ++
    c.spawn.map fun tag => ⟨tag, start tag, false⟩
  trace := w.trace

@[simp] theorem advance_store (w : World I τ σ β) (i : Nat) (b : β) (store : σ)
    (event : Event I) : (w.advance i b store event).store = store := rfl

@[simp] theorem advance_trace (w : World I τ σ β) (i : Nat) (b : β) (store : σ)
    (event : Event I) : (w.advance i b store event).trace = event :: w.trace := rfl

@[simp] theorem change_store (w : World I τ σ β) (start : τ → β) (c : Change τ σ) :
    (w.change start c).store = c.store := rfl

@[simp] theorem change_trace (w : World I τ σ β) (start : τ → β) (c : Change τ σ) :
    (w.change start c).trace = w.trace := rfl

theorem advance_self {w : World I τ σ β} {i : Nat} {t : Thread τ β} {b : β} {store : σ}
    {event : Event I} (found : w.threads[i]? = some t) :
    (w.advance i b store event).threads[i]? = some { t with body := b } := by
  simp [advance, found]

theorem advance_other {w : World I τ σ β} {i j : Nat} {b : β} {store : σ}
    {event : Event I} (other : j ≠ i) :
    (w.advance i b store event).threads[j]? = w.threads[j]? := by
  simp [advance, Ne.symm other]

/-- A thread after an answered operation is the one that moved or was there before. -/
theorem advance_cases {w : World I τ σ β} {i j : Nat} {t u : Thread τ β} {b : β}
    {store : σ} {event : Event I} (found : w.threads[i]? = some t)
    (after : (w.advance i b store event).threads[j]? = some u) :
    (j = i ∧ u = { t with body := b }) ∨ (j ≠ i ∧ w.threads[j]? = some u) := by
  by_cases same : j = i
  · subst same
    rw [advance_self found] at after
    exact .inl ⟨rfl, (Option.some.inj after).symm⟩
  · rw [advance_other same] at after
    exact .inr ⟨same, after⟩

theorem mem_advance {w : World I τ σ β} {i : Nat} {t u : Thread τ β} {b : β} {store : σ}
    {event : Event I} (found : w.threads[i]? = some t)
    (after : u ∈ (w.advance i b store event).threads) :
    u = { t with body := b } ∨ u ∈ w.threads := by
  obtain ⟨j, there⟩ := List.mem_iff_getElem?.mp after
  rcases advance_cases found there with ⟨_, same⟩ | ⟨_, before⟩
  · exact .inl same
  · exact .inr (List.mem_of_getElem? before)

/-- A thread keeps its task and its settlement when some thread moves. -/
theorem advance_kept {w : World I τ σ β} {i j : Nat} {u : Thread τ β} {b : β} {store : σ}
    {event : Event I} (after : (w.advance i b store event).threads[j]? = some u) :
    ∃ t, w.threads[j]? = some t ∧ u.tag = t.tag ∧ u.settled = t.settled := by
  simp only [advance, List.getElem?_modify] at after
  obtain ⟨t, found, rfl⟩ := Option.map_eq_some_iff.mp after
  refine ⟨t, found, ?_⟩
  split <;> exact ⟨rfl, rfl⟩

@[simp] theorem advance_length (w : World I τ σ β) (i : Nat) (b : β) (store : σ)
    (event : Event I) : (w.advance i b store event).threads.length = w.threads.length := by
  simp [advance]

theorem change_length (w : World I τ σ β) (start : τ → β) (c : Change τ σ) :
    (w.change start c).threads.length = w.threads.length + c.spawn.length := by
  rcases c with ⟨store, spawn, settle⟩
  cases settle <;> simp [change]

/-- A thread after a change was there before, up to being settled, or was spawned. -/
theorem change_cases {w : World I τ σ β} {start : τ → β} {c : Change τ σ} {j : Nat}
    {u : Thread τ β} (after : (w.change start c).threads[j]? = some u) :
    (∃ t, w.threads[j]? = some t ∧
      u = { t with settled := t.settled || decide (c.settle = some j) }) ∨
    (∃ tag, w.threads.length ≤ j ∧ c.spawn[j - w.threads.length]? = some tag ∧
      u = ⟨tag, start tag, false⟩) := by
  rcases c with ⟨store, spawn, settle⟩
  cases settle with
  | none =>
      simp only [change, List.getElem?_append] at after
      split at after
      · exact .inl ⟨u, after, by simp⟩
      · rename_i beyond
        simp only [List.getElem?_map, Option.map_eq_some_iff] at after
        obtain ⟨tag, found, rfl⟩ := after
        exact .inr ⟨tag, by omega, found, rfl⟩
  | some i =>
      simp only [change, List.getElem?_append, List.length_modify] at after
      split at after
      · simp only [List.getElem?_modify] at after
        obtain ⟨t, found, rfl⟩ := Option.map_eq_some_iff.mp after
        refine .inl ⟨t, found, ?_⟩
        by_cases same : i = j <;> simp [same]
      · rename_i beyond
        simp only [List.getElem?_map, Option.map_eq_some_iff] at after
        obtain ⟨tag, found, rfl⟩ := after
        exact .inr ⟨tag, by omega, found, rfl⟩

/-- A thread that was there is still there after a change, up to being settled. -/
theorem change_kept {w : World I τ σ β} {start : τ → β} {c : Change τ σ} {j : Nat}
    {t : Thread τ β} (found : w.threads[j]? = some t) :
    (w.change start c).threads[j]? =
      some { t with settled := t.settled || decide (c.settle = some j) } := by
  obtain ⟨bound, rfl⟩ := List.getElem?_eq_some_iff.mp found
  rcases c with ⟨store, spawn, settle⟩
  cases settle with
  | none => simp [change, List.getElem?_append, bound]
  | some i =>
      by_cases same : i = j <;> simp [change, List.getElem?_append, bound, same]

end World

namespace System

variable {I : Iface} {τ σ α : Type} (sys : System I τ σ α)

abbrev State : Type := World I τ σ (Prog I α)

def step (w : World I τ σ (Prog I α)) : Act sys.Choice sys.Env → Option (World I τ σ (Prog I α))
  | .run i choice =>
      match w.threads[i]? with
      | some ⟨_, .op o k, _⟩ =>
          (sys.handle o choice w.store).map fun (answer, store) =>
            w.advance i (k answer) store ⟨i, o, answer⟩
      | _ => none
  | .env event =>
      (sys.env event w.store (w.threads.map (Thread.map Prog.outcome))).map
        (w.change sys.program)

/-- Evaluate the given steps, as long as each is possible and passes the guard. -/
def execute (guard : World I τ σ (Prog I α) → Act sys.Choice sys.Env → Bool)
    (w : World I τ σ (Prog I α)) :
    List (Act sys.Choice sys.Env) → Option (World I τ σ (Prog I α))
  | [] => some w
  | act :: acts =>
      if guard w act then (sys.step w act).bind fun w' => execute guard w' acts else none

/-- A run whose steps all satisfy `guard`. -/
inductive Run (guard : World I τ σ (Prog I α) → Act sys.Choice sys.Env → Prop)
    (w₀ : World I τ σ (Prog I α)) : World I τ σ (Prog I α) → Prop
  | refl : Run guard w₀ w₀
  | step {w w' : World I τ σ (Prog I α)} {act : Act sys.Choice sys.Env}
      (before : Run guard w₀ w) (allowed : guard w act) (taken : sys.step w act = some w') :
      Run guard w₀ w'

variable {sys}

theorem Run.trans {guard : World I τ σ (Prog I α) → Act sys.Choice sys.Env → Prop}
    {w₀ w₁ w₂ : World I τ σ (Prog I α)} (first : sys.Run guard w₀ w₁)
    (second : sys.Run guard w₁ w₂) : sys.Run guard w₀ w₂ := by
  induction second with
  | refl => exact first
  | step before allowed taken ih => exact .step ih allowed taken

theorem Run.of_execute {guard : World I τ σ (Prog I α) → Act sys.Choice sys.Env → Prop}
    {test : World I τ σ (Prog I α) → Act sys.Choice sys.Env → Bool}
    (sound : ∀ w act, test w act = true → guard w act)
    {w w' : World I τ σ (Prog I α)} {acts : List (Act sys.Choice sys.Env)}
    (evaluated : sys.execute test w acts = some w') : sys.Run guard w w' := by
  induction acts generalizing w with
  | nil =>
      cases Option.some.inj evaluated
      exact .refl
  | cons act acts ih =>
      simp only [execute] at evaluated
      split at evaluated
      · rename_i passes
        obtain ⟨next, taken, rest⟩ := Option.bind_eq_some_iff.mp evaluated
        exact (Run.step .refl (sound w act passes) taken).trans (ih rest)
      · cases evaluated

/-- An evaluated run is one within what its acts satisfy. -/
theorem Run.of_execute_acts {allowed : Act sys.Choice sys.Env → Prop}
    {test : World I τ σ (Prog I α) → Act sys.Choice sys.Env → Bool}
    {w w' : World I τ σ (Prog I α)} {acts : List (Act sys.Choice sys.Env)}
    (within : ∀ act ∈ acts, allowed act) (evaluated : sys.execute test w acts = some w') :
    sys.Run (fun _ act => allowed act) w w' := by
  induction acts generalizing w with
  | nil =>
      cases Option.some.inj evaluated
      exact .refl
  | cons act acts ih =>
      simp only [execute] at evaluated
      split at evaluated
      · obtain ⟨next, taken, rest⟩ := Option.bind_eq_some_iff.mp evaluated
        exact (Run.step .refl (within act List.mem_cons_self) taken).trans
          (ih (fun later inside => within later (List.mem_cons_of_mem _ inside)) rest)
      · cases evaluated

/-- A run to a state with a property that can be evaluated there. -/
theorem Run.exists_of_execute {guard : World I τ σ (Prog I α) → Act sys.Choice sys.Env → Prop}
    {test : World I τ σ (Prog I α) → Act sys.Choice sys.Env → Bool}
    (sound : ∀ w act, test w act = true → guard w act) {w : World I τ σ (Prog I α)}
    {acts : List (Act sys.Choice sys.Env)} {holds : World I τ σ (Prog I α) → Bool}
    (evaluated : (sys.execute test w acts).any holds = true) :
    ∃ w', sys.Run guard w w' ∧ holds w' = true := by
  cases reached : sys.execute test w acts with
  | none => simp [reached] at evaluated
  | some w' => exact ⟨w', Run.of_execute sound reached, by simpa [reached] using evaluated⟩

theorem step_run {w w' : World I τ σ (Prog I α)} {i : Nat} {choice : sys.Choice}
    (taken : sys.step w (.run i choice) = some w') :
    ∃ t o k answer store, w.threads[i]? = some t ∧ t.body = .op o k ∧
      sys.handle o choice w.store = some (answer, store) ∧
      w' = w.advance i (k answer) store ⟨i, o, answer⟩ := by
  simp only [step] at taken
  split at taken
  · rename_i tag o k settled found
    obtain ⟨⟨answer, store⟩, answered, rfl⟩ := Option.map_eq_some_iff.mp taken
    exact ⟨_, o, k, answer, store, found, rfl, answered, rfl⟩
  · cases taken

theorem step_env {w w' : World I τ σ (Prog I α)} {event : sys.Env}
    (taken : sys.step w (.env event) = some w') :
    ∃ c, sys.env event w.store (w.threads.map (Thread.map Prog.outcome)) = some c ∧
      w' = w.change sys.program c := by
  obtain ⟨c, allowed, rfl⟩ := Option.map_eq_some_iff.mp taken
  exact ⟨c, allowed, rfl⟩

end System

/-! ## A thread that runs alone -/

section Alone

variable {I : Iface} {τ σ α β : Type} {sys : System I τ σ α}

/-- Program `p` goes on to `p'`, and the store from `s` to `s'`, by operations and choices
within `allowed`. The program may be part of a thread's, so its result type is free. -/
inductive System.Prefix (sys : System I τ σ α) (allowed : I.Op → sys.Choice → Prop) {β : Type} :
    Prog I β → σ → Prog I β → σ → Prop
  | refl {p : Prog I β} {s : σ} : Prefix sys allowed p s p s
  | op {o : I.Op} {k : I.Answer o → Prog I β} {choice : sys.Choice} {answer : I.Answer o}
      {p' : Prog I β} {s s' s'' : σ} (passes : allowed o choice)
      (answered : sys.handle o choice s = some (answer, s'))
      (rest : Prefix sys allowed (k answer) s' p' s'') : Prefix sys allowed (.op o k) s p' s''

variable {allowed : I.Op → sys.Choice → Prop} {p p' p'' : Prog I β} {s s' s'' : σ}

theorem System.Prefix.trans (first : sys.Prefix allowed p s p' s')
    (second : sys.Prefix allowed p' s' p'' s'') : sys.Prefix allowed p s p'' s'' := by
  induction first with
  | refl => exact second
  | op passes answered _ ih => exact .op passes answered (ih second)

theorem System.Prefix.bind {γ : Type} {f : β → Prog I γ} (first : sys.Prefix allowed p s p' s') :
    sys.Prefix allowed (p.bind f) s (p'.bind f) s' := by
  induction first with
  | refl => exact .refl
  | op passes answered _ ih => exact .op passes answered ih

theorem System.Prefix.tryCatch {h : I.Err → Prog I β} (first : sys.Prefix allowed p s p' s') :
    sys.Prefix allowed (p.tryCatch h) s (p'.tryCatch h) s' := by
  induction first with
  | refl => exact .refl
  | op passes answered _ ih => exact .op passes answered ih

/-- An awaited operation that succeeds goes on to the rest of the program. -/
theorem System.Prefix.performBind {o : I.Op} {f : I.Res o → Prog I β} {choice : sys.Choice}
    {r : I.Res o} (passes : allowed o choice)
    (answered : sys.handle o choice s = some (.ok r, s')) :
    sys.Prefix allowed ((Prog.perform o).bind f) s (f r) s' :=
  .op passes answered .refl

/-- In a run a thread can go on alone along a prefix of its program. -/
theorem System.Prefix.run {guard : World I τ σ (Prog I α) → Act sys.Choice sys.Env → Prop}
    {p p' : Prog I α} {w : World I τ σ (Prog I α)} {i : Nat} {t : Thread τ (Prog I α)}
    (passes : ∀ w choice o, allowed o choice → guard w (.run i choice))
    (goes : sys.Prefix allowed p w.store p' s') (found : w.threads[i]? = some t)
    (body : t.body = p) :
    ∃ w' events, sys.Run guard w w' ∧ w'.store = s' ∧
      w'.threads = w.threads.modify i (fun t => { t with body := p' }) ∧
      w'.trace = events ++ w.trace ∧
      ∀ event ∈ events, event.actor = i ∧ ∃ choice, allowed event.op choice := by
  generalize start : w.store = s at goes
  induction goes generalizing w t with
  | refl =>
      refine ⟨w, [], .refl, start, ?_, rfl, by simp⟩
      refine List.ext_getElem? fun j => ?_
      rw [List.getElem?_modify]
      by_cases same : i = j
      · subst same
        simp [found, ← body]
      · simp [same]
  | @op o k choice answer p' s s' s'' allows answered rest ih =>
      have taken : sys.step w (.run i choice) =
          some (w.advance i (k answer) s' ⟨i, o, answer⟩) := by
        rcases t with ⟨tag, body', settled⟩
        subst body start
        simp [System.step, found, answered]
      obtain ⟨w', events, reached, store, threads, trace, own⟩ :=
        ih (World.advance_self found) rfl rfl
      refine ⟨w', events ++ [⟨i, o, answer⟩],
        (System.Run.step .refl (passes w choice o allows) taken).trans reached, store, ?_, ?_, ?_⟩
      · rw [threads, World.advance, List.modify_modify_eq]
        rfl
      · rw [trace, World.advance_trace, List.append_assoc]
        rfl
      · intro event there
        rcases List.mem_append.mp there with later | now
        · exact own event later
        · rw [List.mem_singleton.mp now]
          exact ⟨rfl, choice, allows⟩

end Alone

/-! ## Refinement to the stages of a protocol -/

/-- A protocol for each task: where a thread starts, the steps it may take, where it may
end, and how far a thread at a stage is. -/
structure Discipline (I : Iface) (τ α : Type) where
  Stage : Type
  start : τ → Stage
  step : τ → Stage → (o : I.Op) → I.Answer o → Stage → Prop
  ends : τ → Except I.Err α → Stage → Prop
  progress : Stage → Outcome
  progress_step : ∀ {tag s o answer s'}, step tag s o answer s' → progress s = .running
  progress_returned : ∀ {tag a s}, ends tag (.ok a) s → progress s = .returned
  progress_threw : ∀ {tag e s}, ends tag (.error e) s → progress s = .threw

/-- A world of programs is refined to a world of stages: same store, same trace, and
every program follows the discipline from its stage. -/
structure Discipline.Refines {I : Iface} {τ σ α : Type} (D : Discipline I τ α)
    (w : World I τ σ (Prog I α)) (a : World I τ σ D.Stage) : Prop where
  store : a.store = w.store
  trace : a.trace = w.trace
  length : a.threads.length = w.threads.length
  follows : ∀ {i : Nat} {t : Thread τ (Prog I α)} {u : Thread τ D.Stage},
    w.threads[i]? = some t → a.threads[i]? = some u →
    u.tag = t.tag ∧ u.settled = t.settled ∧
      t.body.Follows (D.step t.tag) (D.ends t.tag) u.body

section Refinement

variable {I : Iface} {τ σ α : Type} {sys : System I τ σ α} {D : Discipline I τ α}
  {w w' : World I τ σ (Prog I α)} {a : World I τ σ D.Stage}

/-- The outcome of a program is the progress of the stage it follows from, provided an
operation has an answer. -/
theorem Discipline.progress_eq {tag : τ} {p : Prog I α} {s : D.Stage} [Inhabited I.Err]
    (follows : p.Follows (D.step tag) (D.ends tag) s) : D.progress s = p.outcome := by
  cases p with
  | pure a => exact D.progress_returned follows
  | throw e => exact D.progress_threw follows
  | op o k =>
      obtain ⟨s', taken, _⟩ := follows (.error default)
      exact D.progress_step taken

theorem Discipline.Refines.stage_of_thread (refines : D.Refines w a) {i : Nat}
    {t : Thread τ (Prog I α)} (found : w.threads[i]? = some t) :
    ∃ u, a.threads[i]? = some u ∧ u.tag = t.tag ∧ u.settled = t.settled ∧
      t.body.Follows (D.step t.tag) (D.ends t.tag) u.body := by
  have bound := (List.getElem?_eq_some_iff.mp found).1
  rw [← refines.length] at bound
  exact ⟨_, List.getElem?_eq_getElem bound,
    refines.follows found (List.getElem?_eq_getElem bound)⟩

theorem Discipline.Refines.thread_of_stage (refines : D.Refines w a) {i : Nat}
    {u : Thread τ D.Stage} (found : a.threads[i]? = some u) :
    ∃ t, w.threads[i]? = some t ∧ u.tag = t.tag ∧ u.settled = t.settled ∧
      t.body.Follows (D.step t.tag) (D.ends t.tag) u.body := by
  have bound := (List.getElem?_eq_some_iff.mp found).1
  rw [refines.length] at bound
  exact ⟨_, List.getElem?_eq_getElem bound,
    refines.follows (List.getElem?_eq_getElem bound) found⟩

theorem Discipline.Refines.outcomes [Inhabited I.Err] (refines : D.Refines w a) :
    w.threads.map (Thread.map Prog.outcome) = a.threads.map (Thread.map D.progress) := by
  apply List.ext_getElem?
  intro i
  simp only [List.getElem?_map]
  cases found : w.threads[i]? with
  | none =>
      have beyond : a.threads[i]? = none := by
        rw [List.getElem?_eq_none_iff] at found ⊢
        rw [refines.length]
        exact found
      simp [beyond]
  | some t =>
      obtain ⟨u, there, sameTag, sameSettled, follows⟩ := refines.stage_of_thread found
      simp [there, Thread.map, sameTag, sameSettled, D.progress_eq follows]

theorem Discipline.Refines.run (refines : D.Refines w a) {i : Nat} {choice : sys.Choice}
    (taken : sys.step w (.run i choice) = some w') :
    ∃ t o k answer store u s', w.threads[i]? = some t ∧ t.body = .op o k ∧
      a.threads[i]? = some u ∧ u.tag = t.tag ∧
      sys.handle o choice a.store = some (answer, store) ∧
      D.step u.tag u.body o answer s' ∧
      D.Refines w' (a.advance i s' store ⟨i, o, answer⟩) := by
  obtain ⟨t, o, k, answer, store, found, pending, answered, rfl⟩ := System.step_run taken
  obtain ⟨u, there, sameTag, sameSettled, follows⟩ := refines.stage_of_thread found
  rw [pending] at follows
  obtain ⟨s', move, rest⟩ := follows answer
  refine ⟨t, o, k, answer, store, u, s', found, pending, there, sameTag,
    refines.store ▸ answered, sameTag ▸ move, ⟨rfl, ?_, ?_, ?_⟩⟩
  · simp [refines.trace]
  · simp [refines.length]
  · intro j t' u' found' there'
    rcases World.advance_cases found found' with ⟨rfl, rfl⟩ | ⟨other, same⟩
    · rw [World.advance_self there] at there'
      cases Option.some.inj there'
      exact ⟨sameTag, sameSettled, rest⟩
    · rw [World.advance_other other] at there'
      exact refines.follows same there'

theorem Discipline.Refines.env [Inhabited I.Err] (refines : D.Refines w a)
    (starts : ∀ tag, (sys.program tag).Follows (D.step tag) (D.ends tag) (D.start tag))
    {event : sys.Env} (taken : sys.step w (.env event) = some w') :
    ∃ c, sys.env event a.store (a.threads.map (Thread.map D.progress)) = some c ∧
      D.Refines w' (a.change D.start c) := by
  obtain ⟨c, allowed, rfl⟩ := System.step_env taken
  refine ⟨c, ?_, ⟨rfl, refines.trace, ?_, ?_⟩⟩
  · rw [refines.store, ← refines.outcomes]
    exact allowed
  · rw [World.change_length, World.change_length, refines.length]
  · intro j t' u' found' there'
    rcases World.change_cases found' with ⟨t, found, rfl⟩ | ⟨tag, beyond, spawned, rfl⟩
    · obtain ⟨u, there, sameTag, sameSettled, follows⟩ := refines.stage_of_thread found
      rw [World.change_kept there] at there'
      cases Option.some.inj there'
      exact ⟨sameTag, by simp [sameSettled], follows⟩
    · rcases World.change_cases there' with ⟨u, there, _⟩ | ⟨tag', _, spawned', rfl⟩
      · have bound := (List.getElem?_eq_some_iff.mp there).1
        rw [refines.length] at bound
        omega
      · rw [refines.length, spawned] at spawned'
        cases Option.some.inj spawned'
        exact ⟨rfl, rfl, starts tag⟩

/-- The invariant rule: what the stages, the store and the trace satisfy at first and
keep in every step that passes the guard, they satisfy in every state of a run. -/
theorem System.Run.invariant [Inhabited I.Err]
    {guard : World I τ σ (Prog I α) → Act sys.Choice sys.Env → Prop}
    {Inv : World I τ σ D.Stage → Prop}
    (starts : ∀ tag, (sys.program tag).Follows (D.step tag) (D.ends tag) (D.start tag))
    (run : ∀ {w a i choice t o k answer store u s'}, Inv a → D.Refines w a →
      guard w (.run i choice) → w.threads[i]? = some t → t.body = .op o k →
      a.threads[i]? = some u → sys.handle o choice a.store = some (answer, store) →
      D.step u.tag u.body o answer s' → Inv (a.advance i s' store ⟨i, o, answer⟩))
    (env : ∀ {w a event c}, Inv a → D.Refines w a → guard w (.env event) →
      sys.env event a.store (a.threads.map (Thread.map D.progress)) = some c →
      Inv (a.change D.start c))
    {w₀ w : World I τ σ (Prog I α)} {a₀ : World I τ σ D.Stage}
    (first : D.Refines w₀ a₀) (holds : Inv a₀) (reached : sys.Run guard w₀ w) :
    ∃ a, D.Refines w a ∧ Inv a := by
  induction reached with
  | refl => exact ⟨a₀, first, holds⟩
  | @step w w' act _ allowed taken ih =>
      obtain ⟨a, refines, inv⟩ := ih
      cases act with
      | run i choice =>
          obtain ⟨t, o, k, answer, store, u, s', found, pending, there, _, answered, move,
            refines'⟩ := refines.run taken
          exact ⟨_, refines', run inv refines allowed found pending there answered move⟩
      | env event =>
          obtain ⟨c, change, refines'⟩ := refines.env starts taken
          exact ⟨_, refines', env inv refines allowed change⟩

end Refinement

end Effect
