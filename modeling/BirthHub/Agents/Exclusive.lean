import BirthHub.Agents.Protocol

/-!
# One worker runs the tool calls of an execution

The plan executor looks for a result before it takes the lock, the lock expires, and any
worker deletes it. When a worker takes the lock only while no result is retained and no
other worker is between taking and releasing it, then at most one worker runs tool calls
of an execution at a time, and none does once a result is retained: `Guarded` is the
invariant of such runs.
-/

namespace Agents

open Data Effect

abbrev TaskWorld (β : Type) := World AgentIface AgentTask Store β

abbrev TaskState := TaskWorld (Prog AgentIface AgentResponse)

/-- No task has been given to a worker yet. -/
def fresh {β : Type} (store : Store) : TaskWorld β := ⟨store, [], []⟩

/-- The operation that a worker awaits. -/
def World.awaited (w : TaskState) (i : Nat) : Option AgentOp :=
  (w.threads[i]?).bind fun t => t.body.pending

/-! ## The property -/

/-- Worker `i` is running a tool call of the execution. -/
def RunsTool (w : TaskState) (executionId : String) (i : Nat) : Prop :=
  ∃ request call cost timeoutMs,
    World.awaited w i = some (.runTool request call cost timeoutMs) ∧ request.executionId = executionId

/-- The worker whose tool call of the execution an event ends. -/
def toolActor (executionId : String) (e : Event AgentIface) : Option Nat :=
  match e.op with
  | .runTool request .. => if request.executionId = executionId then some e.actor else none
  | _ => none

/-- The workers that have run the tool calls of an execution, latest first. -/
def toolActors (executionId : String) (trace : List (Event AgentIface)) : List Nat :=
  trace.filterMap (toolActor executionId)

section

variable {executionId : String} {trace : List (Event AgentIface)} {e : Event AgentIface} {i j : Nat}

theorem toolActor_eq_some (acts : toolActor executionId e = some i) :
    e.actor = i ∧ ∃ request call cost timeoutMs,
      e.op = .runTool request call cost timeoutMs ∧ request.executionId = executionId := by
  unfold toolActor at acts
  split at acts
  · rename_i request call cost timeoutMs runs
    split at acts
    · rename_i same
      exact ⟨Option.some.inj acts, request, call, cost, timeoutMs, runs, same⟩
    · cases acts
  · cases acts

theorem mem_toolActors (inside : i ∈ toolActors executionId trace) :
    ∃ e ∈ trace, e.actor = i ∧ toolActor executionId e = some i := by
  obtain ⟨e, there, acts⟩ := List.mem_filterMap.mp inside
  exact ⟨e, there, (toolActor_eq_some acts).1, acts⟩

/-- A later call by the worker itself comes after no other worker. -/
theorem sublist_toolActors_cons (acts : ∀ k, toolActor executionId e = some k → k = i)
    (undisturbed : [j, i].Sublist (toolActors executionId trace) → j = i)
    (after : [j, i].Sublist (toolActors executionId (e :: trace))) : j = i := by
  rw [toolActors, List.filterMap_cons] at after
  cases actor : toolActor executionId e with
  | none =>
      rw [actor] at after
      exact undisturbed after
  | some k =>
      rw [actor] at after
      rcases List.cons_sublist_cons'.mp after with before | ⟨same, _⟩
      · exact undisturbed before
      · exact same.trans (acts k actor)

end

structure Exclusive (w : TaskState) : Prop where
  /-- Two workers that are running tool calls of one execution are one worker. -/
  alone : ∀ {executionId i j}, RunsTool w executionId i → RunsTool w executionId j → j = i
  /-- Between the calls of a worker no other worker has run one. -/
  undisturbed : ∀ {executionId i j}, RunsTool w executionId i →
    [j, i].Sublist (toolActors executionId w.trace) → j = i
  /-- No tool call is run while a result is retained. -/
  once : ∀ {executionId i}, RunsTool w executionId i →
    w.store.redis.retained w.store.clock executionId = none

/-! ## The condition -/

/-- The event is that the lock of the execution was taken. -/
def Took (executionId : String) : Event AgentIface → Prop
  | ⟨_, .redis (.setLock executionId'), .ok locked⟩ => executionId' = executionId ∧ locked = true
  | _ => False

/-- The event is that the lock of the execution was deleted, or that this failed. -/
def Released (executionId : String) (e : Event AgentIface) : Prop :=
  e.op = .redis (.delLock executionId)

/-- Worker `j` runs, has taken the lock of the execution, and has not come to release it. -/
structure Holds {β : Type} (running : β → Prop) (w : TaskWorld β) (executionId : String) (j : Nat) :
    Prop where
  running : ∃ t, w.threads[j]? = some t ∧ running t.body
  took : ∃ e ∈ w.trace, e.actor = j ∧ Took executionId e
  kept : ∀ e ∈ w.trace, e.actor = j → ¬ Released executionId e

/-- A lock that is free is taken only while no result is retained and no other worker holds
it. -/
def Uncontended (w : TaskState) : Act Choice AgentEvent → Prop
  | .env _ => True
  | .run i _ => ∀ executionId, World.awaited w i = some (.redis (.setLock executionId)) →
      w.store.redis.isLocked w.store.clock executionId = false →
      w.store.redis.retained w.store.clock executionId = none ∧
        ∀ j, j ≠ i → ¬ Holds (·.outcome = .running) w executionId j

/-! ## What moves do to the lock -/

namespace Stage

/-- The request whose lock a task has taken and not released. -/
def holder : Stage → Option AgentExecutionRequest
  | .locked request _ | .releasing request _ => some request
  | .stored request _ => some request
  | _ => none

/-- Whether the lock may still be taken. -/
def IsEarly : Stage → Prop
  | .idle | .missed _ => True
  | _ => False

variable {tag : AgentTask} {s s' : Stage} {o : AgentOp} {answer : AgentIface.Answer o}
  {request : AgentExecutionRequest}

theorem not_released_of_neutral {i : Nat} {executionId : String} (neutral : o.IsNeutral) :
    ¬ Released executionId ⟨i, o, answer⟩ := by
  rintro rfl
  exact neutral

theorem toolActor_of_neutral {i : Nat} {executionId : String} (neutral : o.IsNeutral) :
    toolActor executionId ⟨i, o, answer⟩ = none := by
  cases o with
  | runTool => exact neutral.elim
  | _ => rfl

/-- The lock is taken by one move, and kept by moves that do not release it. -/
theorem Move.holder (i : Nat) (move : Move tag s o answer s') (holds : s'.holder = some request) :
    (s.holder = some request ∧ ¬ Released request.executionId ⟨i, o, answer⟩) ∨
      (s = .missed request ∧ o = .redis (.setLock request.executionId) ∧
        Took request.executionId ⟨i, o, answer⟩) := by
  cases move with
  | stay neutral => exact .inl ⟨holds, not_released_of_neutral neutral⟩
  | lock =>
      cases holds
      exact .inr ⟨rfl, rfl, rfl, rfl⟩
  | tool => exact .inl ⟨holds, nofun⟩
  | toolFails => exact .inl ⟨holds, nofun⟩
  | store => exact .inl ⟨holds, nofun⟩
  | unstored => exact .inl ⟨holds, nofun⟩
  | _ => cases holds

theorem Move.runsTool {call : PlannedToolCall} {cost : ℚ} {timeoutMs : Option Int}
    (move : Move tag s o answer s') (runs : o = .runTool request call cost timeoutMs) :
    ∃ ran, s = .locked request ran := by
  cases move with
  | stay neutral => exact (runs ▸ neutral).elim
  | tool =>
      cases runs
      exact ⟨_, rfl⟩
  | toolFails =>
      cases runs
      exact ⟨_, rfl⟩
  | _ => cases runs

theorem Move.stores {result : PlanExecutionResult} (move : Move tag s o answer s')
    (stores : o = .redis (.setResult request result)) :
    (∃ ran, s = .locked request ran) ∧ ∀ request' ran, s' ≠ .locked request' ran := by
  cases move with
  | stay neutral => exact (stores ▸ neutral).elim
  | store =>
      cases stores
      exact ⟨⟨_, rfl⟩, nofun⟩
  | unstored =>
      cases stores
      exact ⟨⟨_, rfl⟩, nofun⟩
  | _ => cases stores

theorem Move.early (i : Nat) (move : Move tag s o answer s') (early : s'.IsEarly) :
    s.IsEarly ∧ ∀ executionId, toolActor executionId ⟨i, o, answer⟩ = none ∧
      ¬ Released executionId ⟨i, o, answer⟩ := by
  cases move with
  | stay neutral =>
      exact ⟨early, fun _ => ⟨toolActor_of_neutral neutral, not_released_of_neutral neutral⟩⟩
  | miss => exact ⟨trivial, fun _ => ⟨rfl, nofun⟩⟩
  | _ => exact early.elim

theorem Move.locked {ran : ℚ} (move : Move tag s o answer (.locked request ran)) :
    (∃ ran', s = .locked request ran') ∨ s = .missed request := by
  cases move with
  | stay => exact .inl ⟨_, rfl⟩
  | lock => exact .inr rfl
  | tool => exact .inl ⟨_, rfl⟩
  | toolFails => exact .inl ⟨_, rfl⟩

end Stage

/-! ## The invariant -/

/-- A worker at this stage runs. -/
def IsRunning (s : Marked Stage) : Prop := s.outcome = .running

abbrev StagedThread := Thread AgentTask (Marked Stage)

structure Guarded (a : TaskWorld (Marked Stage)) : Prop where
  actors : ∀ e ∈ a.trace, e.actor < a.threads.length
  early : ∀ {i : Nat} {u : StagedThread}, a.threads[i]? = some u → u.body.stage.IsEarly →
    ∀ e ∈ a.trace, e.actor = i → ∀ executionId,
      toolActor executionId e = none ∧ ¬ Released executionId e
  held : ∀ {i : Nat} {u : StagedThread} {request : AgentExecutionRequest},
    a.threads[i]? = some u → IsRunning u.body →
    u.body.stage.holder = some request → Holds IsRunning a request.executionId i
  alone : ∀ {i j : Nat} {u v : StagedThread} {request request' : AgentExecutionRequest},
    a.threads[i]? = some u → a.threads[j]? = some v → IsRunning u.body → IsRunning v.body → u.body.stage.holder = some request →
    v.body.stage.holder = some request' → request'.executionId = request.executionId → j = i
  first : ∀ {i : Nat} {u : StagedThread} {request : AgentExecutionRequest} {ran : ℚ},
    a.threads[i]? = some u → IsRunning u.body →
    u.body.stage = .locked request ran →
    a.store.redis.retained a.store.clock request.executionId = none ∧
      ∀ j, [j, i].Sublist (toolActors request.executionId a.trace) → j = i

theorem Guarded.fresh {store : Store} : Guarded (fresh store) where
  actors _ inside := nomatch inside
  early found := nomatch found
  held found := nomatch found
  alone found := nomatch found
  first found := nomatch found

section Steps

variable {deployment : Deployment} {w : TaskState} {a : TaskWorld (Marked Stage)}

/-- A worker that holds a lock at its stage holds it in the run. -/
theorem holds_of_holds (refines : (taskStages deployment).Refines w a) {executionId : String}
    {j : Nat} (holds : Holds IsRunning a executionId j) :
    Holds (·.outcome = .running) w executionId j := by
  obtain ⟨⟨u, there, running⟩, took, kept⟩ := holds
  obtain ⟨t, found, _, _, follows⟩ := refines.thread_of_stage there
  refine ⟨⟨t, found, ?_⟩, refines.trace ▸ took, refines.trace ▸ kept⟩
  rw [← (taskStages deployment).progress_eq follows]
  exact running

/-- Without a new event of worker `j`, what it holds stays. -/
theorem Holds.other {i j : Nat} {s : Marked Stage} {store : Store} {event : Event AgentIface}
    {executionId : String} (actor : event.actor = i) (other : j ≠ i)
    (holds : Holds IsRunning a executionId j) :
    Holds IsRunning (a.advance i s store event) executionId j := by
  obtain ⟨⟨u, there, running⟩, ⟨e, inside, own, took⟩, kept⟩ := holds
  refine ⟨⟨u, by rw [World.advance_other other, there], running⟩,
    ⟨e, List.mem_cons_of_mem _ inside, own, took⟩, fun e' inside' own' => ?_⟩
  rcases List.mem_cons.mp inside' with rfl | before
  · exact (other (own'.symm.trans actor)).elim
  · exact kept e' before own'

/-- The lock was free when it was taken. -/
theorem unlocked_of_took {store store' : Store} {executionId : String} {choice : Choice}
    {i : Nat} {answer : AgentIface.Answer (.redis (.setLock executionId))}
    (answered : store.handle (.redis (.setLock executionId)) choice = some (answer, store'))
    (took : Took executionId ⟨i, _, answer⟩) :
    store.redis.isLocked store.clock executionId = false := by
  cases answer with
  | error e => exact took.elim
  | ok r =>
      obtain ⟨_, rfl⟩ := took
      have performed := congrArg Prod.fst (Option.some.inj (Store.handle_ok answered))
      have answer : (store.redis.handle store.clock (.setLock executionId)).1 = true :=
        Except.ok.inj performed
      by_contra locked
      rw [Redis.handle, if_pos (by simpa using locked)] at answer
      cases answer

section Step

variable {i : Nat} {choice : Choice} {t : Thread AgentTask (Prog AgentIface AgentResponse)}
  {o : AgentOp} {k : AgentIface.Answer o → Prog AgentIface AgentResponse}
  {answer : AgentIface.Answer o} {store : Store} {u : StagedThread} {s' : Marked Stage}

/-- When a worker takes a lock, no result is retained and no other worker holds it. -/
theorem Guarded.taken {executionId : String} (refines : (taskStages deployment).Refines w a)
    (uncontended : Uncontended w (.run i choice)) (found : w.threads[i]? = some t)
    (pending : t.body = .op o k) (answered : a.store.handle o choice = some (answer, store))
    (takes : o = .redis (.setLock executionId)) (took : Took executionId ⟨i, o, answer⟩) :
    a.store.redis.retained a.store.clock executionId = none ∧
      ∀ j, j ≠ i → ¬ Holds IsRunning a executionId j := by
  subst takes
  have awaited : World.awaited w i = some (.redis (.setLock executionId)) := by
    rw [World.awaited, found, Option.bind_some, pending, Prog.pending_op]
  have free := unlocked_of_took answered took
  rw [refines.store] at free ⊢
  obtain ⟨unretained, others⟩ := uncontended executionId awaited free
  exact ⟨unretained, fun j other holds => others j other (holds_of_holds refines holds)⟩

/-- No other worker is at a stage that holds the lock which worker `i` holds after a move. -/
theorem Guarded.sole (inv : Guarded a) (there : a.threads[i]? = some u) (running : IsRunning u.body)
    (move : Stage.Move u.tag u.body.stage o answer s'.stage)
    (taken : ∀ {executionId}, o = .redis (.setLock executionId) → Took executionId ⟨i, o, answer⟩ →
      a.store.redis.retained a.store.clock executionId = none ∧
        ∀ j, j ≠ i → ¬ Holds IsRunning a executionId j)
    {request request' : AgentExecutionRequest} (holds : s'.stage.holder = some request)
    {j : Nat} {v : StagedThread} (there' : a.threads[j]? = some v) (running' : IsRunning v.body)
    (holds' : v.body.stage.holder = some request')
    (same : request'.executionId = request.executionId) : j = i := by
  rcases move.holder i holds with ⟨before, _⟩ | ⟨_, takes, took⟩
  · exact inv.alone there there' running running' before holds' same
  · by_contra other
    have held := inv.held there' running' holds'
    rw [same] at held
    exact (taken takes took).2 j other held

theorem Guarded.first_self (inv : Guarded a) (there : a.threads[i]? = some u)
    (running : IsRunning u.body) {request : AgentExecutionRequest} {ran : ℚ}
    (move : Stage.Move u.tag u.body.stage o answer (.locked request ran))
    (answered : a.store.handle o choice = some (answer, store))
    (taken : ∀ {executionId}, o = .redis (.setLock executionId) → Took executionId ⟨i, o, answer⟩ →
      a.store.redis.retained a.store.clock executionId = none ∧
        ∀ j, j ≠ i → ¬ Holds IsRunning a executionId j) :
    store.redis.retained store.clock request.executionId = none ∧
      ∀ j, [j, i].Sublist (toolActors request.executionId (⟨i, o, answer⟩ :: a.trace)) → j = i := by
  have retained : a.store.redis.retained a.store.clock request.executionId = none →
      store.redis.retained store.clock request.executionId = none := by
    intro unretained
    rcases Store.handle_retained answered request.executionId with same |
      ⟨request', result, stores, _⟩
    · rw [same, unretained]
    · exact ((move.stores stores).2 request ran rfl).elim
  have own : ∀ k, toolActor request.executionId ⟨i, o, answer⟩ = some k → k = i :=
    fun k acts => (toolActor_eq_some acts).1.symm
  rcases move.locked with ⟨ran', before⟩ | missed
  · obtain ⟨unretained, undisturbed⟩ := inv.first there running before
    exact ⟨retained unretained, fun j => sublist_toolActors_cons own (undisturbed j)⟩
  · rcases move.holder i rfl with ⟨held, _⟩ | ⟨_, takes, took⟩
    · rw [missed] at held
      cases held
    refine ⟨retained (taken takes took).1, fun j => sublist_toolActors_cons own fun before => ?_⟩
    obtain ⟨e, inside, actor, acts⟩ := mem_toolActors (before.subset (List.mem_cons_of_mem j
      (List.mem_singleton.mpr rfl)))
    rw [(inv.early there (missed ▸ trivial) e inside actor _).1] at acts
    cases acts

theorem Guarded.first_other (inv : Guarded a) (there : a.threads[i]? = some u)
    (running : IsRunning u.body) (move : Stage.Move u.tag u.body.stage o answer s'.stage)
    (answered : a.store.handle o choice = some (answer, store)) {j : Nat} {v : StagedThread}
    {request : AgentExecutionRequest} {ran : ℚ} (there' : a.threads[j]? = some v)
    (running' : IsRunning v.body) (locked : v.body.stage = .locked request ran) (other : j ≠ i) :
    store.redis.retained store.clock request.executionId = none ∧
      ∀ k, [k, j].Sublist (toolActors request.executionId (⟨i, o, answer⟩ :: a.trace)) → k = j := by
  obtain ⟨unretained, undisturbed⟩ := inv.first there' running' locked
  -- worker `i` cannot be at a stage that holds the same lock
  have distinct {request' : AgentExecutionRequest} (holds : ∃ ran, u.body.stage = .locked request' ran) :
      request'.executionId ≠ request.executionId := by
    obtain ⟨ran', before⟩ := holds
    intro same
    exact other (inv.alone there there' running running' (by rw [before]; rfl) (by rw [locked]; rfl)
      same.symm)
  constructor
  · rcases Store.handle_retained answered request.executionId with same |
      ⟨request', result, stores, same, _⟩
    · rw [same, unretained]
    · exact (distinct (move.stores stores).1 same).elim
  · intro k
    refine sublist_toolActors_cons (fun n acts => ?_) (undisturbed k)
    obtain ⟨_, request', call, cost, timeoutMs, runs, same⟩ := toolActor_eq_some acts
    exact (distinct (move.runsTool runs) same).elim

theorem Guarded.run (inv : Guarded a) (refines : (taskStages deployment).Refines w a)
    (uncontended : Uncontended w (.run i choice)) (found : w.threads[i]? = some t)
    (pending : t.body = .op o k) (there : a.threads[i]? = some u)
    (answered : a.store.handle o choice = some (answer, store))
    (step : (taskStages deployment).step u.tag u.body o answer s') :
    Guarded (a.advance i s' store ⟨i, o, answer⟩) := by
  obtain ⟨running, move⟩ := step
  have taken {executionId : String} :=
    @Guarded.taken _ _ _ _ _ _ _ _ _ _ executionId refines uncontended found pending answered
  have bound : i < a.threads.length := (List.getElem?_eq_some_iff.mp there).1
  constructor
  case actors =>
    intro e inside
    rw [World.advance_length]
    rcases List.mem_cons.mp inside with rfl | before
    · exact bound
    · exact inv.actors e before
  case early =>
    intro j v there' early e inside own executionId
    rcases World.advance_cases there there' with ⟨rfl, rfl⟩ | ⟨other, before⟩
    · obtain ⟨earlier, quiet⟩ := move.early j early
      rcases List.mem_cons.mp inside with rfl | old
      · exact quiet executionId
      · exact inv.early there earlier e old own executionId
    · rcases List.mem_cons.mp inside with rfl | old
      · exact (other own.symm).elim
      · exact inv.early before early e old own executionId
  case held =>
    intro j v request there' running' holds
    rcases World.advance_cases there there' with ⟨rfl, rfl⟩ | ⟨other, before⟩
    · rcases move.holder j holds with ⟨held, unreleased⟩ | ⟨missed, takes, took⟩
      · obtain ⟨_, ⟨e, inside, own, took⟩, kept⟩ := inv.held there running held
        refine ⟨⟨_, there', running'⟩, ⟨e, List.mem_cons_of_mem _ inside, own, took⟩,
          fun e' inside' own' => ?_⟩
        rcases List.mem_cons.mp inside' with rfl | old
        · exact unreleased
        · exact kept e' old own'
      · refine ⟨⟨_, there', running'⟩, ⟨_, List.mem_cons_self, rfl, took⟩, fun e' inside' own' => ?_⟩
        rcases List.mem_cons.mp inside' with rfl | old
        · intro released
          have impossible := takes.symm.trans released
          cases impossible
        · exact (inv.early there (missed ▸ trivial) e' old own' _).2
    · exact (inv.held before running' holds).other rfl other
  case alone =>
    intro j₁ j₂ u₁ u₂ request₁ request₂ there₁ there₂ running₁ running₂ holds₁ holds₂ same
    rcases World.advance_cases there there₁ with ⟨rfl, rfl⟩ | ⟨other₁, before₁⟩
    · rcases World.advance_cases there there₂ with ⟨rfl, rfl⟩ | ⟨other₂, before₂⟩
      · rfl
      · exact inv.sole there running move taken holds₁ before₂ running₂ holds₂ same
    · rcases World.advance_cases there there₂ with ⟨rfl, rfl⟩ | ⟨other₂, before₂⟩
      · exact (inv.sole there running move taken holds₂ before₁ running₁ holds₁ same.symm).symm
      · exact inv.alone before₁ before₂ running₁ running₂ holds₁ holds₂ same
  case first =>
    intro j v request ran there' running' locked
    rcases World.advance_cases there there' with ⟨rfl, rfl⟩ | ⟨other, before⟩
    · exact inv.first_self there running (locked ▸ move) answered fun takes took => taken takes took
    · exact inv.first_other there running move answered before running' locked other

end Step

/-- A thread after a change of the environment was there before, or starts. -/
theorem staged_change_cases {c : Change AgentTask Store} {j : Nat} {u : StagedThread}
    (there : (a.change (taskStages deployment).start c).threads[j]? = some u) :
    (∃ v : StagedThread, a.threads[j]? = some v ∧ u.body = v.body) ∨
      (a.threads.length ≤ j ∧ u.body.stage = .idle) := by
  rcases World.change_cases there with ⟨v, before, rfl⟩ | ⟨tag, beyond, _, rfl⟩
  · exact .inl ⟨v, before, rfl⟩
  · exact .inr ⟨beyond, rfl⟩

theorem retained_later {redis : Redis} {clock : Int} {executionId : String} (ms : Nat)
    (unretained : redis.retained clock executionId = none) :
    redis.retained (clock + ms) executionId = none := by
  unfold Redis.retained at unretained ⊢
  rw [Option.map_eq_none_iff, Option.filter_eq_none_iff] at unretained ⊢
  intro entry found
  have expired := unretained entry found
  simp only [decide_eq_true_eq] at expired ⊢
  omega

theorem Guarded.change (inv : Guarded a) {event : AgentEvent} {c : Change AgentTask Store}
    {threads : List (Thread AgentTask Outcome)}
    (allowed : (agentSystem deployment).env event a.store threads = some c) :
    Guarded (a.change (taskStages deployment).start c) := by
  have later (executionId : String)
      (unretained : a.store.redis.retained a.store.clock executionId = none) :
      c.store.redis.retained c.store.clock executionId = none := by
    cases event with
    | request task =>
        cases allowed
        exact unretained
    | tick ms =>
        cases allowed
        exact retained_later ms unretained
  constructor
  case actors =>
    intro e inside
    exact (inv.actors e inside).trans_le (Nat.le.intro (World.change_length _ _ _).symm)
  case early =>
    intro j u there early e inside own executionId
    rcases staged_change_cases there with ⟨v, before, same⟩ | ⟨beyond, _⟩
    · exact inv.early before (same ▸ early) e inside own executionId
    · have bound := inv.actors e inside
      omega
  case held =>
    intro j u request there running holds
    rcases staged_change_cases there with ⟨v, before, same⟩ | ⟨_, idle⟩
    · obtain ⟨_, took, kept⟩ := inv.held before (same ▸ running) (same ▸ holds)
      exact ⟨⟨u, there, running⟩, took, kept⟩
    · rw [idle] at holds
      cases holds
  case alone =>
    intro i j u v request request' there there' running running' holds holds' same
    rcases staged_change_cases there with ⟨u', before, equal⟩ | ⟨_, idle⟩
    · rcases staged_change_cases there' with ⟨v', before', equal'⟩ | ⟨_, idle'⟩
      · exact inv.alone before before' (equal ▸ running) (equal' ▸ running') (equal ▸ holds)
          (equal' ▸ holds') same
      · rw [idle'] at holds'
        cases holds'
    · rw [idle] at holds
      cases holds
  case first =>
    intro j u request ran there running locked
    rcases staged_change_cases there with ⟨v, before, same⟩ | ⟨_, idle⟩
    · obtain ⟨unretained, undisturbed⟩ := inv.first before (same ▸ running) (same ▸ locked)
      exact ⟨later _ unretained, undisturbed⟩
    · rw [idle] at locked
      cases locked

end Steps

/-! ### Two workers that both look for a result first -/

/-- Worker `i` awaits its next operations, which do not fail. -/
def goesOn (i steps : Nat) : List (Act Choice AgentEvent) := List.replicate steps (.run i {})

/-- No other worker runs when a worker moves, and no result is retained when it is about to take
a lock. -/
def uncontended (w : TaskState) : Act Choice AgentEvent → Bool
  | .env _ => true
  | .run i _ =>
      (w.threads.zipIdx.all fun (t, j) => decide (j = i) || decide (t.body.outcome ≠ .running)) &&
        match World.awaited w i with
        | some (.redis (.setLock executionId)) =>
            (w.store.redis.retained w.store.clock executionId).isNone
        | _ => true

end Agents
