import BirthHub.Agents.Calling
import BirthHub.Effect.Stamped

/-!
# The circuit breaker across executions

A run of a tool that fails in every attempt counts against the tool, and a tool against
which enough of these count is not to be called until a cooldown has elapsed. The plan
executor keeps the count for itself, and the runtime makes a plan executor for each
execution, so that no execution knows of the failures of another: a tool is spared for the
cooldown when no execution that plans it is under way meanwhile.
-/

namespace Agents

open Data Effect

/-! ## The property -/

structure CircuitBreakerOptions where
  cooldownMs : Int := 60000
  failureThreshold : Nat := 3

/-- The tool that an event has called, and whether the call succeeded. -/
def called : Event AgentIface → Option (String × Bool)
  | ⟨_, .runTool _ call _ _, .ok _⟩ => some (call.tool, true)
  | ⟨_, .runTool _ call _ _, .error _⟩ => some (call.tool, false)
  | _ => none

/-- How many calls of execution `i` have failed since its last one that succeeded. -/
def failures (i : Nat) : List (Int × Event AgentIface) → Nat
  | [] => 0
  | (_, e) :: earlier =>
      if e.actor = i then
        match called e with
        | none => failures i earlier
        | some (_, true) => 0
        | some (_, false) => failures i earlier + 1
      else failures i earlier

/-- When the runs of a tool were exhausted since it last succeeded, latest first: each time
the last of the attempts of a run failed. -/
def exhaustions (attempts : Nat) (tool : String) : List (Int × Event AgentIface) → List Int
  | [] => []
  | (time, e) :: earlier =>
      match called e with
      | none => exhaustions attempts tool earlier
      | some (tool', succeeded) =>
          if tool' ≠ tool then exhaustions attempts tool earlier
          else if succeeded then []
          else if failures e.actor earlier + 1 = attempts then
            time :: exhaustions attempts tool earlier
          else exhaustions attempts tool earlier

abbrev WorkerWorld (β : Type) := World AgentIface AgentTask (Store × List Int) β

/-- A worker, with the time of each event. -/
abbrev WorkerState := WorkerWorld (Prog AgentIface AgentResponse)

/-- No task has been given to the worker yet. -/
def unused {β : Type} (store : Store) : WorkerWorld β := ⟨(store, []), [], []⟩

abbrev workerSystem (deployment : Deployment) :
    System AgentIface AgentTask (Store × List Int) AgentResponse :=
  (agentSystem deployment).stamped Store.clock

/-- The operation that execution `i` awaits. -/
def WorkerState.awaited (w : WorkerState) (i : Nat) : Option AgentOp :=
  (w.threads[i]?).bind fun t => t.body.pending

namespace CircuitBreakerOptions

variable (breaker : CircuitBreakerOptions) (attempts : Nat)

/-- The runs of the tool were exhausted as often as the threshold says, and the cooldown has
not elapsed since. -/
def IsOpen {β : Type} (w : WorkerWorld β) (tool : String) : Prop :=
  breaker.failureThreshold ≤ (exhaustions attempts tool w.log).length ∧
    ∃ latest ∈ (exhaustions attempts tool w.log).head?, w.store.1.clock < latest + breaker.cooldownMs

/-- No execution calls a tool whose breaker is open. -/
def Respected (w : WorkerState) : Prop :=
  ∀ {i request call cost timeoutMs}, w.awaited i = some (.runTool request call cost timeoutMs) →
    ¬ breaker.IsOpen attempts w call.tool

end CircuitBreakerOptions

/-! ## The condition -/

/-- A task that executes agents by the runtime, or executes none. -/
def AgentTask.IsRuntime : AgentTask → Prop
  | .execute .. => False
  | _ => True

/-- An execution of a plan with the tool is under way: there was no result to return, and
no run of a tool was exhausted. -/
structure UnderWay {β : Type} (running : β → Prop) (attempts : Nat) (w : WorkerWorld β)
    (tool : String) (j : Nat) : Prop where
  running : ∃ t, w.threads[j]? = some t ∧ running t.body
  planned : ∃ request, ⟨j, .redis (.getResult request), .ok none⟩ ∈ w.trace ∧ tool ∈ request.tools
  left : failures j w.log < attempts

/-- No execution looks for its result when its plan has a tool whose breaker is open, and no
breaker opens while another execution is under way that plans the tool. -/
def Unplanned (deployment : Deployment) (breaker : CircuitBreakerOptions) (w : WorkerState) :
    Act Choice AgentEvent → Prop
  | .env (.request task) => task.IsRuntime
  | .env (.tick _) => True
  | .run i choice =>
      (∀ request, w.awaited i = some (.redis (.getResult request)) → ∀ tool ∈ request.tools,
        ¬ breaker.IsOpen deployment.config.AGENT_TOOL_RETRY_ATTEMPTS w tool) ∧
      ∀ request call cost timeoutMs w',
        w.awaited i = some (.runTool request call cost timeoutMs) →
        (workerSystem deployment).step w (.run i choice) = some w' →
        breaker.IsOpen deployment.config.AGENT_TOOL_RETRY_ATTEMPTS w' call.tool →
        ∀ j, j ≠ i → ¬ UnderWay (·.outcome = .running)
          deployment.config.AGENT_TOOL_RETRY_ATTEMPTS w call.tool j

/-! ## What an event changes -/

section Events

variable {attempts i j : Nat} {tool : String} {time : Int} {e : Event AgentIface}
  {earlier : List (Int × Event AgentIface)}

theorem failures_other (other : e.actor ≠ j) :
    failures j ((time, e) :: earlier) = failures j earlier := if_neg other

theorem failures_quiet (quiet : called e = none) :
    failures j ((time, e) :: earlier) = failures j earlier := by
  rw [failures, quiet]
  exact ite_self _

theorem failures_success (own : e.actor = i) (succeeded : called e = some (tool, true)) :
    failures i ((time, e) :: earlier) = 0 := by
  rw [failures, if_pos own, succeeded]

theorem failures_failure (own : e.actor = i) (failed : called e = some (tool, false)) :
    failures i ((time, e) :: earlier) = failures i earlier + 1 := by
  rw [failures, if_pos own, failed]

theorem failures_of_actors {n : Nat} (actors : ∀ e ∈ earlier, e.2.actor < n) (beyond : n ≤ j) :
    failures j earlier = 0 := by
  induction earlier with
  | nil => rfl
  | cons first rest ih =>
      have within := actors first List.mem_cons_self
      rw [failures_other (by omega)]
      exact ih fun e inside => actors e (List.mem_cons_of_mem first inside)

theorem exhaustions_quiet (quiet : called e = none) :
    exhaustions attempts tool ((time, e) :: earlier) = exhaustions attempts tool earlier := by
  rw [exhaustions, quiet]

/-- After a success no run counts against the tool, and the other tools are not concerned. -/
theorem exhaustions_success {tool' : String} (succeeded : called e = some (tool', true)) :
    exhaustions attempts tool ((time, e) :: earlier) = exhaustions attempts tool earlier ∨
      exhaustions attempts tool ((time, e) :: earlier) = [] := by
  rw [exhaustions, succeeded]
  by_cases own : tool' = tool
  · exact .inr (by simp [own])
  · exact .inl (by simp [own])

/-- Only the last attempt of a run counts against its tool. -/
theorem exhaustions_failure {tool' : String} (failed : called e = some (tool', false)) :
    exhaustions attempts tool ((time, e) :: earlier) = exhaustions attempts tool earlier ∨
      tool' = tool ∧ failures e.actor earlier + 1 = attempts := by
  by_cases last : tool' = tool ∧ failures e.actor earlier + 1 = attempts
  · exact .inr last
  · left
    rw [exhaustions, failed]
    by_cases own : tool' = tool
    · have more : failures e.actor earlier + 1 ≠ attempts := fun same => last ⟨own, same⟩
      simp [own, more]
    · simp [own]

end Events

/-! ## The invariant -/

/-- An execution at this stage runs. -/
def Calling.IsRunning (s : Marked Calling) : Prop := s.outcome = .running

/-- The stage counts the failures of the execution. -/
def Calling.Counts (log : List (Int × Event AgentIface)) (i : Nat) : Calling → Prop
  | .idle => failures i log = 0
  | .planned request failed => failures i log = failed ∧
      ∃ e ∈ log, e.2 = ⟨i, .redis (.getResult request), .ok none⟩
  | .settled => True

structure Counted (deployment : Deployment) (breaker : CircuitBreakerOptions)
    (a : WorkerWorld (Marked Calling)) : Prop where
  runtime : ∀ {i : Nat} {u : Thread AgentTask (Marked Calling)}, a.threads[i]? = some u →
    u.tag.IsRuntime
  actors : ∀ e ∈ a.log, e.2.actor < a.threads.length
  counts : ∀ {i : Nat} {u : Thread AgentTask (Marked Calling)}, a.threads[i]? = some u →
    u.body.stage.Counts a.log i
  /-- No execution that is under way plans a tool whose breaker is open. -/
  closed : ∀ {i : Nat} {u : Thread AgentTask (Marked Calling)} {request : AgentExecutionRequest}
    {failed : Nat}, a.threads[i]? = some u → Calling.IsRunning u.body →
    u.body.stage = .planned request failed →
    failed < deployment.config.AGENT_TOOL_RETRY_ATTEMPTS → ∀ tool ∈ request.tools,
    ¬ breaker.IsOpen deployment.config.AGENT_TOOL_RETRY_ATTEMPTS a tool

theorem Counted.unused {deployment : Deployment} {breaker : CircuitBreakerOptions} {store : Store} :
    Counted deployment breaker (unused store) where
  runtime found := nomatch found
  actors _ inside := nomatch inside
  counts found := nomatch found
  closed found := nomatch found

/-- The moves of a task. -/
def callMove (deployment : Deployment) (tag : AgentTask) :
    Calling → (o : AgentOp) → AgentIface.Answer o → Calling → Prop :=
  Calling.Move (tag.attempts deployment)

/-- A task may end at any stage. -/
def callEnds (_ : AgentTask) (_ : Except Thrown AgentResponse) (_ : Calling) : Prop := True

/-- The stages of the tasks of the system. -/
def callStages (deployment : Deployment) : Discipline AgentIface AgentTask AgentResponse :=
  movesDiscipline (workerSystem deployment) (fun _ => .idle) (callMove deployment) callEnds

theorem callStages_starts {deployment : Deployment} (tag : AgentTask) :
    ((workerSystem deployment).program tag).Follows ((callStages deployment).step tag)
      ((callStages deployment).ends tag) ((callStages deployment).start tag) := by
  have follows : (serveTask deployment tag).Follows (callMove deployment tag) (callEnds tag)
      .idle := serveTask_calling tag
  exact follows.marked

theorem AgentTask.IsRuntime.attempts {deployment : Deployment} {tag : AgentTask}
    (runtime : tag.IsRuntime) :
    tag.attempts deployment = deployment.config.AGENT_TOOL_RETRY_ATTEMPTS := by
  cases tag with
  | execute => exact runtime.elim
  | _ => rfl

section Steps

variable {deployment : Deployment} {breaker : CircuitBreakerOptions} {attempts : Nat}
  {w : WorkerState} {a : WorkerWorld (Marked Calling)}

/-- The breakers are the same in a world of programs and in its world of stages. -/
theorem log_of_refines (refines : (callStages deployment).Refines w a) : a.log = w.log := by
  rw [World.log, World.log, refines.store, refines.trace]

theorem isOpen_of_refines (refines : (callStages deployment).Refines w a) {tool : String} :
    breaker.IsOpen attempts a tool ↔ breaker.IsOpen attempts w tool := by
  rw [CircuitBreakerOptions.IsOpen, CircuitBreakerOptions.IsOpen, log_of_refines refines,
    refines.store]

/-- An execution that is under way at its stage is under way in the run. -/
theorem underWay_of_stage (refines : (callStages deployment).Refines w a) {j : Nat}
    {u : Thread AgentTask (Marked Calling)} {request : AgentExecutionRequest} {failed : Nat}
    {tool : String} (there : a.threads[j]? = some u) (running : Calling.IsRunning u.body)
    (stage : u.body.stage = .planned request failed) (counts : u.body.stage.Counts a.log j)
    (left : failed < attempts) (planned : tool ∈ request.tools) :
    UnderWay (·.outcome = .running) attempts w tool j := by
  rw [stage, Calling.Counts, log_of_refines refines] at counts
  obtain ⟨count, ⟨time, e⟩, inside, rfl⟩ := counts
  obtain ⟨t, found, _, _, follows⟩ := refines.thread_of_stage there
  refine ⟨⟨t, found, ?_⟩, ⟨request, (List.of_mem_zip inside).2, planned⟩, by omega⟩
  rw [← (callStages deployment).progress_eq follows]
  exact running

section Step

variable {i : Nat} {choice : Choice} {t : Thread AgentTask (Prog AgentIface AgentResponse)}
  {o : AgentOp} {k : AgentIface.Answer o → Prog AgentIface AgentResponse}
  {answer : AgentIface.Answer o} {store : Store × List Int}
  {u : Thread AgentTask (Marked Calling)} {s s' : Calling}

theorem answered_log {b : Marked Calling}
    (answered : (workerSystem deployment).handle o choice a.store = some (answer, store)) :
    (a.advance i b store ⟨i, o, answer⟩).log = (a.store.1.clock, ⟨i, o, answer⟩) :: a.log ∧
      store.1.clock = a.store.1.clock := by
  obtain ⟨after, before, rfl⟩ := System.stamped_handle answered
  exact ⟨rfl, Store.handle_clock before⟩

theorem called_quiet (quiet : o.IsQuiet) : called ⟨i, o, answer⟩ = none := by
  cases o with
  | runTool => exact quiet.elim
  | _ => rfl

/-- A breaker opens only by the last attempt of a run of its tool. -/
theorem isOpen_of_advance {b : Marked Calling} {tool : String}
    (answered : (workerSystem deployment).handle o choice a.store = some (answer, store))
    (opened : breaker.IsOpen attempts (a.advance i b store ⟨i, o, answer⟩) tool) :
    breaker.IsOpen attempts a tool ∨
      called ⟨i, o, answer⟩ = some (tool, false) ∧ failures i a.log + 1 = attempts := by
  obtain ⟨enough, latest, inside, cooling⟩ := opened
  obtain ⟨log, clock⟩ := @answered_log _ a i _ _ _ _ b answered
  rw [log] at enough inside
  rw [World.advance_store, clock] at cooling
  have unchanged (same : exhaustions attempts tool ((a.store.1.clock, ⟨i, o, answer⟩) :: a.log) =
      exhaustions attempts tool a.log) : breaker.IsOpen attempts a tool := by
    rw [same] at enough inside
    exact ⟨enough, latest, inside, cooling⟩
  rcases event : called ⟨i, o, answer⟩ with _ | ⟨tool', succeeded | failed⟩
  · exact .inl (unchanged (exhaustions_quiet event))
  · rcases @exhaustions_failure attempts tool a.store.1.clock _ a.log _ event with same | ⟨rfl, last⟩
    · exact .inl (unchanged same)
    · exact .inr ⟨rfl, last⟩
  · rcases @exhaustions_success attempts tool a.store.1.clock _ a.log _ event with same | none'
    · exact .inl (unchanged same)
    · rw [none'] at inside
      cases inside

/-- The stage of the execution that moves counts its failures. -/
theorem counts_of_move (inv : Counted deployment breaker a) (there : a.threads[i]? = some u)
    (move : Calling.Move attempts u.body.stage o answer s') :
    s'.Counts ((a.store.1.clock, ⟨i, o, answer⟩) :: a.log) i := by
  have before := inv.counts there
  generalize u.body.stage = s at before move
  cases move with
  | stay quiet =>
      have same := @failures_quiet i a.store.1.clock _ a.log (@called_quiet i o answer quiet)
      cases s' with
      | idle => exact same.trans before
      | planned request failed =>
          obtain ⟨count, e, inside, looked⟩ := before
          exact ⟨same.trans count, e, List.mem_cons_of_mem _ inside, looked⟩
      | settled => trivial
  | miss => exact ⟨(failures_quiet rfl).trans before, _, List.mem_cons_self, rfl⟩
  | settle => trivial
  | succeed =>
      obtain ⟨_, e, inside, looked⟩ := before
      exact ⟨failures_success rfl rfl, e, List.mem_cons_of_mem _ inside, looked⟩
  | fail =>
      obtain ⟨count, e, inside, looked⟩ := before
      exact ⟨(failures_failure rfl rfl).trans (by rw [count]), e, List.mem_cons_of_mem _ inside,
        looked⟩

theorem counts_other {j : Nat} (other : j ≠ i) {e : Event AgentIface} {time : Int}
    (actor : e.actor = i) {log : List (Int × Event AgentIface)} (counts : s.Counts log j) :
    s.Counts ((time, e) :: log) j := by
  have same := @failures_other j time e log fun own => other (own.symm.trans actor)
  cases s with
  | idle => exact same.trans counts
  | planned request failed =>
      obtain ⟨count, looked, inside, own⟩ := counts
      exact ⟨same.trans count, looked, List.mem_cons_of_mem _ inside, own⟩
  | settled => trivial

/-- When the plan of the execution that moves is still open, its tools may be called. -/
theorem closed_of_move (inv : Counted deployment breaker a) (there : a.threads[i]? = some u)
    (running : Calling.IsRunning u.body) {b : Marked Calling}
    (move : Calling.Move deployment.config.AGENT_TOOL_RETRY_ATTEMPTS u.body.stage o answer b.stage)
    (answered : (workerSystem deployment).handle o choice a.store = some (answer, store))
    (planned : ∀ request, o = .redis (.getResult request) → ∀ tool ∈ request.tools,
      ¬ breaker.IsOpen deployment.config.AGENT_TOOL_RETRY_ATTEMPTS a tool)
    {request : AgentExecutionRequest} {failed : Nat} (stage : b.stage = .planned request failed)
    (left : failed < deployment.config.AGENT_TOOL_RETRY_ATTEMPTS) {tool : String}
    (inside : tool ∈ request.tools) :
    ¬ breaker.IsOpen deployment.config.AGENT_TOOL_RETRY_ATTEMPTS
      (a.advance i b store ⟨i, o, answer⟩) tool := by
  intro opened
  have counts := inv.counts there
  have closed := @inv.closed i u
  rcases isOpen_of_advance answered opened with before | ⟨event, last⟩
  · generalize u.body.stage = s at move closed
    rw [stage] at move
    cases move with
    | stay => exact closed there running rfl left tool inside before
    | miss => exact planned request rfl tool inside before
    | succeed _ left' => exact closed there running rfl left' tool inside before
    | fail _ left' => exact closed there running rfl left' tool inside before
  · generalize u.body.stage = s at move counts
    rw [stage] at move
    cases move with
    | stay quiet =>
        rw [called_quiet quiet] at event
        cases event
    | miss => cases event
    | succeed => cases event
    | fail =>
        have count : failures i a.log = _ := counts.1
        omega

/-- No breaker of a tool that another execution plans has opened. -/
theorem closed_other (inv : Counted deployment breaker a)
    (refines : (callStages deployment).Refines w a) {j : Nat}
    {v : Thread AgentTask (Marked Calling)} (there' : a.threads[j]? = some v)
    {b : Marked Calling}
    (answered : (workerSystem deployment).handle o choice a.store = some (answer, store))
    (alone : ∀ tool, called ⟨i, o, answer⟩ = some (tool, false) →
      breaker.IsOpen deployment.config.AGENT_TOOL_RETRY_ATTEMPTS
        (a.advance i b store ⟨i, o, answer⟩) tool →
      ¬ UnderWay (·.outcome = .running) deployment.config.AGENT_TOOL_RETRY_ATTEMPTS w tool j)
    (running : Calling.IsRunning v.body) {request : AgentExecutionRequest} {failed : Nat}
    (stage : v.body.stage = .planned request failed)
    (left : failed < deployment.config.AGENT_TOOL_RETRY_ATTEMPTS) {tool : String}
    (inside : tool ∈ request.tools) :
    ¬ breaker.IsOpen deployment.config.AGENT_TOOL_RETRY_ATTEMPTS
      (a.advance i b store ⟨i, o, answer⟩) tool := by
  intro opened
  rcases isOpen_of_advance answered opened with before | ⟨event, _⟩
  · exact inv.closed there' running stage left tool inside before
  · exact alone tool event opened
      (underWay_of_stage refines there' running stage (inv.counts there') left inside)

theorem called_failure {tool : String} (event : called ⟨i, o, answer⟩ = some (tool, false)) :
    ∃ request call cost timeoutMs, o = .runTool request call cost timeoutMs ∧ call.tool = tool := by
  unfold called at event
  split at event
  · cases event
  · rename_i request call cost timeoutMs e same
    cases same
    cases event
    exact ⟨request, call, cost, timeoutMs, rfl, rfl⟩
  · cases event

theorem Counted.run {b : Marked Calling} (inv : Counted deployment breaker a)
    (refines : (callStages deployment).Refines w a)
    (unplanned : Unplanned deployment breaker w (.run i choice)) (found : w.threads[i]? = some t)
    (pending : t.body = .op o k) (there : a.threads[i]? = some u)
    (answered : (workerSystem deployment).handle o choice a.store = some (answer, store))
    (step : (callStages deployment).step u.tag u.body o answer b) :
    Counted deployment breaker (a.advance i b store ⟨i, o, answer⟩) := by
  obtain ⟨running, move⟩ := step
  rw [callMove, (inv.runtime there).attempts] at move
  obtain ⟨log, clock⟩ := @answered_log _ a i _ _ _ _ b answered
  have awaited : w.awaited i = some o := by
    rw [WorkerState.awaited, found, Option.bind_some, pending, Prog.pending_op]
  have taken : (workerSystem deployment).step w (.run i choice) =
      some (w.advance i (k answer) store ⟨i, o, answer⟩) := by
    rcases t with ⟨tag, body, settled⟩
    cases pending
    rw [refines.store] at answered
    simp [System.step, found, answered]
  have same : breaker.IsOpen deployment.config.AGENT_TOOL_RETRY_ATTEMPTS
      (a.advance i b store ⟨i, o, answer⟩) = breaker.IsOpen
        deployment.config.AGENT_TOOL_RETRY_ATTEMPTS
        (w.advance i (k answer) store ⟨i, o, answer⟩) := by
    funext tool
    rw [CircuitBreakerOptions.IsOpen, CircuitBreakerOptions.IsOpen, World.log, World.log,
      World.advance_trace, World.advance_trace, refines.trace]
    rfl
  constructor
  case runtime =>
    intro j v there'
    obtain ⟨v', before, tag, _⟩ := World.advance_kept there'
    exact tag ▸ inv.runtime before
  case actors =>
    rw [log, World.advance_length]
    intro e inside
    rcases List.mem_cons.mp inside with rfl | before
    · exact (List.getElem?_eq_some_iff.mp there).1
    · exact inv.actors e before
  case counts =>
    intro j v there'
    rw [log]
    rcases World.advance_cases there there' with ⟨rfl, rfl⟩ | ⟨other, before⟩
    · exact counts_of_move inv there move
    · exact counts_other other rfl (inv.counts before)
  case closed =>
    intro j v request failed there' running' stage left tool inside
    rcases World.advance_cases there there' with ⟨rfl, rfl⟩ | ⟨other, before⟩
    · refine closed_of_move inv there running move answered (fun request looks tool planned => ?_)
        stage left inside
      rw [isOpen_of_refines refines]
      exact unplanned.1 request (awaited.trans (congrArg some looks)) tool planned
    · refine closed_other inv refines before answered (fun tool event opened => ?_) running'
        stage left inside
      obtain ⟨request, call, cost, timeoutMs, rfl, rfl⟩ := called_failure event
      rw [same] at opened
      exact unplanned.2 request call cost timeoutMs _ awaited taken opened j other

end Step

/-- The environment lets time pass and gives tasks to the worker. -/
theorem env_cases {event : AgentEvent} {c : Change AgentTask (Store × List Int)}
    {s : Store × List Int} {threads : List (Thread AgentTask Outcome)}
    (change : (workerSystem deployment).env event s threads = some c) :
    c.store.2 = s.2 ∧ s.1.clock ≤ c.store.1.clock ∧ ∀ tag ∈ c.spawn, event = .request tag := by
  cases event with
  | request task =>
      cases change
      exact ⟨rfl, le_rfl, fun tag spawned => by rw [List.mem_singleton.mp spawned]⟩
  | tick ms =>
      cases change
      exact ⟨rfl, by simp, fun tag spawned => nomatch spawned⟩

theorem isOpen_of_change {start : AgentTask → Marked Calling}
    {c : Change AgentTask (Store × List Int)} {tool : String} (stamps : c.store.2 = a.store.2)
    (later : a.store.1.clock ≤ c.store.1.clock)
    (opened : breaker.IsOpen attempts (a.change start c) tool) : breaker.IsOpen attempts a tool := by
  obtain ⟨enough, latest, last, cooling⟩ := opened
  rw [World.log, World.change_store, World.change_trace, stamps] at enough last
  exact ⟨enough, latest, last, lt_of_le_of_lt later cooling⟩

/-- A task that is given to the worker, and time that passes, keep the invariant. -/
theorem Counted.env {event : AgentEvent} {c : Change AgentTask (Store × List Int)}
    (inv : Counted deployment breaker a) (unplanned : Unplanned deployment breaker w (.env event))
    {threads : List (Thread AgentTask Outcome)}
    (change : (workerSystem deployment).env event a.store threads = some c)
    {start : AgentTask → Marked Calling} (idle : ∀ tag, (start tag).stage = .idle) :
    Counted deployment breaker (a.change start c) := by
  obtain ⟨stamps, later, spawns⟩ := env_cases change
  have log : (a.change start c).log = a.log := by
    rw [World.log, World.change_store, World.change_trace, stamps, World.log]
  constructor
  case runtime =>
    intro j v there'
    rcases World.change_cases there' with ⟨v', before, rfl⟩ | ⟨tag, _, spawned, rfl⟩
    · have runtime := inv.runtime before
      exact runtime
    · rw [spawns tag (List.mem_of_getElem? spawned)] at unplanned
      exact unplanned
  case actors =>
    rw [log, World.change_length]
    exact fun e inside => Nat.lt_add_right _ (inv.actors e inside)
  case counts =>
    intro j v there'
    rw [log]
    rcases World.change_cases there' with ⟨v', before, rfl⟩ | ⟨tag, beyond, spawned, rfl⟩
    · have counts := inv.counts before
      exact counts
    · rw [idle]
      exact failures_of_actors inv.actors beyond
  case closed =>
    intro j v request failed there' running stage left tool inside opened
    rcases World.change_cases there' with ⟨v', before, rfl⟩ | ⟨tag, _, _, rfl⟩
    · have closed := @inv.closed j v' request failed before running stage left tool inside
      exact closed (isOpen_of_change stamps later opened)
    · rw [idle] at stage
      cases stage

/-- A tool is called only for a plan that is open. -/
theorem Calling.Move.runTool {s s' : Calling} {o : AgentOp} {answer : AgentIface.Answer o}
    {request : AgentExecutionRequest} {call : PlannedToolCall} {cost : ℚ} {timeoutMs : Option Int}
    (move : Calling.Move attempts s o answer s')
    (calls : o = .runTool request call cost timeoutMs) :
    ∃ failed, s = .planned request failed ∧ failed < attempts ∧ call.tool ∈ request.tools := by
  cases move with
  | stay quiet => exact (calls ▸ quiet).elim
  | succeed planned left =>
      cases calls
      exact ⟨_, rfl, left, planned⟩
  | fail planned left =>
      cases calls
      exact ⟨_, rfl, left, planned⟩
  | _ => cases calls

theorem refines_unused {store : Store} :
    (callStages deployment).Refines (unused store) (unused store) where
  store := rfl
  trace := rfl
  length := rfl
  follows found := nomatch found

/-- No execution calls a tool whose breaker is open, when no execution that plans the tool is
under way meanwhile. -/
theorem respected_of_unplanned {store : Store}
    (reached : (workerSystem deployment).Run (Unplanned deployment breaker) (unused store) w) :
    breaker.Respected deployment.config.AGENT_TOOL_RETRY_ATTEMPTS w := by
  obtain ⟨a, refines, inv⟩ := @System.Run.invariant _ _ _ _ (workerSystem deployment)
    (callStages deployment) _ (Unplanned deployment breaker) (Counted deployment breaker)
    callStages_starts
    (fun inv refines unplanned found pending there answered step =>
      inv.run refines unplanned found pending there answered step)
    (fun inv refines unplanned change => inv.env unplanned change fun _ => rfl) _ _ _
    refines_unused .unused reached
  intro i request call cost timeoutMs awaited
  obtain ⟨t, found, pending⟩ := Option.bind_eq_some_iff.mp awaited
  obtain ⟨u, there, tag, _, follows⟩ := refines.stage_of_thread found
  rw [← isOpen_of_refines refines]
  rcases t with ⟨tag', body, settled⟩
  cases body with
  | op o k =>
      cases pending
      obtain ⟨b, ⟨running, move⟩, _⟩ := follows (.error default)
      obtain ⟨failed, stage, left, planned⟩ := Calling.Move.runTool move rfl
      rw [← tag, (inv.runtime there).attempts] at left
      exact inv.closed there running stage left _ planned
  | _ => cases pending

end Steps

/-! ### Four executions of an agent whose tool fails -/

/-- The executions are one after another, by the runtime. -/
def OneByOne (w : WorkerState) : Act Choice AgentEvent → Prop
  | .env (.request task) => task.IsRuntime ∧ ∀ t ∈ w.threads, t.body.outcome ≠ .running
  | _ => True

def oneByOne (w : WorkerState) : Act Choice AgentEvent → Bool
  | .env (.request (.job _)) => w.threads.all fun t => decide (t.body.outcome ≠ .running)
  | .env (.request _) => false
  | _ => true

theorem oneByOne_sound (w : WorkerState) (act : Act Choice AgentEvent)
    (passes : oneByOne w act = true) : OneByOne w act := by
  unfold oneByOne at passes
  split at passes
  · refine ⟨trivial, fun t inside => ?_⟩
    simpa using List.all_eq_true.mp passes t inside
  · cases passes
  · rename_i act notJob notRequest
    unfold OneByOne
    split
    · exact (notRequest _ rfl).elim
    · trivial

/-- A deployment that attempts calls once, with an agent that has one tool. -/
def pagerDeployment : Deployment where
  config := { JOB_HMAC_GLOBAL_SECRET := "secret", AGENT_TOOL_RETRY_ATTEMPTS := 1 }
  catalog := [{
    agentId := "pager"
    agentName := "Pager"
    keywords := []
    useCases := []
    policies := []
    tools := [{ id := "page", name := "Page", description := "Pages." }] }]
  options := { toolCostEstimator := fun _ => none, tools := [] }
  signPayload payload secret := secret ++ payload
  isDatetime _ := true
  toISOString ms := toString ms

def pagerStore : Store where
  budgets := { rows := fun _ => {}, log := [], begun := 0, status := fun _ => .unknown }
  organizations := [{ id := "org-a", tenantId := "tenant-a" }]

/-- Execution `i` of the agent goes on by the given number of operations; its tool fails. -/
def pages (i steps : Nat) : List (Act Choice AgentEvent) :=
  List.replicate steps (.run i {
    output := .error (error "No answer.")
    billing := some { locked := false, status := none } })

def pageJob (executionId : String) : Act Choice AgentEvent :=
  .env (.request (.job (.agent { agentId := "pager", executionId, input := [], tenantId := "tenant-a" })))

/-- Three executions that exhaust the tool, one after another. -/
def exhaustedPages : List (Act Choice AgentEvent) :=
  [pageJob "run-1"] ++ pages 0 21 ++ [pageJob "run-2"] ++ pages 1 21 ++ [pageJob "run-3"] ++
    pages 2 21

/-- Evaluates `IsOpen`. -/
def CircuitBreakerOptions.opens (breaker : CircuitBreakerOptions) (attempts : Nat)
    (w : WorkerState) (tool : String) : Bool :=
  decide (breaker.failureThreshold ≤ (exhaustions attempts tool w.log).length) &&
    ((exhaustions attempts tool w.log).head?).any fun latest =>
      decide (w.store.1.clock < latest + breaker.cooldownMs)

theorem CircuitBreakerOptions.opens_iff {breaker : CircuitBreakerOptions} {attempts : Nat}
    {w : WorkerState} {tool : String} :
    breaker.opens attempts w tool = true ↔ breaker.IsOpen attempts w tool := by
  rw [opens, Bool.and_eq_true_iff, decide_eq_true_eq, Option.any_eq_true, IsOpen]
  simp only [decide_eq_true_eq, Option.mem_def]

/-- Evaluates that execution `i` awaits a call of a tool whose breaker is open. -/
def callsOpen (breaker : CircuitBreakerOptions) (attempts i : Nat) (w : WorkerState) : Bool :=
  match w.awaited i with
  | some (.runTool _ call ..) => breaker.opens attempts w call.tool
  | _ => false

theorem not_respected_of_callsOpen {breaker : CircuitBreakerOptions} {attempts i : Nat}
    {w : WorkerState} (calls : callsOpen breaker attempts i w = true) :
    ¬ breaker.Respected attempts w := by
  unfold callsOpen at calls
  split at calls
  · rename_i request call cost timeoutMs awaited
    exact fun respected => respected awaited (CircuitBreakerOptions.opens_iff.mp calls)
  · cases calls

/-- No tool of a plan has an open breaker when the execution looks for its result, and no other
execution runs when a tool is called. -/
def unplanned (deployment : Deployment) (breaker : CircuitBreakerOptions) (w : WorkerState) :
    Act Choice AgentEvent → Bool
  | .env (.request (.execute ..)) => false
  | .env _ => true
  | .run i _ =>
      match w.awaited i with
      | some (.redis (.getResult request)) =>
          request.tools.all fun tool => !breaker.opens
            deployment.config.AGENT_TOOL_RETRY_ATTEMPTS w tool
      | some (.runTool ..) =>
          w.threads.zipIdx.all fun (t, j) => decide (j = i) || decide (t.body.outcome ≠ .running)
      | _ => true

theorem unplanned_sound {deployment : Deployment} {breaker : CircuitBreakerOptions}
    (w : WorkerState) (act : Act Choice AgentEvent)
    (passes : unplanned deployment breaker w act = true) : Unplanned deployment breaker w act := by
  cases act with
  | env event =>
      cases event with
      | tick ms => trivial
      | request task =>
          cases task with
          | execute => cases passes
          | _ => trivial
  | run i choice =>
      rw [unplanned] at passes
      constructor
      · intro request awaited tool planned opened
        rw [awaited] at passes
        have closed := List.all_eq_true.mp passes tool planned
        rw [CircuitBreakerOptions.opens_iff.mpr opened] at closed
        cases closed
      · intro request call cost timeoutMs w' awaited _ _ j other underWay
        rw [awaited] at passes
        obtain ⟨t, found, running⟩ := underWay.running
        have passed := List.all_eq_true.mp passes (t, j) (List.mk_mem_zipIdx_iff_getElem?.mpr found)
        simp [other, running] at passed

/-- The fourth execution calls the tool although it was exhausted three times. -/
theorem exhaustedPages_not_respected : ∃ w,
    (workerSystem pagerDeployment).Run OneByOne (unused pagerStore) w ∧
      ¬ CircuitBreakerOptions.Respected {}
        pagerDeployment.config.AGENT_TOOL_RETRY_ATTEMPTS w := by
  have evaluated : ((workerSystem pagerDeployment).execute oneByOne (unused pagerStore)
      (exhaustedPages ++ [pageJob "run-4"] ++ pages 3 17)).any
        (callsOpen {} pagerDeployment.config.AGENT_TOOL_RETRY_ATTEMPTS 3) = true := by decide +kernel
  obtain ⟨w, ran, calls⟩ := System.Run.exists_of_execute oneByOne_sound evaluated
  exact ⟨w, ran, not_respected_of_callsOpen calls⟩

/-- After the cooldown the fourth execution calls the tool. -/
theorem cooledPages_respected : ∃ w,
    (workerSystem pagerDeployment).Run (Unplanned pagerDeployment {}) (unused pagerStore) w ∧
      CircuitBreakerOptions.Respected {} pagerDeployment.config.AGENT_TOOL_RETRY_ATTEMPTS w := by
  have evaluated : ((workerSystem pagerDeployment).execute (unplanned pagerDeployment {})
      (unused pagerStore) (exhaustedPages ++ [.env (.tick 60000), pageJob "run-4"] ++
        pages 3 17)).any (fun w => (WorkerState.awaited w 3).isSome) = true := by decide +kernel
  obtain ⟨w, ran, _⟩ := System.Run.exists_of_execute unplanned_sound evaluated
  exact ⟨w, ran, respected_of_unplanned ran⟩

end Agents
