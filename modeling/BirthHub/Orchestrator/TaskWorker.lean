import BirthHub.Data.JsonParse

/-!
# The worker of the task stream

`OrchestratorWorker` of `apps/agent-orchestrator/orchestrator/worker.py`. It reads messages from the
stream of tasks, marks each event as processed, decodes its message and publishes one result for it.
Only the handler runs in a guarded block, so a message that cannot be decoded ends the worker, with
its event marked. Redis commands succeed, and `json.loads` is a parameter.
-/

namespace TaskWorker

open Data

/-! ## Messages and events -/

abbrev Dict := List (String × Value)

/-- The fields of a message that the worker reads. -/
structure Message where
  event_id : String
  tenant_id : Option String := none
  agent_type : Option String := none
  task : Option String := none
  payload : Option String := none
  correlation_id : Option String := none
deriving DecidableEq

structure AgentTaskEvent where
  event_id : String
  tenant_id : String
  agent_type : String
  task : String
  payload : Dict
  correlation_id : String

inductive Status
  | success
  | error
deriving DecidableEq

/-- What `publish_result` puts on the stream of results. -/
structure Result where
  event_id : String
  correlation_id : String
  status : Status
  data : Dict := []
  error : String := ""

/-- What a handler does: it returns, it raises an `Exception` with this text, it raises what is not
an `Exception`, or it never ends. -/
inductive HandlerOutcome
  | returned (data : Dict)
  | raised (text : String)
  | raisedBase
  | pending

/-- What a handler does in the call for an event, which depends on whatever happened before. -/
abbrev Handler := (event_id task : String) → (payload : Dict) → HandlerOutcome

/-- Why the worker goes no further: an exception escapes, or a handler never ends. -/
inductive Stop
  | jsonDecodeError
  | validationError
  | raisedBase
  | pending
deriving DecidableEq

/-- `json.loads`, where it raises no exception. -/
abbrev Loads := String → Option Value

/-- The event of a message; `payload` has to be a dictionary. -/
def Message.event (loads : Loads) (message : Message) : Except Stop AgentTaskEvent :=
  match loads (message.payload.getD "\x7b\x7d") with
  | none => .error .jsonDecodeError
  | some (.object payload) => .ok {
      event_id := message.event_id
      tenant_id := message.tenant_id.getD "unknown"
      agent_type := message.agent_type.getD "unknown"
      task := message.task.getD "run"
      payload
      correlation_id := message.correlation_id.getD "" }
  | some _ => .error .validationError

/-! ## The worker -/

structure Worker where
  _processed : List String := []
  results : List Result := []

def Worker.publish_result (worker : Worker) (result : Result) : Worker :=
  { worker with results := worker.results ++ [result] }

/-- What the handler of the agent type of the event does, if there is one. -/
def AgentTaskEvent.outcome (handlers : String → Option Handler) (event : AgentTaskEvent) :
    Option HandlerOutcome :=
  (handlers event.agent_type).map fun handler => handler event.event_id event.task event.payload

/-- The result that is published for an event, after its handler. -/
def AgentTaskEvent.result (event : AgentTaskEvent) : Option HandlerOutcome → Except Stop Result
  | none => .ok {
      event_id := event.event_id
      correlation_id := event.correlation_id
      status := .error
      error := "handler_not_found" }
  | some (.returned data) => .ok {
      event_id := event.event_id
      correlation_id := event.correlation_id
      status := .success
      data }
  | some (.raised error) => .ok {
      event_id := event.event_id
      correlation_id := event.correlation_id
      status := .error
      error }
  | some .raisedBase => .error .raisedBase
  | some .pending => .error .pending

/-- What is published for a message whose event is new. -/
def Message.result (loads : Loads) (handlers : String → Option Handler) (message : Message) :
    Except Stop Result := do
  let event ← message.event loads
  event.result (event.outcome handlers)

def _process_one (loads : Loads) (handlers : String → Option Handler) (message : Message)
    (worker : Worker) : Except Stop Unit × Worker :=
  if message.event_id ∈ worker._processed then (.ok (), worker)
  else
    let worker := { worker with _processed := worker._processed ++ [message.event_id] }
    match message.result loads handlers with
    | .error stop => (.error stop, worker)
    | .ok result => (.ok (), worker.publish_result result)

/-- The messages that are read, one after another, until one stops the worker. -/
def process_forever (loads : Loads) (handlers : String → Option Handler) :
    List Message → Worker → Except Stop Unit × Worker
  | [], worker => (.ok (), worker)
  | message :: messages, worker =>
      match _process_one loads handlers message worker with
      | (.error stop, worker) => (.error stop, worker)
      | (.ok (), worker) => process_forever loads handlers messages worker

/-! ## What is to hold -/

/-- The first message of each event that is not among these. -/
def firsts (processed : List String) : List Message → List Message
  | [] => []
  | message :: messages =>
      if message.event_id ∈ processed then firsts processed messages
      else message :: firsts (processed ++ [message.event_id]) messages

/-- The handler of the event of this message returns. -/
def Message.Succeeds (loads : Loads) (handlers : String → Option Handler) (message : Message) :
    Prop :=
  ∃ event data, message.event loads = .ok event ∧ event.outcome handlers = some (.returned data)

structure OneResultEach (loads : Loads) (handlers : String → Option Handler)
    (messages : List Message) : Prop where
  whole : (process_forever loads handlers messages {}).1 = .ok ()
  one : ∀ message ∈ messages, ((process_forever loads handlers messages {}).2.results.map
    (·.event_id)).count message.event_id = 1
  only : ∀ result ∈ (process_forever loads handlers messages {}).2.results,
    ∃ message ∈ messages, result.event_id = message.event_id
  status : ∀ message ∈ firsts [] messages,
    ∀ result ∈ (process_forever loads handlers messages {}).2.results,
      result.event_id = message.event_id →
        (result.status = .success ↔ message.Succeeds loads handlers)

/-- The payload is absent or the text of a dictionary, and the handler ends by returning or by an
`Exception`. -/
def Message.Processable (loads : Loads) (handlers : String → Option Handler) (message : Message) :
    Prop :=
  ∃ event, message.event loads = .ok event ∧
    event.outcome handlers ≠ some .raisedBase ∧ event.outcome handlers ≠ some .pending

/-! ## One message -/

section

variable {loads : Loads} {handlers : String → Option Handler} {message : Message}
  {messages : List Message} {worker : Worker} {result : Result}

theorem event_id_of_event {event : AgentTaskEvent} (decoded : message.event loads = .ok event) :
    event.event_id = message.event_id := by
  unfold Message.event at decoded
  split at decoded <;> cases decoded
  rfl

/-- There is a result just where the message can be processed. -/
theorem Message.processable_iff :
    message.Processable loads handlers ↔ ∃ result, message.result loads handlers = .ok result := by
  unfold Processable Message.result
  cases decoded : message.event loads with
  | error stop =>
      constructor
      · rintro ⟨event, other, _⟩
        cases other
      · rintro ⟨result, other⟩
        cases other
  | ok event =>
      have outcomes : (event.outcome handlers ≠ some .raisedBase ∧
          event.outcome handlers ≠ some .pending) ↔
            ∃ result, event.result (event.outcome handlers) = .ok result := by
        rcases event.outcome handlers with _ | _ | _ | _ | _ <;> simp [AgentTaskEvent.result]
      refine Iff.trans ?_ outcomes
      constructor
      · rintro ⟨event', same, ends⟩
        cases same
        exact ends
      · exact fun ends => ⟨event, rfl, ends⟩

theorem AgentTaskEvent.event_id_of_result {event : AgentTaskEvent} {outcome : Option HandlerOutcome}
    (published : event.result outcome = .ok result) : result.event_id = event.event_id := by
  rcases outcome with _ | _ | _ | _ | _ <;> cases published <;> rfl

theorem event_id_of_result (published : message.result loads handlers = .ok result) :
    result.event_id = message.event_id := by
  unfold Message.result at published
  cases decoded : message.event loads with
  | error stop =>
      rw [decoded] at published
      cases published
  | ok event =>
      rw [decoded] at published
      exact (AgentTaskEvent.event_id_of_result published).trans (event_id_of_event decoded)

theorem status_of_result (published : message.result loads handlers = .ok result) :
    result.status = .success ↔ message.Succeeds loads handlers := by
  unfold Message.Succeeds
  unfold Message.result at published
  cases decoded : message.event loads with
  | error stop =>
      rw [decoded] at published
      cases published
  | ok event =>
      rw [decoded] at published
      change event.result (event.outcome handlers) = .ok result at published
      cases outcome : event.outcome handlers with
      | none =>
          rw [outcome] at published
          cases published
          simp [outcome]
      | some outcome' =>
          rw [outcome] at published
          cases outcome' <;> cases published <;> simp [outcome]

/-! ## All messages -/

/-- Where the first message of each new event can be processed, the worker goes on to the end, with
one result for each of these. -/
theorem process_forever_of_processable
    (processable : ∀ message ∈ firsts worker._processed messages,
      message.Processable loads handlers) :
    (process_forever loads handlers messages worker).1 = .ok () ∧ ∃ results,
      (process_forever loads handlers messages worker).2.results = worker.results ++ results ∧
      List.Forall₂ (fun message result => message.result loads handlers = .ok result)
        (firsts worker._processed messages) results := by
  induction messages generalizing worker with
  | nil => exact ⟨rfl, [], (List.append_nil _).symm, .nil⟩
  | cons message messages ih =>
      by_cases old : message.event_id ∈ worker._processed
      · rw [firsts, if_pos old] at processable ⊢
        rw [process_forever, _process_one, if_pos old]
        exact ih processable
      · rw [firsts, if_neg old] at processable ⊢
        obtain ⟨result, published⟩ :=
          Message.processable_iff.mp (processable message List.mem_cons_self)
        rw [process_forever, _process_one, if_neg old]
        simp only [published]
        let next := Worker.publish_result
          { worker with _processed := worker._processed ++ [message.event_id] } result
        have others : ∀ later ∈ firsts next._processed messages, later.Processable loads handlers :=
          fun later inside => processable later (List.mem_cons_of_mem message inside)
        obtain ⟨whole, results, same, each⟩ := ih others
        refine ⟨whole, result :: results, ?_, .cons published each⟩
        have grown : next.results = worker.results ++ [result] := rfl
        rw [same, grown, List.append_assoc, List.singleton_append]

/-- A worker that goes on to the end has processed the first message of each new event. -/
theorem processable_of_process_forever
    (whole : (process_forever loads handlers messages worker).1 = .ok ()) :
    ∀ message ∈ firsts worker._processed messages, message.Processable loads handlers := by
  induction messages generalizing worker with
  | nil => exact fun message inside => (List.not_mem_nil inside).elim
  | cons message messages ih =>
      rw [process_forever, _process_one] at whole
      by_cases old : message.event_id ∈ worker._processed
      · rw [if_pos old] at whole
        rw [firsts, if_pos old]
        exact ih whole
      · rw [if_neg old] at whole
        rw [firsts, if_neg old]
        cases published : message.result loads handlers with
        | error stop =>
            rw [published] at whole
            cases whole
        | ok result =>
            simp only [published] at whole
            intro other inside
            rcases List.mem_cons.mp inside with rfl | later
            · exact Message.processable_iff.mpr ⟨result, published⟩
            · exact ih whole other later

theorem event_ids_firsts (processed : List String) (messages : List Message) :
    ((firsts processed messages).map (·.event_id)).Nodup ∧ ∀ event_id,
      event_id ∈ (firsts processed messages).map (·.event_id) ↔
        event_id ∉ processed ∧ event_id ∈ messages.map (·.event_id) := by
  induction messages generalizing processed with
  | nil => exact ⟨.nil, fun event_id => by simp [firsts]⟩
  | cons message messages ih =>
      rw [firsts]
      split
      · rename_i old
        obtain ⟨distinct, iff⟩ := ih processed
        refine ⟨distinct, fun event_id => ?_⟩
        rw [iff, List.map_cons, List.mem_cons]
        constructor
        · exact fun ⟨new, inside⟩ => ⟨new, .inr inside⟩
        · rintro ⟨new, rfl | inside⟩
          · exact absurd old new
          · exact ⟨new, inside⟩
      · rename_i new
        obtain ⟨distinct, iff⟩ := ih (processed ++ [message.event_id])
        refine ⟨?_, fun event_id => ?_⟩
        · rw [List.map_cons]
          refine List.nodup_cons.mpr ⟨fun inside => ?_, distinct⟩
          exact ((iff _).mp inside).1 (List.mem_append_right _ (List.mem_singleton_self _))
        · rw [List.map_cons, List.map_cons, List.mem_cons, List.mem_cons, iff, List.mem_append,
            List.mem_singleton]
          constructor
          · rintro (rfl | ⟨fresh, inside⟩)
            · exact ⟨new, .inl rfl⟩
            · exact ⟨fun old => fresh (.inl old), .inr inside⟩
          · rintro ⟨fresh, rfl | inside⟩
            · exact .inl rfl
            · by_cases same : event_id = message.event_id
              · exact .inl same
              · exact .inr ⟨fun old => old.elim fresh same, inside⟩

/-- The results name the events of their messages, and each is the one of a message. -/
theorem results_spec {results : List Result}
    (each : List.Forall₂ (fun message result => message.result loads handlers = .ok result)
      messages results) :
    results.map (·.event_id) = messages.map (·.event_id) ∧
      ∀ result ∈ results, ∃ message ∈ messages, message.result loads handlers = .ok result := by
  induction each with
  | nil => exact ⟨rfl, fun _ inside => (List.not_mem_nil inside).elim⟩
  | cons published _ ih =>
      obtain ⟨ids, others⟩ := ih
      refine ⟨?_, fun result inside => ?_⟩
      · rw [List.map_cons, List.map_cons, ids, event_id_of_result published]
      · rcases List.mem_cons.mp inside with rfl | later
        · exact ⟨_, List.mem_cons_self, published⟩
        · obtain ⟨message, there, own⟩ := others result later
          exact ⟨message, List.mem_cons_of_mem _ there, own⟩

/-- **Every task event gets one result**, and the worker goes on to the last message, just where the
first message of each event can be processed. -/
theorem oneResultEach_iff : OneResultEach loads handlers messages ↔
    ∀ message ∈ firsts [] messages, message.Processable loads handlers := by
  constructor
  · exact fun each => processable_of_process_forever each.whole
  · intro processable
    have start : ∀ message ∈ firsts ({} : Worker)._processed messages,
        message.Processable loads handlers := processable
    obtain ⟨whole, results, published, each⟩ := process_forever_of_processable start
    rw [List.nil_append] at published
    obtain ⟨distinct, inside⟩ := event_ids_firsts [] messages
    obtain ⟨ids, others⟩ := results_spec each
    refine ⟨whole, fun message there => ?_, fun result there => ?_, fun message first result there
      same => ?_⟩
    · rw [published, ids]
      refine List.count_eq_one_of_mem distinct ((inside _).mpr ⟨List.not_mem_nil, ?_⟩)
      exact List.mem_map_of_mem there
    · rw [published] at there
      have id := List.mem_map_of_mem (f := (·.event_id)) there
      rw [ids] at id
      obtain ⟨message, inside, same⟩ := List.mem_map.mp ((inside _).mp id).2
      exact ⟨message, inside, same.symm⟩
    · rw [published] at there
      obtain ⟨other, inside', own⟩ := others result there
      have ids := (event_id_of_result own).symm.trans same
      cases List.inj_on_of_nodup_map distinct inside' first ids
      exact status_of_result own

end

/-! ### A payload that is cut off -/

/-- The only agent is `noop`. -/
def noop (agent_type : String) : Option Handler :=
  if agent_type = "noop" then some fun _ _ _ => .returned [] else none

def noopTask (event_id : String) (payload : Option String) : Message :=
  { event_id, agent_type := some "noop", payload }

/-- A redelivered event, and one of an agent that there is not, get their results. -/
theorem redelivered_oneResultEach : OneResultEach Json.parse noop
    [noopTask "e1" none, noopTask "e1" none, { event_id := "e2" }] := by
  refine oneResultEach_iff.mpr fun message inside => ?_
  have first : firsts [] [noopTask "e1" none, noopTask "e1" none, { event_id := "e2" }] =
      [noopTask "e1" none, { event_id := "e2" }] := by decide
  rw [first] at inside
  rcases List.mem_cons.mp inside with rfl | inside
  · exact Message.processable_iff.mpr ⟨_, rfl⟩
  · rw [List.mem_singleton.mp inside]
    exact Message.processable_iff.mpr ⟨_, rfl⟩

/-- A payload that is no JSON text stops the worker, and the event after it gets no result. -/
theorem cutOff_not_oneResultEach : ¬ OneResultEach Json.parse noop
    [noopTask "e1" (some "\x7b"), noopTask "e2" none] := by
  intro each
  have stopped : (process_forever Json.parse noop
      [noopTask "e1" (some "\x7b"), noopTask "e2" none] {}).1 = .error .jsonDecodeError := rfl
  cases stopped.symm.trans each.whole

end TaskWorker
