import BirthHub.Orchestrator.Interleaving

/-!
# The orchestrator after a restart

A crash may end an execution of an event at any await; the dictionaries are then empty, and the
table is as it was. The event is recovered (`Recovered`) if and only if the table has no row of it
(`recovered_iff`): the row has no entity id of its own and its context is read as text, so a record
that is loaded is never the one that was submitted.
-/

namespace Orchestrator

open Data Effect

variable {driver : Driver} {request : EventRunRequest} {s s' : Store}
  {w : World OrchestratorIface Request Store (Prog OrchestratorIface Response)}

/-! ## The property -/

/-- The process starts again, over the same table. -/
def Store.restart (s : Store) : Store := { agent_tasks := s.agent_tasks }

/-- The record has what the request submitted. -/
structure Submitted (request : EventRunRequest) (record : EventRecord) : Prop where
  event_type : record.event_type = request.event_type.name
  entity_id : record.entity_id = request.entity_id
  context : record.context = .dict request.context
  tenant_id : record.tenant_id = request.tenant_id

/-- From a store a task reaches its flow, the database answering it, with what was submitted. -/
def Invokes (driver : Driver) (request : EventRunRequest) (task : Request) (s : Store) : Prop :=
  ∃ retried record k s', (orchestrator driver).Prefix (fun _ choice => choice.fails = false)
    (serve task) s (.op (.ainvoke retried record) k) s' ∧ retried.event_type = request.event_type ∧
    retried.entity_id = request.entity_id ∧ retried.context = request.context

structure Recovered (driver : Driver) (request : EventRunRequest) (s : Store) : Prop where
  loaded : ∀ record, get_agent_task s.agent_tasks request.event_id = some record →
    Submitted request record
  reprocessed : ∀ record, get_agent_task s.agent_tasks request.event_id = some record →
    record.status = .failed → Invokes driver request (.reprocess request.event_id) s.restart
  rerun : ∀ record, get_agent_task s.agent_tasks request.event_id = some record →
    record.status = .processing → Invokes driver request (.run request) s.restart

/-! ## What the table holds -/

/-- The event is that a row of the id was written. -/
def writes (id : String) : Event OrchestratorIface → Bool
  | ⟨_, .upsert_agent_task record, .ok _⟩ => decide (record.event_id = id)
  | _ => false

def hasRow (id : String) (tasks : AgentTasks) : Bool := tasks.any (·.id = id)

theorem hasRow_upsert {tasks : AgentTasks} {now id : String} {record : EventRecord} :
    hasRow id (upsert_agent_task driver tasks now record) =
      (hasRow id tasks || decide (record.event_id = id)) := by
  unfold hasRow upsert_agent_task
  split
  · rename_i there
    rw [List.any_map]
    by_cases same : record.event_id = id
    · subst same
      rw [there, Bool.true_or, ← there]
      congr 1
      funext row
      by_cases own : row.id = record.event_id <;> simp [own]
    · rw [decide_eq_false same, Bool.or_false]
      congr 1
      funext row
      by_cases own : row.id = record.event_id
      · simp [own]
      · simp [own]
  · simp

theorem hasRow_iff {id : String} {tasks : AgentTasks} :
    hasRow id tasks = true ↔ ∃ record, get_agent_task tasks id = some record := by
  rw [hasRow, List.any_eq_true, ← List.find?_isSome, Option.isSome_iff_exists]
  constructor
  · rintro ⟨row, found⟩
    exact ⟨_, congrArg (Option.map _) found⟩
  · rintro ⟨record, loaded⟩
    obtain ⟨row, found, _⟩ := Option.map_eq_some_iff.mp loaded
    exact ⟨row, found⟩

theorem handle_hasRow {id : String} {i : Nat} {o : OrchestratorOp} {choice : Choice}
    {answer : OrchestratorIface.Answer o}
    (answered : handle driver o choice s = some (answer, s')) :
    hasRow id s'.agent_tasks = (hasRow id s.agent_tasks || writes id ⟨i, o, answer⟩) := by
  cases o with
  | upsert_agent_task record =>
      simp only [handle] at answered
      split at answered
      · cases answered
        exact (Bool.or_false _).symm
      · cases answered
        exact hasRow_upsert
  | get_agent_task task_id =>
      simp only [handle] at answered
      split at answered <;> cases answered <;> exact (Bool.or_false _).symm
  | _ =>
      cases answered
      exact (Bool.or_false _).symm

/-- In a run the table has a row of an event if it had one, or one was written. -/
theorem hasRow_run {guard : World OrchestratorIface Request Store (Prog OrchestratorIface Response) →
      Act Choice Request → Prop} {id : String}
    {threads : List (Thread Request (Prog OrchestratorIface Response))}
    (reached : (orchestrator driver).Run guard ⟨s, threads, []⟩ w) :
    hasRow id w.store.agent_tasks = (hasRow id s.agent_tasks || w.trace.any (writes id)) := by
  induction reached with
  | refl => simp
  | @step w w' act before _ taken ih =>
      cases act with
      | run i choice =>
          obtain ⟨t, o, k, answer, store, found, pending, answered, rfl⟩ := System.step_run taken
          rw [World.advance_store, handle_hasRow (i := i) answered, ih, World.advance_trace,
            List.any_cons, Bool.or_assoc, Bool.or_comm (w.trace.any _)]
      | env event =>
          obtain ⟨c, change, rfl⟩ := System.step_env taken
          cases change
          exact ih

/-! ## What a restart makes of a row -/

/-- A record that is loaded has the text of its context, and no dictionary. -/
theorem loaded_text {tasks : AgentTasks} {id : String} {record : EventRecord}
    (loaded : get_agent_task tasks id = some record) :
    ∃ text, record.context = .text text := by
  obtain ⟨row, _, rfl⟩ := Option.map_eq_some_iff.mp loaded
  exact ⟨row.payload, rfl⟩

theorem not_submitted {tasks : AgentTasks} {id : String} {record : EventRecord}
    (loaded : get_agent_task tasks id = some record) : ¬Submitted request record := by
  intro submitted
  obtain ⟨text, same⟩ := loaded_text loaded
  rw [submitted.context] at same
  cases same

theorem recovered_iff_noRow :
    Recovered driver request s ↔ hasRow request.event_id s.agent_tasks = false := by
  constructor
  · intro recovered
    by_contra there
    obtain ⟨record, loaded⟩ := hasRow_iff.mp (Bool.eq_true_of_not_eq_false there)
    exact not_submitted loaded (recovered.loaded record loaded)
  · intro absent
    have never {record : EventRecord}
        (loaded : get_agent_task s.agent_tasks request.event_id = some record) : False := by
      rw [hasRow_iff.mpr ⟨record, loaded⟩] at absent
      cases absent
    exact ⟨fun _ loaded => (never loaded).elim, fun _ loaded => (never loaded).elim,
      fun _ loaded => (never loaded).elim⟩

/-- **Recovery.** Wherever the execution of a request ends, the event is recovered by a restart
if and only if the table had no row of it and none was written. -/
theorem recovered_iff {guard : World OrchestratorIface Request Store
      (Prog OrchestratorIface Response) → Act Choice Request → Prop}
    (reached : (orchestrator driver).Run guard
      ⟨s, [⟨.run request, serve (.run request), false⟩], []⟩ w) :
    Recovered driver request w.store ↔
      hasRow request.event_id s.agent_tasks = false ∧
        w.trace.any (writes request.event_id) = false := by
  rw [recovered_iff_noRow, hasRow_run reached, Bool.or_eq_false_iff]

/-- The request has been accepted, and nothing has been done. -/
def accepted (request : EventRunRequest) :
    World OrchestratorIface Request Store (Prog OrchestratorIface Response) :=
  ⟨{}, [⟨.run request, serve (.run request), false⟩], []⟩

/-- A crash before the first write. -/
theorem unwritten_recovered : ∃ w, (orchestrator plainDriver).Run (fun _ _ => True)
    (accepted dealWon) w ∧ Recovered plainDriver dealWon w.store := by
  have ran : ∃ w, (orchestrator plainDriver).Run (fun _ _ => True) (accepted dealWon) w ∧
      (!w.trace.any (writes "event_001")) = true :=
    System.Run.exists_of_execute (fun _ _ _ => trivial)
      (show ((orchestrator plainDriver).execute (fun _ _ => true) (accepted dealWon)
        [.run 0 {}, .run 0 {}, .run 0 {}]).any _ = true by decide)
  obtain ⟨w, reached, unwritten⟩ := ran
  have unwritten' : w.trace.any (writes "event_001") = false := by simpa using unwritten
  exact ⟨w, reached, (recovered_iff reached).mpr ⟨rfl, unwritten'⟩⟩

/-- A crash after the first write. -/
theorem written_not_recovered : ¬∀ (driver : Driver) (request : EventRunRequest)
    (w : World OrchestratorIface Request Store (Prog OrchestratorIface Response)),
    (orchestrator driver).Run (fun _ _ => True) (accepted request) w →
      Recovered driver request w.store := by
  intro claimed
  have ran : ∃ w, (orchestrator plainDriver).Run (fun _ _ => True) (accepted dealWon) w ∧
      hasRow "event_001" w.store.agent_tasks = true :=
    System.Run.exists_of_execute (fun _ _ _ => trivial)
      (show ((orchestrator plainDriver).execute (fun _ _ => true) (accepted dealWon)
        [.run 0 {}, .run 0 {}, .run 0 {}, .run 0 {}]).any _ = true by decide)
  obtain ⟨w, reached, written⟩ := ran
  have absent := recovered_iff_noRow.mp (claimed plainDriver dealWon w reached)
  have same : hasRow "event_001" w.store.agent_tasks = false := absent
  rw [written] at same
  cases same

end Orchestrator
