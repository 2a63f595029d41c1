import BirthHub.Effect.Counting
import BirthHub.Effect.Moves
import BirthHub.Orchestrator.Life

/-!
# Requests for one event

Requests for an event run, reprocess and cancel it, and other requests run between their awaits.
The life of the event stays in order (`lifecycle_kept`) in a run in which a request marks it only
while it is new or has failed, its flow ends only while it is not cancelled, and it is cancelled
only while it has not failed. The code checks the first of these before an await, and the others
not at all.
-/

namespace Orchestrator

open Data Effect

/-! ## The property -/

abbrev OrchestratorState := World OrchestratorIface Request Store (Prog OrchestratorIface Response)

/-- The program awaits the end of a flow of the event. -/
def inFlow (id : String) (p : Prog OrchestratorIface Response) : Bool :=
  match p.pending with
  | some (.ainvoke request _) => decide (request.event_id = id)
  | _ => false

/-- A flow of the event has completed. -/
def completes (id : String) : Event OrchestratorIface → Bool
  | ⟨_, .ainvoke request _, .ok (.completed _)⟩ => decide (request.event_id = id)
  | _ => false

/-- The event was set to cancelled. -/
def cancels (id : String) : Event OrchestratorIface → Bool
  | ⟨_, .cancel event_id, .ok (some (.cancelled _))⟩ => decide (event_id = id)
  | ⟨_, .cancelLoaded event_id _, .ok (.cancelled _)⟩ => decide (event_id = id)
  | _ => false

/-- The event was cancelled when no flow of it had completed; the trace is newest first. -/
def early (id : String) : List (Event OrchestratorIface) → Bool
  | [] => false
  | event :: trace => early id trace || (cancels id event && !trace.any (completes id))

/-- The life of an event in order. -/
structure Kept (id : String) (w : OrchestratorState) : Prop where
  single : (w.threads.countP fun t => inFlow id t.body) ≤ 1
  once : w.trace.any (completes id) = true → (w.threads.countP fun t => inFlow id t.body) = 0
  cancelled : early id w.trace = true → w.store.memory.status id = some .cancelled
  dead : (∀ t ∈ w.threads, t.tag.event_id = id → t.body.outcome ≠ .running) →
    (w.store.memory.isDead id = true ↔ w.store.memory.status id = some .failed)

/-! ## The condition -/

/-- The event is not in `EVENT_STORE`, or has failed. -/
def Memory.IsFresh (memory : Memory) (id : String) : Prop :=
  memory.status id = none ∨ memory.status id = some .failed

def Fits (id : String) (memory : Memory) : OrchestratorOp → Prop
  | .accept request allow_retry existing => request.event_id = id →
      (allow_retry = true ∨ ∀ record ∈ existing, record.status = .failed) → memory.IsFresh id
  | .reprocess event_id => event_id = id →
      (∀ record ∈ memory.dead id, record.status = .failed → memory.IsFresh id)
  | .retry record => record.event_id = id → record.status = .failed → memory.IsFresh id
  | .ainvoke request _ => request.event_id = id → memory.status id ≠ some .cancelled
  | .cancel event_id => event_id = id → memory.status id ≠ some .failed
  | .cancelLoaded event_id record => event_id = id → record.status ≠ .completed →
      memory.status id ≠ some .failed
  | _ => True

/-- What a request does to the event it does in order. -/
def Orderly (id : String) (w : OrchestratorState) : Act Choice Request → Prop
  | .env _ => True
  | .run i _ => ∀ o, (w.threads[i]?).bind (·.body.pending) = some o → Fits id w.store.memory o

/-! ## The stages of a request -/

inductive Stage
  | start
  | lookup
  | found (record : EventRecord)
  | missed (request : EventRunRequest) (allow_retry : Bool)
  | asked (request : EventRunRequest) (allow_retry : Bool)
  /-- The event is marked, and its flow has not ended. -/
  | running (request : EventRunRequest) (record : EventRecord)
  /-- The flow has completed. -/
  | ended
  | finished

namespace Stage

/-- After the duplicate check; a retry is never a duplicate. -/
def admitted (request : EventRunRequest) (allow_retry : Bool) : Option Admission → Stage
  | none => .missed request allow_retry
  | some (.started record) => .running request record
  | some (.duplicate _) => if allow_retry then .ended else .finished

def retried : Except Failure (EventRunRequest × Option Admission) → Stage
  | .ok (request, first) => .admitted request true first
  | .error _ => .finished

/-- The operations on the dictionaries, which do not fail. -/
def isLocal : OrchestratorOp → Bool
  | .upsert_agent_task _ => false
  | .get_agent_task _ => false
  | _ => true

inductive Move : Request → Stage → (o : OrchestratorOp) → OrchestratorIface.Answer o → Stage → Prop
  | execute {request : EventRunRequest} {first : Option Admission} :
      Move (.run request) .start (.execute request) (.ok first) (.admitted request false first)
  | reprocess {id : String} :
      Move (.reprocess id) .start (.reprocess id) (.ok none) .lookup
  | retried {id : String} {result : Except Failure (EventRunRequest × Option Admission)} :
      Move (.reprocess id) .start (.reprocess id) (.ok (some result)) (.retried result)
  | look {tag : Request} {record : EventRecord} :
      Move tag .lookup (.get_agent_task tag.event_id) (.ok (some record)) (.found record)
  | absent {tag : Request} :
      Move tag .lookup (.get_agent_task tag.event_id) (.ok none) .finished
  | unread {tag : Request} {e : Failure} :
      Move tag .lookup (.get_agent_task tag.event_id) (.error e) .finished
  | retry {tag : Request} {record : EventRecord}
      {result : Except Failure (EventRunRequest × Option Admission)} :
      Move tag (.found record) (.retry record) (.ok result) (.retried result)
  | ask {tag : Request} {request : EventRunRequest} {allow_retry : Bool}
      {answer : OrchestratorIface.Answer (.get_agent_task request.event_id)} :
      Move tag (.missed request allow_retry) (.get_agent_task request.event_id) answer
        (.asked request allow_retry)
  | accept {tag : Request} {request : EventRunRequest} {allow_retry : Bool}
      {existing : Option EventRecord} {admission : Admission} :
      Move tag (.asked request allow_retry) (.accept request allow_retry existing) (.ok admission)
        (.admitted request allow_retry (some admission))
  | write {tag : Request} {request : EventRunRequest} {record saved : EventRecord}
      {answer : OrchestratorIface.Answer (.upsert_agent_task saved)} :
      Move tag (.running request record) (.upsert_agent_task saved) answer
        (.running request record)
  | complete {tag : Request} {request : EventRunRequest} {record completed : EventRecord} :
      Move tag (.running request record) (.ainvoke request record) (.ok (.completed completed))
        .ended
  | fail {tag : Request} {request : EventRunRequest} {record failed : EventRecord}
      {detail : String} :
      Move tag (.running request record) (.ainvoke request record) (.ok (.failed failed detail))
        .finished
  | save {tag : Request} {saved : EventRecord}
      {answer : OrchestratorIface.Answer (.upsert_agent_task saved)} :
      Move tag .finished (.upsert_agent_task saved) answer .finished
  | saveEnded {tag : Request} {saved : EventRecord}
      {answer : OrchestratorIface.Answer (.upsert_agent_task saved)} :
      Move tag .ended (.upsert_agent_task saved) answer .ended
  | pop {id : String} : Move (.reprocess id) .ended (.popDLQ id) (.ok ()) .ended
  | cancel {id : String} : Move (.cancel id) .start (.cancel id) (.ok none) .lookup
  | cancelled {id : String} {cancellation : Cancellation} :
      Move (.cancel id) .start (.cancel id) (.ok (some cancellation)) .finished
  | cancelLoaded {id : String} {record : EventRecord} {cancellation : Cancellation} :
      Move (.cancel id) (.found record) (.cancelLoaded id record) (.ok cancellation) .finished
  | broken {tag : Request} {s : Stage} {o : OrchestratorOp} {e : Failure}
      (dictionaries : isLocal o = true) : Move tag s o (.error e) .finished

/-- Whether the event is marked by a request at this stage, which awaits its flow. -/
def runs (id : String) : Stage → Bool
  | .running request _ => decide (request.event_id = id)
  | _ => false

/-- What a request holds is of its own event. -/
def Owned (id : String) : Stage → Prop
  | .found record => record.event_id = id
  | .missed request _ => request.event_id = id
  | .asked request _ => request.event_id = id
  | .running request record => request.event_id = id ∧ record.event_id = id
  | _ => True

/-- A request that has marked an event does not end before the flow does. -/
def ends (_ : Request) (_ : Except Failure Response) (s : Stage) : Prop :=
  ∀ request record, s ≠ .running request record

end Stage

/-! ## The programs follow the stages -/

section Programs

variable {tag : Request} {id : String} {record : EventRecord} {request : EventRunRequest}

theorem follows_upsert {s : Stage}
    (moves : ∀ answer, Stage.Move tag s (.upsert_agent_task record) answer s) :
    (_safe_upsert_event record).Follows (Stage.Move tag)
      (fun x s' => x = .ok () ∧ s' = s) s := by
  unfold _safe_upsert_event
  split
  · exact ⟨rfl, rfl⟩
  · intro answer
    refine ⟨s, moves answer, ?_⟩
    cases answer <;> exact ⟨rfl, rfl⟩

/-- Where an execution of an event may end: not before its flow, and a retry that returns has
completed the flow. -/
def Executed (tag : Request) (allow_retry : Bool) (x : Except Failure Response) (s : Stage) :
    Prop :=
  Stage.ends tag x s ∧ ∀ a, x = .ok a → allow_retry = true → s = .ended

theorem follows_runFlow {allow_retry : Bool} (admission : Admission) :
    (runFlow request admission).Follows (Stage.Move tag) (Executed tag allow_retry)
      (.admitted request allow_retry (some admission)) := by
  cases admission with
  | duplicate record =>
      cases allow_retry
      · exact ⟨fun _ _ => nofun, fun _ _ => nofun⟩
      · exact ⟨fun _ _ => nofun, fun _ _ _ => rfl⟩
  | started record =>
      refine Prog.Follows.bind (Prog.Follows.mono ?_ (follows_upsert fun _ => .write))
      rintro x s ⟨rfl, rfl⟩
      refine Prog.Follows.performBind (fun ended => ?_)
        fun e => ⟨.finished, .broken rfl, fun _ _ => nofun, nofun⟩
      cases ended with
      | completed completed =>
          refine ⟨_, .complete, Prog.Follows.bind (Prog.Follows.mono ?_
            (follows_upsert fun _ => .saveEnded))⟩
          rintro x s ⟨rfl, rfl⟩
          exact ⟨fun _ _ => nofun, fun _ _ _ => rfl⟩
      | failed failed detail =>
          refine ⟨_, .fail, Prog.Follows.bind (Prog.Follows.mono ?_
            (follows_upsert fun _ => .save))⟩
          rintro x s ⟨rfl, rfl⟩
          exact ⟨fun _ _ => nofun, nofun⟩

theorem follows_execute_event {allow_retry : Bool} (first : Option Admission) :
    (_execute_event request allow_retry first).Follows (Stage.Move tag)
      (Executed tag allow_retry) (.admitted request allow_retry first) := by
  cases first with
  | some admission => exact follows_runFlow admission
  | none =>
      have admits (existing : Option EventRecord) :
          ((await (.accept request allow_retry existing)).bind fun admission =>
            runFlow request admission).Follows (Stage.Move tag)
            (Executed tag allow_retry) (.asked request allow_retry) :=
        Prog.Follows.performBind (fun admission => ⟨_, .accept, follows_runFlow admission⟩)
          fun e => ⟨.finished, .broken rfl, fun _ _ => nofun, nofun⟩
      intro answer
      refine ⟨_, .ask, ?_⟩
      cases answer with
      | ok existing => exact admits existing
      | error e => exact admits none

theorem follows_retryRequest :
    (retryRequest id).Follows (Stage.Move (.reprocess id))
      (fun
        | .ok (request, first), s => s = .admitted request true first
        | .error _, s => Stage.ends (.reprocess id) (.error .database) s) .start := by
  have retries (result : Except Failure (EventRunRequest × Option Admission)) :
      (Prog.ofExcept result : Prog OrchestratorIface _).Follows (Stage.Move (.reprocess id))
        (fun
          | .ok (request, first), s => s = .admitted request true first
          | .error _, s => Stage.ends (.reprocess id) (.error .database) s) (.retried result) := by
    cases result with
    | ok result => exact rfl
    | error e => exact fun _ _ => nofun
  refine Prog.Follows.performBind (fun first => ?_) fun e => ⟨.finished, .broken rfl, fun _ _ => nofun⟩
  cases first with
  | some result => exact ⟨_, .retried, retries result⟩
  | none =>
      refine ⟨_, .reprocess, fun answer => ?_⟩
      rcases answer with e | _ | record
      · exact ⟨_, .unread, fun _ _ => nofun⟩
      · exact ⟨_, .absent, fun _ _ => nofun⟩
      · exact ⟨_, .look, Prog.Follows.performBind (fun result => ⟨_, .retry, retries result⟩)
          fun e => ⟨.finished, .broken rfl, fun _ _ => nofun⟩⟩

theorem follows_cancelled (cancellation : Cancellation) :
    (cancelled id cancellation).Follows (Stage.Move tag) (Stage.ends tag) .finished := by
  cases cancellation with
  | completed => exact fun _ _ => nofun
  | cancelled record =>
      refine Prog.Follows.bind (Prog.Follows.mono ?_ (follows_upsert fun _ => .save))
      rintro x s ⟨rfl, rfl⟩
      exact fun _ _ => nofun

theorem serve_follows (tag : Request) :
    (serve tag).Follows (Stage.Move tag) (Stage.ends tag) .start := by
  cases tag with
  | run request =>
      refine Prog.Follows.performBind (fun first => ⟨_, .execute, ?_⟩)
        fun e => ⟨.finished, .broken rfl, fun _ _ => nofun⟩
      exact (follows_execute_event first).mono fun x s executed => executed.1
  | reprocess id =>
      refine Prog.Follows.bind (Prog.Follows.mono ?_ follows_retryRequest)
      rintro (e | ⟨request, first⟩) s ends
      · exact ends
      · subst ends
        refine Prog.Follows.bind (Prog.Follows.mono ?_ (follows_execute_event first))
        rintro (e | result) s ⟨ends, returned⟩
        · exact ends
        · rw [returned result rfl rfl]
          refine Prog.Follows.performBind (fun _ => ⟨_, .pop, fun _ _ => nofun⟩)
            fun e => ⟨.finished, .broken rfl, fun _ _ => nofun⟩
  | cancel id =>
      refine Prog.Follows.performBind (fun first => ?_)
        fun e => ⟨.finished, .broken rfl, fun _ _ => nofun⟩
      cases first with
      | some cancellation => exact ⟨_, .cancelled, follows_cancelled cancellation⟩
      | none =>
          refine ⟨_, .cancel, fun answer => ?_⟩
          rcases answer with e | _ | record
          · exact ⟨_, .unread, fun _ _ => nofun⟩
          · exact ⟨_, .absent, fun _ _ => nofun⟩
          · exact ⟨_, .look, Prog.Follows.performBind
              (fun cancellation => ⟨_, .cancelLoaded, follows_cancelled cancellation⟩)
              fun e => ⟨.finished, .broken rfl, fun _ _ => nofun⟩⟩

end Programs

/-- The stages of the requests of the orchestrator. -/
def requestStages (driver : Driver) : Discipline OrchestratorIface Request Response :=
  movesDiscipline (orchestrator driver) (fun _ => Stage.start) Stage.Move Stage.ends

/-! ## The invariant -/

abbrev Staged := World OrchestratorIface Request Store (Marked Stage)

/-- The life of an event in a world. -/
def life (id : String) (a : Staged) : Life where
  status := a.store.memory.status id
  dead := a.store.memory.isDead id
  running := a.threads.countP fun t => t.body.stage.runs id
  completed := a.trace.any (completes id)
  early := early id a.trace

structure Inv (id : String) (a : Staged) : Prop where
  keyed : a.store.memory.Keyed
  owned : ∀ t ∈ a.threads, t.body.stage.Owned t.tag.event_id
  /-- A request whose flow has completed is of an event that has. -/
  ended : ∀ t ∈ a.threads, t.body.stage = .ended → a.trace.any (completes t.tag.event_id) = true
  good : (life id a).Good

section Invariant

variable {driver : Driver} {id : String} {a : Staged} {i : Nat}
  {u : Thread Request (Marked Stage)} {b : Marked Stage} {store : Store}
  {event : Event OrchestratorIface} {status : Option EventStatus} {dead : Bool}

theorem runs_owned {stage : Stage} {event_id : String} (owned : stage.Owned event_id)
    (other : event_id ≠ id) : stage.runs id = false := by
  cases stage with
  | running request record => exact decide_eq_false fun same => other (owned.1.symm.trans same)
  | _ => rfl

/-- A request turns its event: what that does to the life of the event is one of its steps, and
other events do not see it. -/
theorem Inv.turn (inv : Inv id a) (there : a.threads[i]? = some u)
    (turns : a.store.memory.Turns store.memory u.tag.event_id status dead)
    (owned : b.stage.Owned u.tag.event_id)
    (ended : b.stage = .ended → (event :: a.trace).any (completes u.tag.event_id) = true)
    (foreign : u.tag.event_id ≠ id → completes id event = false ∧ cancels id event = false)
    (own : u.tag.event_id = id → ∀ running,
      running + (if u.body.stage.runs id then 1 else 0) =
        (life id a).running + (if b.stage.runs id then 1 else 0) →
      Life.Step (life id a) ⟨status, dead, running, completes id event || (life id a).completed,
        (life id a).early || (cancels id event && !(life id a).completed)⟩) :
    Inv id (a.advance i b store event) := by
  have count := @World.countP_advance _ _ _ _ (fun s : Marked Stage => s.stage.runs id)
    a i u b store event there
  constructor
  case keyed => exact turns.keyed
  case owned =>
    intro v inside
    obtain ⟨j, found⟩ := List.getElem?_of_mem inside
    rcases World.advance_cases there found with ⟨_, rfl⟩ | ⟨_, before⟩
    · exact owned
    · exact inv.owned v (List.mem_of_getElem? before)
  case ended =>
    intro v inside stage
    obtain ⟨j, found⟩ := List.getElem?_of_mem inside
    rcases World.advance_cases there found with ⟨_, rfl⟩ | ⟨_, before⟩
    · exact ended stage
    · have completed := inv.ended v (List.mem_of_getElem? before) stage
      rw [World.advance_trace, List.any_cons, completed, Bool.or_true]
  case good =>
    by_cases mine : u.tag.event_id = id
    · refine (own mine _ count).good inv.good |> fun good => ?_
      have same : life id (a.advance i b store event) = ⟨status, dead,
          (a.advance i b store event).threads.countP fun t => t.body.stage.runs id,
          completes id event || (life id a).completed,
          (life id a).early || (cancels id event && !(life id a).completed)⟩ := by
        unfold life
        rw [World.advance_store, ← mine, turns.status, turns.dead]
        rfl
      rw [same]
      exact good
    · obtain ⟨uncompleted, uncancelled⟩ := foreign mine
      obtain ⟨sameStatus, sameDead⟩ := turns.others id (Ne.symm mine)
      have before := runs_owned (inv.owned u (List.mem_of_getElem? there)) mine
      have after := runs_owned owned mine
      rw [before, after] at count
      have same : life id (a.advance i b store event) = life id a := by
        unfold life
        rw [World.advance_store, World.advance_trace, sameStatus, sameDead, List.any_cons,
          uncompleted, Bool.false_or, early, uncancelled, Bool.false_and, Bool.or_false]
        simpa using count
      rw [same]
      exact inv.good

/-- A step that does nothing to the dictionaries. -/
theorem Inv.keep (inv : Inv id a) (there : a.threads[i]? = some u)
    (same : store.memory = a.store.memory)
    (quiet : ∀ id, completes id event = false ∧ cancels id event = false)
    (runs : b.stage.runs id = u.body.stage.runs id) (owned : b.stage.Owned u.tag.event_id)
    (ended : b.stage = .ended → a.trace.any (completes u.tag.event_id) = true) :
    Inv id (a.advance i b store event) := by
  have turns : a.store.memory.Turns store.memory u.tag.event_id
      (a.store.memory.status u.tag.event_id) (a.store.memory.isDead u.tag.event_id) := by
    rw [same]
    exact inv.keyed.refl
  refine inv.turn there turns owned (fun stage => ?_) (fun _ => quiet id)
    fun mine running count => ?_
  · rw [List.any_cons, ended stage, Bool.or_true]
  · obtain ⟨uncompleted, uncancelled⟩ := quiet id
    have unchanged : running = (life id a).running := by
      rw [runs] at count
      omega
    rw [mine, unchanged, uncompleted, uncancelled, Bool.false_or, Bool.false_and, Bool.or_false]
    exact .stay

theorem Inv.start (inv : Inv id a) (there : a.threads[i]? = some u) {request : EventRunRequest}
    {record : EventRecord} (named : request.event_id = u.tag.event_id)
    (namedRecord : record.event_id = request.event_id) (busy : record.status = .processing)
    (marked : store.memory = a.store.memory.put request.event_id record)
    (quiet : ∀ id, completes id event = false ∧ cancels id event = false)
    (idle : ∀ id, u.body.stage.runs id = false) (running : b.stage = .running request record)
    (fresh : u.tag.event_id = id → a.store.memory.IsFresh id) :
    Inv id (a.advance i b store event) := by
  have turns := inv.keyed.put_turns namedRecord
  rw [← marked, busy, named] at turns
  have owned : b.stage.Owned u.tag.event_id := by
    rw [running]
    exact ⟨named, namedRecord.trans named⟩
  refine inv.turn there turns owned (fun stage => ?_) (fun _ => quiet id)
    fun mine count bound => ?_
  · rw [running] at stage
    cases stage
  · obtain ⟨uncompleted, uncancelled⟩ := quiet id
    have runs : b.stage.runs id = true := by
      rw [running]
      exact decide_eq_true (named.trans mine)
    have one : count = (life id a).running + 1 := by
      rw [idle id, runs, if_neg Bool.false_ne_true, if_pos rfl] at bound
      exact bound
    rw [mine, one, uncompleted, uncancelled, Bool.false_or, Bool.false_and, Bool.or_false]
    exact .start (fresh mine)

/-- After the duplicate check of a request, which has answered so. -/
theorem Inv.admitted (inv : Inv id a) (there : a.threads[i]? = some u) {request : EventRunRequest}
    {allow_retry : Bool} {first : Option Admission} (named : request.event_id = u.tag.event_id)
    (quiet : ∀ id, completes id event = false ∧ cancels id event = false)
    (idle : ∀ id, u.body.stage.runs id = false)
    (stage : b.stage = .admitted request allow_retry first)
    (admits : (first = none ∧ store.memory = a.store.memory) ∨
      (∃ record, first = some (.duplicate record) ∧ allow_retry = false ∧
        store.memory = a.store.memory) ∨
      ∃ record, first = some (.started record) ∧
        store.memory = a.store.memory.put request.event_id record ∧
        record.event_id = request.event_id ∧ record.status = .processing)
    (fresh : ∀ record, first = some (.started record) → u.tag.event_id = id →
      a.store.memory.IsFresh id) :
    Inv id (a.advance i b store event) := by
  rcases admits with ⟨rfl, same⟩ | ⟨record, rfl, rfl, same⟩ | ⟨record, rfl, marked, namedRecord, busy⟩
  · refine inv.keep there same quiet ?_ ?_ fun ended => ?_
    · rw [idle id, stage]
      rfl
    · rw [stage]
      exact named
    · rw [stage] at ended
      cases ended
  · refine inv.keep there same quiet ?_ ?_ fun ended => ?_
    · rw [idle id, stage]
      rfl
    · rw [stage]
      trivial
    · rw [stage] at ended
      cases ended
  · exact inv.start there named namedRecord busy marked quiet idle stage (fresh record rfl)

/-- The record of a retry is one of the request's event. -/
theorem Inv.retried (inv : Inv id a) (there : a.threads[i]? = some u) {record : EventRecord}
    (now : String) {result : Except Failure (EventRunRequest × Option Admission)}
    (named : record.event_id = u.tag.event_id)
    (answered : a.store.memory.retry now record = (result, store.memory))
    (quiet : ∀ id, completes id event = false ∧ cancels id event = false)
    (idle : ∀ id, u.body.stage.runs id = false) (stage : b.stage = .retried result)
    (fresh : record.status = .failed → u.tag.event_id = id → a.store.memory.IsFresh id) :
    Inv id (a.advance i b store event) := by
  rcases a.store.memory.retry_cases now record with
    ⟨failure, refused⟩ | ⟨failed, request, sameEvent, retried⟩
  · rw [refused] at answered
    obtain ⟨rfl, same⟩ := Prod.mk.inj answered
    refine inv.keep there same.symm quiet ?_ ?_ fun ended => ?_
    · rw [idle id, stage]
      rfl
    · rw [stage]
      trivial
    · rw [stage] at ended
      cases ended
  · rw [retried] at answered
    obtain ⟨rfl, after⟩ := Prod.mk.inj answered
    refine inv.admitted there (sameEvent.trans named) quiet idle stage ?_
      fun _ _ => fresh failed
    rcases a.store.memory.execute_cases now request true with
      same | ⟨record, _, never⟩ | ⟨record, started, namedRecord, busy, _⟩
    · rw [same] at after ⊢
      exact .inl ⟨rfl, after.symm⟩
    · cases never
    · rw [started] at after ⊢
      exact .inr (.inr ⟨record, rfl, after.symm, namedRecord, busy⟩)

theorem Inv.cancelled (inv : Inv id a) (there : a.threads[i]? = some u)
    (turns : a.store.memory.Turns store.memory u.tag.event_id (some .cancelled)
      (a.store.memory.isDead u.tag.event_id))
    (idle : u.body.stage.runs id = false) (stage : b.stage = .finished)
    (cancel : cancels id event = decide (u.tag.event_id = id))
    (uncompleted : completes id event = false)
    (alive : u.tag.event_id = id → a.store.memory.status id ≠ some .failed) :
    Inv id (a.advance i b store event) := by
  refine inv.turn there turns ?_ (fun ended => ?_) (fun other => ⟨uncompleted, ?_⟩)
    fun mine running count => ?_
  · rw [stage]
    trivial
  · rw [stage] at ended
    cases ended
  · rw [cancel]
    exact decide_eq_false other
  · have unchanged : running = (life id a).running := by
      rw [idle, stage] at count
      exact count
    rw [cancel, decide_eq_true mine, uncompleted, Bool.false_or, Bool.true_and, unchanged, mine]
    exact .cancel (alive mine)

theorem handle_upsert {s s' : Store} {saved : EventRecord} {choice : Choice}
    {answer : OrchestratorIface.Answer (.upsert_agent_task saved)}
    (answered : handle driver (.upsert_agent_task saved) choice s = some (answer, s')) :
    s'.memory = s.memory := by
  simp only [handle] at answered
  split at answered <;> cases answered <;> rfl

theorem handle_get {s s' : Store} {task_id : String} {choice : Choice}
    {answer : OrchestratorIface.Answer (.get_agent_task task_id)}
    (answered : handle driver (.get_agent_task task_id) choice s = some (answer, s')) :
    s' = s ∧ ∀ record, answer = .ok (some record) → record.event_id = task_id := by
  simp only [handle] at answered
  split at answered
  · cases answered
    exact ⟨rfl, fun record impossible => by cases impossible⟩
  · cases answered
    refine ⟨rfl, fun record same => ?_⟩
    obtain ⟨row, found, rfl⟩ := Option.map_eq_some_iff.mp (Except.ok.inj same)
    show row.id = task_id
    simpa using List.find?_some found

theorem handle_local {s s' : Store} {o : OrchestratorOp} {choice : Choice} {e : Failure}
    (dictionaries : Stage.isLocal o = true) :
    handle driver o choice s ≠ some (.error e, s') := by
  intro answered
  cases o with
  | upsert_agent_task => cases dictionaries
  | get_agent_task => cases dictionaries
  | _ => cases answered

/-- A step of a request keeps the life of an event in order, if it fits. -/
theorem Inv.run (inv : Inv id a) (there : a.threads[i]? = some u) {o : OrchestratorOp}
    {answer : OrchestratorIface.Answer o} {choice : Choice} (fits : Fits id a.store.memory o)
    (answered : handle driver o choice a.store = some (answer, store))
    (move : Stage.Move u.tag u.body.stage o answer b.stage) :
    Inv id (a.advance i b store ⟨i, o, answer⟩) := by
  have owned := inv.owned u (List.mem_of_getElem? there)
  obtain ⟨tag, ⟨stage, outcome⟩, settled⟩ := u
  obtain ⟨stage', outcome'⟩ := b
  dsimp only at move owned
  cases move with
  | @execute request first =>
      have made : (some (Except.ok (a.store.memory.execute choice.now request false).1,
          { a.store with memory := (a.store.memory.execute choice.now request false).2 }) :
          Option (OrchestratorIface.Answer (.execute request) × Store)) =
          some (.ok first, store) := answered
      obtain ⟨result, rfl⟩ := Prod.mk.inj (Option.some.inj made)
      obtain rfl := Except.ok.inj result
      rcases a.store.memory.execute_cases choice.now request false with
        same | ⟨record, same, _⟩ | ⟨record, same, named, busy, failed⟩
      · refine inv.admitted there rfl (fun _ => ⟨rfl, rfl⟩) (fun _ => rfl) rfl
          (.inl ⟨congrArg Prod.fst same, congrArg Prod.snd same⟩) fun record started => ?_
        rw [same] at started
        cases started
      · refine inv.admitted there rfl (fun _ => ⟨rfl, rfl⟩) (fun _ => rfl) rfl
          (.inr (.inl ⟨record, congrArg Prod.fst same, rfl, congrArg Prod.snd same⟩))
          fun record started => ?_
        rw [same] at started
        cases started
      · refine inv.admitted there rfl (fun _ => ⟨rfl, rfl⟩) (fun _ => rfl) rfl
          (.inr (.inr ⟨record, congrArg Prod.fst same, congrArg Prod.snd same, named, busy⟩))
          fun _ _ mine => ?_
        have own : request.event_id = id := mine
        exact .inr (own ▸ failed rfl)
  | @reprocess event_id =>
      have made : (some (Except.ok (a.store.memory.reprocess choice.now event_id).1,
          { a.store with memory := (a.store.memory.reprocess choice.now event_id).2 }) :
          Option (OrchestratorIface.Answer (.reprocess event_id) × Store)) =
          some (.ok none, store) := answered
      obtain ⟨result, rfl⟩ := Prod.mk.inj (Option.some.inj made)
      have none := Except.ok.inj result
      refine inv.keep there ?_ (fun _ => ⟨rfl, rfl⟩) rfl trivial fun ended => by cases ended
      dsimp only
      unfold Memory.reprocess at none ⊢
      split
      · rename_i record found
        rw [found] at none
        cases none
      · rfl
  | @retried event_id result =>
      have made : (some (Except.ok (a.store.memory.reprocess choice.now event_id).1,
          { a.store with memory := (a.store.memory.reprocess choice.now event_id).2 }) :
          Option (OrchestratorIface.Answer (.reprocess event_id) × Store)) =
          some (.ok (some result), store) := answered
      obtain ⟨some', rfl⟩ := Prod.mk.inj (Option.some.inj made)
      have first := Except.ok.inj some'
      cases found : a.store.memory.dead event_id with
      | none =>
          rw [Memory.reprocess, found] at first
          cases first
      | some record =>
          have named : record.event_id = event_id := by
            obtain ⟨place, held, there⟩ := Option.bind_eq_some_iff.mp found
            obtain ⟨record', there', named⟩ := inv.keyed.dead held
            rw [there] at there'
            cases there'
            exact named
          have same : a.store.memory.reprocess choice.now event_id =
              (some (a.store.memory.retry choice.now record).1,
                (a.store.memory.retry choice.now record).2) := by
            rw [Memory.reprocess, found]
          rw [same] at first
          refine inv.retried there choice.now named ?_ (fun _ => ⟨rfl, rfl⟩)
            (fun _ => rfl) rfl fun failed mine => ?_
          · rw [same, ← Option.some.inj first]
          · have own : event_id = id := mine
            exact fits own record (own ▸ found) failed
  | look =>
      obtain ⟨rfl, named⟩ := handle_get answered
      exact inv.keep there rfl (fun _ => ⟨rfl, rfl⟩) rfl (named _ rfl) fun ended => by cases ended
  | absent =>
      obtain ⟨rfl, _⟩ := handle_get answered
      exact inv.keep there rfl (fun _ => ⟨rfl, rfl⟩) rfl trivial fun ended => by cases ended
  | unread =>
      obtain ⟨rfl, _⟩ := handle_get answered
      exact inv.keep there rfl (fun _ => ⟨rfl, rfl⟩) rfl trivial fun ended => by cases ended
  | @retry tag record result =>
      have made : (some (Except.ok (a.store.memory.retry choice.now record).1,
          { a.store with memory := (a.store.memory.retry choice.now record).2 }) :
          Option (OrchestratorIface.Answer (.retry record) × Store)) =
          some (.ok result, store) := answered
      obtain ⟨same, rfl⟩ := Prod.mk.inj (Option.some.inj made)
      obtain rfl := Except.ok.inj same
      exact inv.retried there choice.now owned rfl (fun _ => ⟨rfl, rfl⟩) (fun _ => rfl)
        rfl fun failed mine => fits (Eq.trans owned mine) failed
  | ask =>
      obtain ⟨rfl, _⟩ := handle_get answered
      exact inv.keep there rfl (fun _ => ⟨rfl, rfl⟩) rfl owned fun ended => by cases ended
  | @accept tag request allow_retry existing admission =>
      have made : (some (Except.ok
            (a.store.memory.accept choice.now request allow_retry existing).1,
          { a.store with
            memory := (a.store.memory.accept choice.now request allow_retry existing).2 }) :
          Option (OrchestratorIface.Answer (.accept request allow_retry existing) × Store)) =
          some (.ok admission, store) := answered
      obtain ⟨result, rfl⟩ := Prod.mk.inj (Option.some.inj made)
      obtain rfl := Except.ok.inj result
      rcases a.store.memory.admit_cases choice.now request allow_retry existing with
        ⟨record, same, once⟩ | ⟨record, same, named, busy, failed⟩
      · refine inv.admitted there owned (fun _ => ⟨rfl, rfl⟩) (fun _ => rfl) rfl
          (.inr (.inl ⟨record, by rw [same], once, congrArg Prod.snd same⟩))
          fun record started => ?_
        rw [same] at started
        cases started
      · refine inv.admitted there owned (fun _ => ⟨rfl, rfl⟩) (fun _ => rfl) rfl
          (.inr (.inr ⟨record, by rw [same], congrArg Prod.snd same, named, busy⟩))
          fun _ _ mine => fits (Eq.trans owned mine) ?_
        cases allow_retry with
        | true => exact .inl rfl
        | false => exact .inr (failed rfl)
  | write =>
      exact inv.keep there (handle_upsert answered) (fun _ => ⟨rfl, rfl⟩) rfl owned
        fun ended => by cases ended
  | @complete tag request record completed =>
      have made : (some (Except.ok
            (a.store.memory.finish choice.now record choice.outcome).1,
          { a.store with
            memory := (a.store.memory.finish choice.now record choice.outcome).2 }) :
          Option (OrchestratorIface.Answer (.ainvoke request record) × Store)) =
          some (.ok (.completed completed), store) := answered
      obtain ⟨result, rfl⟩ := Prod.mk.inj (Option.some.inj made)
      have is := Except.ok.inj result
      rcases inv.keyed.finish choice.now owned.2 choice.outcome with
        ⟨_, memory, same, _, turns⟩ | ⟨_, _, memory, same, _, _⟩
      · rw [same]
        refine inv.turn there turns trivial (fun _ => ?_) (fun other => ⟨?_, rfl⟩)
          fun mine running count => ?_
        · simp [completes, owned.1]
        · exact decide_eq_false fun same => other (owned.1.symm.trans same)
        · have own := Eq.trans owned.1 mine
          have runs : running + 1 = (life id a).running := by
            simpa [Stage.runs, own] using count
          refine .complete runs.symm (fits own) ?_
          simp [completes, cancels, own]
      · rw [same] at is
        cases is
  | @fail tag request record failed detail =>
      have made : (some (Except.ok
            (a.store.memory.finish choice.now record choice.outcome).1,
          { a.store with
            memory := (a.store.memory.finish choice.now record choice.outcome).2 }) :
          Option (OrchestratorIface.Answer (.ainvoke request record) × Store)) =
          some (.ok (.failed failed detail), store) := answered
      obtain ⟨result, rfl⟩ := Prod.mk.inj (Option.some.inj made)
      have is := Except.ok.inj result
      rcases inv.keyed.finish choice.now owned.2 choice.outcome with
        ⟨_, memory, same, _, _⟩ | ⟨_, _, memory, same, _, turns⟩
      · rw [same] at is
        cases is
      · rw [same]
        refine inv.turn there turns trivial (fun ended => by cases ended)
          (fun other => ⟨rfl, rfl⟩) fun mine running count => ?_
        have own := Eq.trans owned.1 mine
        have runs : running + 1 = (life id a).running := by
          simpa [Stage.runs, own] using count
        refine .fail runs.symm (fits own) ?_
        simp [completes, cancels]
  | save =>
      exact inv.keep there (handle_upsert answered) (fun _ => ⟨rfl, rfl⟩) rfl trivial
        fun ended => by cases ended
  | saveEnded =>
      exact inv.keep there (handle_upsert answered) (fun _ => ⟨rfl, rfl⟩) rfl trivial
        fun _ => inv.ended _ (List.mem_of_getElem? there) rfl
  | @pop event_id =>
      cases answered
      have completed := inv.ended _ (List.mem_of_getElem? there) rfl
      refine inv.turn there (inv.keyed.popDLQ _) trivial (fun _ => ?_) (fun _ => ⟨rfl, rfl⟩)
        fun mine running count => ?_
      · rw [List.any_cons, completed, Bool.or_true]
      · have own : event_id = id := mine
        subst own
        obtain rfl : running = (life event_id a).running := count
        have popped := Life.Step.pop (l := life event_id a) completed
        simpa [life, completes, cancels] using popped
  | @cancel event_id =>
      have made : (some (Except.ok (a.store.memory.cancel choice.now event_id).1,
          { a.store with memory := (a.store.memory.cancel choice.now event_id).2 }) :
          Option (OrchestratorIface.Answer (.cancel event_id) × Store)) =
          some (.ok none, store) := answered
      obtain ⟨result, rfl⟩ := Prod.mk.inj (Option.some.inj made)
      have none := Except.ok.inj result
      refine inv.keep there ?_ (fun _ => ⟨rfl, rfl⟩) rfl trivial fun ended => by cases ended
      rcases inv.keyed.cancel choice.now event_id with
        same | same | ⟨record, memory, same, _, _⟩
      · rw [same]
      · rw [same]
      · rw [same] at none
        cases none
  | @cancelled event_id cancellation =>
      have made : (some (Except.ok (a.store.memory.cancel choice.now event_id).1,
          { a.store with memory := (a.store.memory.cancel choice.now event_id).2 }) :
          Option (OrchestratorIface.Answer (.cancel event_id) × Store)) =
          some (.ok (some cancellation), store) := answered
      obtain ⟨result, rfl⟩ := Prod.mk.inj (Option.some.inj made)
      have first := Except.ok.inj result
      rcases inv.keyed.cancel choice.now event_id with
        same | same | ⟨record, memory, same, named, turns⟩
      · rw [same] at first
        cases first
      · rw [same] at first
        obtain rfl := Option.some.inj first
        refine inv.keep there ?_ (fun _ => ⟨rfl, rfl⟩) rfl trivial fun ended => by cases ended
        rw [same]
      · rw [same] at first ⊢
        obtain rfl := Option.some.inj first
        exact inv.cancelled there turns rfl rfl rfl rfl fun mine => fits mine
  | @cancelLoaded event_id record cancellation =>
      have made : (some (Except.ok
            (a.store.memory.cancelLoaded choice.now event_id record).1,
          { a.store with
            memory := (a.store.memory.cancelLoaded choice.now event_id record).2 }) :
          Option (OrchestratorIface.Answer (.cancelLoaded event_id record) × Store)) =
          some (.ok cancellation, store) := answered
      obtain ⟨result, rfl⟩ := Prod.mk.inj (Option.some.inj made)
      have first := Except.ok.inj result
      rcases inv.keyed.cancelLoaded choice.now owned with
        ⟨_, same⟩ | ⟨alive, record', memory, same, named, turns⟩
      · have same' : a.store.memory.cancelLoaded choice.now event_id record =
          (.completed, a.store.memory) := same
        rw [same'] at first
        subst first
        refine inv.keep there ?_ (fun _ => ⟨rfl, rfl⟩) rfl trivial fun ended => by cases ended
        rw [same']
      · have same' : a.store.memory.cancelLoaded choice.now event_id record =
          (.cancelled record', memory) := same
        rw [same'] at first ⊢
        subst first
        exact inv.cancelled there turns rfl rfl rfl rfl fun mine => fits mine alive
  | broken dictionaries => exact (handle_local dictionaries answered).elim

theorem Inv.arrive (inv : Inv id a) (request : Request) :
    Inv id (a.change (requestStages driver).start { store := a.store, spawn := [request] }) := by
  have threads : (a.change (requestStages driver).start
      { store := a.store, spawn := [request] }).threads =
      a.threads ++ [⟨request, (requestStages driver).start request, false⟩] := rfl
  have running : (life id (a.change (requestStages driver).start
      { store := a.store, spawn := [request] })).running = (life id a).running :=
    @World.countP_change _ _ _ _ (fun s : Marked Stage => s.stage.runs id) a
      (requestStages driver).start { store := a.store, spawn := [request] } rfl fun _ => rfl
  constructor
  case keyed => exact inv.keyed
  case owned =>
    intro t inside
    rw [threads] at inside
    rcases List.mem_append.mp inside with before | new
    · exact inv.owned t before
    · rw [List.mem_singleton.mp new]
      trivial
  case ended =>
    intro t inside stage
    rw [threads] at inside
    rcases List.mem_append.mp inside with before | new
    · exact inv.ended t before stage
    · rw [List.mem_singleton.mp new] at stage
      cases stage
  case good =>
    have same : life id (a.change (requestStages driver).start
        { store := a.store, spawn := [request] }) = life id a := by
      show Life.mk _ _ (life id (a.change _ _)).running _ _ = _
      rw [running]
      rfl
    rw [same]
    exact inv.good

end Invariant

instance : Inhabited Failure := ⟨.database⟩

/-! ## Runs -/

section Runs

variable {driver : Driver} {id : String}

/-- A process that has just started. -/
def started (tasks : AgentTasks) : OrchestratorState := ⟨{ agent_tasks := tasks }, [], []⟩

theorem Inv.started (tasks : AgentTasks) :
    Inv id (⟨{ agent_tasks := tasks }, [], []⟩ : Staged) :=
  ⟨Memory.Keyed.empty, fun _ inside => (List.not_mem_nil inside).elim,
    fun _ inside => (List.not_mem_nil inside).elim, Life.Good.fresh⟩

theorem requestStages_starts (tag : Request) :
    ((orchestrator driver).program tag).Follows ((requestStages driver).step tag)
      ((requestStages driver).ends tag) ((requestStages driver).start tag) :=
  (serve_follows tag).marked

/-- A program that awaits a flow of an event is at the stage that runs it. -/
theorem runs_of_inFlow {tag : Request} {p : Prog OrchestratorIface Response} {s : Marked Stage}
    (follows : p.Follows ((requestStages driver).step tag) ((requestStages driver).ends tag) s)
    (flows : inFlow id p = true) : s.stage.runs id = true := by
  cases p with
  | pure a => cases flows
  | throw e => cases flows
  | op o k =>
      cases o with
      | ainvoke request record =>
          obtain ⟨stage, outcome⟩ := s
          obtain ⟨⟨stage', outcome'⟩, ⟨_, move⟩, _⟩ := follows (.ok (.completed record))
          cases move
          exact flows
      | _ => cases flows

/-- A request at the stage that runs a flow has not ended. -/
theorem running_of_runs {tag : Request} {p : Prog OrchestratorIface Response} {s : Marked Stage}
    (follows : p.Follows ((requestStages driver).step tag) ((requestStages driver).ends tag) s)
    (runs : s.stage.runs id = true) : p.outcome = .running := by
  have never (x : Except Failure Response) (ends : Stage.ends tag x s.stage) : False := by
    cases stage : s.stage with
    | running request record => exact ends request record stage
    | _ =>
        rw [stage] at runs
        cases runs
  cases p with
  | pure a => exact (never _ follows.2).elim
  | throw e => exact (never _ follows.2).elim
  | op o k => rfl

theorem inv_of_run {tasks : AgentTasks} {w : OrchestratorState}
    (reached : (orchestrator driver).Run (Orderly id) (started tasks) w) :
    ∃ a : Staged, (requestStages driver).Refines w a ∧ Inv id a := by
  have starts : (requestStages driver).Refines (started tasks) ⟨{ agent_tasks := tasks }, [], []⟩ := by
    refine ⟨rfl, rfl, rfl, ?_⟩
    intro i t u found
    cases found
  refine System.Run.invariant requestStages_starts ?_ ?_ starts (Inv.started tasks) reached
  · intro w a i choice t o k answer store u s' inv refines orderly found pending there answered move
    refine inv.run there ?_ answered move.2
    rw [refines.store]
    exact orderly o (by rw [found, Option.bind_some, pending]; rfl)
  · intro w a event c inv refines orderly change
    cases change
    exact inv.arrive event

/-- **The life of an event is in order.** In every run whose steps for the event fit, at any
time at most one flow of it is in progress, none when one has completed; once it was cancelled
before that, it stays so; and when no request for it is in progress, it is in the dead letter
queue if and only if it has failed. -/
theorem lifecycle_kept {tasks : AgentTasks} {w : OrchestratorState}
    (reached : (orchestrator driver).Run (Orderly id) (started tasks) w) : Kept id w := by
  obtain ⟨a, refines, inv⟩ := inv_of_run reached
  have flows : (w.threads.countP fun t => inFlow id t.body) ≤ (life id a).running := by
    refine countP_le_of_places refines.length.symm fun {i t u} found there counted => ?_
    exact runs_of_inFlow (refines.follows found there).2.2 counted
  constructor
  case single => exact le_trans flows inv.good.single
  case once =>
    intro completed
    rw [← refines.trace] at completed
    have idle := (inv.good.once completed).1
    omega
  case cancelled =>
    intro early
    rw [← refines.trace] at early
    rw [← refines.store]
    exact inv.good.early early
  case dead =>
    intro quiet
    rw [← refines.store]
    refine inv.good.dead (List.countP_eq_zero.mpr fun u inside runs => ?_)
    obtain ⟨i, there⟩ := List.getElem?_of_mem inside
    obtain ⟨t, found, sameTag, _, follows⟩ := refines.thread_of_stage there
    have own : t.tag.event_id = id := by
      by_contra other
      rw [runs_owned (inv.owned u inside) (sameTag ▸ other)] at runs
      cases runs
    exact quiet t (List.mem_of_getElem? found) own (running_of_runs follows runs)

/-! ## Runs on given inputs -/

instance (memory : Memory) (id : String) : Decidable (memory.IsFresh id) :=
  inferInstanceAs (Decidable (_ ∨ _))

instance (id : String) (memory : Memory) : (o : OrchestratorOp) → Decidable (Fits id memory o)
  | .accept .. => inferInstanceAs (Decidable (_ → _ → _))
  | .reprocess _ => inferInstanceAs (Decidable (_ → ∀ record ∈ memory.dead id, _))
  | .retry _ => inferInstanceAs (Decidable (_ → _ → _))
  | .ainvoke .. => inferInstanceAs (Decidable (_ → _))
  | .cancel _ => inferInstanceAs (Decidable (_ → _))
  | .cancelLoaded .. => inferInstanceAs (Decidable (_ → _ → _))
  | .execute _ => inferInstanceAs (Decidable True)
  | .popDLQ _ => inferInstanceAs (Decidable True)
  | .upsert_agent_task _ => inferInstanceAs (Decidable True)
  | .get_agent_task _ => inferInstanceAs (Decidable True)

/-- Whether a step is orderly. -/
def isOrderly (id : String) (w : OrchestratorState) : Act Choice Request → Bool
  | .env _ => true
  | .run i _ => ((w.threads[i]?).bind (·.body.pending)).all fun o =>
      decide (Fits id w.store.memory o)

theorem isOrderly_sound (w : OrchestratorState) (act : Act Choice Request)
    (passes : isOrderly id w act = true) : Orderly id w act := by
  cases act with
  | env request => trivial
  | run i choice =>
      intro o pending
      rw [isOrderly, pending] at passes
      exact of_decide_eq_true passes

/-- A request for an event `event_001`. -/
def dealWon : EventRunRequest where
  event_id := "event_001"
  event_type := .DEAL_CLOSED_WON
  entity_id := "deal_42"
  context := []
  tenant_id := "tenant_alpha"
  event_id_min := by decide
  tenant_id_min := by decide

def plainDriver : Driver := ⟨fun _ => "null", fun text => text⟩

/-- A flow that fails, and its reprocessing, which completes. -/
def reprocessing : List (Act Choice Request) :=
  [.env (.run dealWon), .run 0 {}, .run 0 {}, .run 0 {}, .run 0 {},
    .run 0 { outcome := .error "timeout" }, .run 0 {}, .env (.reprocess "event_001"),
    .run 1 {}, .run 1 {}, .run 1 {}, .run 1 {}, .run 1 {}]

theorem reprocessed_kept : ∃ w, (orchestrator plainDriver).Run (Orderly "event_001")
    (started []) w ∧ Kept "event_001" w ∧
    w.store.memory.status "event_001" = some .completed := by
  obtain ⟨w, reached, completed⟩ := System.Run.exists_of_execute isOrderly_sound
    (show ((orchestrator plainDriver).execute (isOrderly "event_001") (started [])
      reprocessing).any (fun w => decide (w.store.memory.status "event_001" = some .completed)) =
      true by decide)
  exact ⟨w, reached, lifecycle_kept reached, of_decide_eq_true completed⟩

/-- Two requests that look for the event before either has marked it. -/
def racing : List (Act Choice Request) :=
  [.env (.run dealWon), .env (.run dealWon), .run 0 {}, .run 1 {}, .run 0 {}, .run 1 {},
    .run 0 {}, .run 1 {}, .run 0 {}, .run 1 {}]

theorem racing_not_kept : ¬∀ (driver : Driver) (id : String) (w : OrchestratorState),
    (orchestrator driver).Run (fun _ _ => True) (started []) w → Kept id w := by
  intro claimed
  have ran : ∃ w, (orchestrator plainDriver).Run (fun _ _ => True) (started []) w ∧
      decide ((w.threads.countP fun t => inFlow "event_001" t.body) = 2) = true :=
    System.Run.exists_of_execute (fun _ _ _ => trivial)
      (show ((orchestrator plainDriver).execute (fun _ _ => true) (started []) racing).any _ = true
        by decide)
  obtain ⟨w, reached, both⟩ := ran
  have single := (claimed plainDriver "event_001" w reached).single
  rw [of_decide_eq_true both] at single
  omega

end Runs

end Orchestrator
