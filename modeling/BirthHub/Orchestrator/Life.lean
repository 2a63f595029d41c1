import BirthHub.Orchestrator.Model

/-!
# The life of an event

What matters of an event is its status in `EVENT_STORE`, whether `DLQ_STORE` holds it, how many
requests have marked it and await the end of its flow, and what has happened to it: `Life`.
`Life.Step` is what one step may do to it when the requests are in order, and `Life.Good` is
kept by these steps.

`Memory.Turns` says what an operation on the dictionaries does to one event, and that it leaves
the others alone.
-/

namespace Orchestrator

open Data Effect

/-! ## Lives -/

structure Life where
  status : Option EventStatus
  dead : Bool
  /-- How many requests have marked the event, and await its flow. -/
  running : Nat
  completed : Bool
  /-- It was cancelled before a flow of it completed. -/
  early : Bool

namespace Life

inductive Step : Life → Life → Prop
  | stay {l : Life} : Step l l
  | start {l : Life} (fresh : l.status = none ∨ l.status = some .failed) :
      Step l { l with status := some .processing, running := l.running + 1 }
  | complete {l l' : Life} (runs : l.running = l'.running + 1)
      (alive : l.status ≠ some .cancelled) (turned : l' = { l with
        status := some .completed, dead := false, running := l'.running, completed := true }) :
      Step l l'
  | fail {l l' : Life} (runs : l.running = l'.running + 1)
      (alive : l.status ≠ some .cancelled) (turned : l' = { l with
        status := some .failed, dead := true, running := l'.running }) :
      Step l l'
  | cancel {l : Life} (alive : l.status ≠ some .failed) :
      Step l { l with status := some .cancelled, early := l.early || !l.completed }
  | pop {l : Life} (completed : l.completed = true) : Step l { l with dead := false }

structure Good (l : Life) : Prop where
  single : l.running ≤ 1
  busy : l.running ≠ 0 → l.status = some .processing ∨ l.status = some .cancelled
  once : l.completed = true →
    l.running = 0 ∧ (l.status = some .completed ∨ l.status = some .cancelled)
  early : l.early = true → l.status = some .cancelled
  dead : l.running = 0 → (l.dead = true ↔ l.status = some .failed)

theorem Good.fresh : Good ⟨none, false, 0, false, false⟩ := by
  constructor <;> simp

theorem Step.good {l l' : Life} (step : Step l l') (good : Good l) : Good l' := by
  cases step with
  | stay => exact good
  | start fresh =>
      have idle : l.running = 0 := by
        by_contra runs
        rcases good.busy runs with busy | busy <;> rcases fresh with new | new <;>
          rw [busy] at new <;> cases new
      have never : l.completed = false := by
        by_contra completed
        rcases (good.once (Bool.eq_true_of_not_eq_false completed)).2 with done | done <;>
          rcases fresh with new | new <;> rw [done] at new <;> cases new
      have uncancelled : l.early = false := by
        by_contra early
        rcases fresh with new | new <;>
          rw [good.early (Bool.eq_true_of_not_eq_false early)] at new <;> cases new
      constructor <;> simp [idle, never, uncancelled]
  | complete runs alive turned =>
      have single := good.single
      have uncancelled : l.early = false := by
        by_contra early
        exact alive (good.early (Bool.eq_true_of_not_eq_false early))
      have idle : l'.running = 0 := by omega
      rw [turned]
      constructor <;> simp [idle, uncancelled]
  | fail runs alive turned =>
      have single := good.single
      have uncancelled : l.early = false := by
        by_contra early
        exact alive (good.early (Bool.eq_true_of_not_eq_false early))
      have never : l.completed = false := by
        by_contra completed
        have idle := (good.once (Bool.eq_true_of_not_eq_false completed)).1
        omega
      have idle : l'.running = 0 := by omega
      rw [turned]
      constructor <;> simp [idle, uncancelled, never]
  | cancel alive =>
      refine ⟨good.single, fun _ => .inr rfl, fun completed => ⟨(good.once completed).1, .inr rfl⟩,
        fun _ => rfl, fun idle => ?_⟩
      have absent : l.dead = false := by
        by_contra dead
        exact alive ((good.dead idle).mp (Bool.eq_true_of_not_eq_false dead))
      simp [absent]
  | pop completed =>
      obtain ⟨idle, done⟩ := good.once completed
      refine ⟨good.single, good.busy, good.once, good.early, fun _ => ?_⟩
      rcases done with done | done <;> simp [done]

end Life

/-! ## The dictionaries -/

namespace Memory

/-- The records are held under their own ids. -/
structure Keyed (memory : Memory) : Prop where
  event : ∀ {id : String} {place : Nat}, memory.EVENT_STORE.get id = some place →
    ∃ record, memory.records[place]? = some record ∧ record.event_id = id
  dead : ∀ {id : String} {place : Nat}, memory.DLQ_STORE.get id = some place →
    ∃ record, memory.records[place]? = some record ∧ record.event_id = id

def status (memory : Memory) (id : String) : Option EventStatus :=
  (memory.event id).map (·.status)

def isDead (memory : Memory) (id : String) : Bool := (memory.DLQ_STORE.get id).isSome

/-- An operation leaves an event with a status, in `DLQ_STORE` or not, and the others alone. -/
structure Turns (memory memory' : Memory) (event_id : String) (status : Option EventStatus)
    (dead : Bool) : Prop where
  keyed : memory'.Keyed
  status : memory'.status event_id = status
  dead : memory'.isDead event_id = dead
  others : ∀ id, id ≠ event_id →
    memory'.status id = memory.status id ∧ memory'.isDead id = memory.isDead id

variable {memory : Memory} {now id event_id : String} {record : EventRecord}
  {request : EventRunRequest}

theorem Keyed.empty : Keyed {} := by
  constructor <;> (intro id place found; cases found)

theorem Keyed.refl (keyed : memory.Keyed) :
    memory.Turns memory event_id (memory.status event_id) (memory.isDead event_id) :=
  ⟨keyed, rfl, rfl, fun _ _ => ⟨rfl, rfl⟩⟩

theorem Turns.trans {middle last : Memory} {status status' : Option EventStatus}
    {dead dead' : Bool} (first : memory.Turns middle event_id status dead)
    (second : middle.Turns last event_id status' dead') :
    memory.Turns last event_id status' dead' :=
  ⟨second.keyed, second.status, second.dead, fun id other =>
    ⟨(second.others id other).1.trans (first.others id other).1,
      (second.others id other).2.trans (first.others id other).2⟩⟩

theorem Keyed.event_put (keyed : memory.Keyed) :
    (memory.put event_id record).event id =
      if id = event_id then some record else memory.event id := by
  unfold Memory.event Memory.put
  rw [OrderedMap.get_set]
  by_cases same : id = event_id
  · simp [same]
  · rw [if_neg same, if_neg same]
    cases found : memory.EVENT_STORE.get id with
    | none => rfl
    | some place =>
        obtain ⟨record', there, _⟩ := keyed.event found
        simp [List.getElem?_append_left (List.getElem?_eq_some_iff.mp there).1]

theorem Keyed.put (keyed : memory.Keyed) (named : record.event_id = event_id) :
    (memory.put event_id record).Keyed := by
  have stays {id : String} {place : Nat}
      (held : ∃ record, memory.records[place]? = some record ∧ record.event_id = id) :
      ∃ record', (memory.records ++ [record])[place]? = some record' ∧ record'.event_id = id := by
    obtain ⟨record', there, named'⟩ := held
    exact ⟨record', by
      rw [List.getElem?_append_left (List.getElem?_eq_some_iff.mp there).1, there], named'⟩
  constructor
  · intro id place found
    rw [Memory.put, OrderedMap.get_set] at found
    by_cases same : id = event_id
    · rw [if_pos same] at found
      cases found
      exact ⟨record, by simp [Memory.put], named.trans same.symm⟩
    · rw [if_neg same] at found
      exact stays (keyed.event found)
  · intro id place found
    exact stays (keyed.dead found)

theorem Keyed.put_turns (keyed : memory.Keyed) (named : record.event_id = event_id) :
    memory.Turns (memory.put event_id record) event_id (some record.status)
      (memory.isDead event_id) := by
  refine ⟨keyed.put named, ?_, rfl, fun id other => ⟨?_, rfl⟩⟩
  · rw [status, keyed.event_put, if_pos rfl]
    rfl
  · rw [status, keyed.event_put, if_neg other]
    rfl

theorem Keyed.popDLQ (keyed : memory.Keyed) (event_id : String) :
    memory.Turns (memory.popDLQ event_id) event_id (memory.status event_id) false := by
  refine ⟨⟨keyed.event, fun found => ?_⟩, rfl, ?_, fun id other => ⟨rfl, ?_⟩⟩
  · rw [Memory.popDLQ, OrderedMap.get_filter] at found
    exact keyed.dead (Option.filter_eq_some_iff.mp found).1
  · unfold isDead Memory.popDLQ
    rw [OrderedMap.get_filter]
    cases memory.DLQ_STORE.get event_id <;> simp
  · unfold isDead Memory.popDLQ
    rw [OrderedMap.get_filter]
    cases memory.DLQ_STORE.get id <;> simp [other]

/-- A record that is there is put in the dead letter queue under its own id. -/
theorem Keyed.pushDLQ (keyed : memory.Keyed) {place : Nat}
    (held : ∃ record, memory.records[place]? = some record ∧ record.event_id = event_id) :
    memory.Turns { memory with DLQ_STORE := memory.DLQ_STORE.set event_id place } event_id
      (memory.status event_id) true := by
  refine ⟨⟨keyed.event, fun {id _} found => ?_⟩, rfl, ?_, fun id other => ⟨rfl, ?_⟩⟩
  · rw [OrderedMap.get_set] at found
    by_cases same : id = event_id
    · rw [if_pos same] at found
      cases found
      rw [same]
      exact held
    · rw [if_neg same] at found
      exact keyed.dead found
  · simp [isDead, OrderedMap.get_set]
  · simp [isDead, OrderedMap.get_set, other]

theorem admit_cases (memory : Memory) (now : String) (request : EventRunRequest)
    (allow_retry : Bool) (existing : Option EventRecord) :
    (∃ record, memory.accept now request allow_retry existing = (.duplicate record, memory) ∧
      allow_retry = false) ∨
    ∃ record, memory.accept now request allow_retry existing =
        (.started record, memory.put request.event_id record) ∧
      record.event_id = request.event_id ∧ record.status = .processing ∧
      (allow_retry = false → ∀ before ∈ existing, before.status = .failed) := by
  unfold accept
  split
  · rename_i record found
    obtain ⟨_, passes⟩ := Option.filter_eq_some_iff.mp found
    rw [Bool.and_eq_true, Bool.not_eq_true'] at passes
    exact .inl ⟨record, rfl, passes.1⟩
  · rename_i missing
    refine .inr ⟨_, rfl, rfl, rfl, fun once before inside => ?_⟩
    rw [Option.filter_eq_none_iff] at missing
    have passes := missing before inside
    cases status : before.status <;> simp [once, status] at passes ⊢

theorem execute_cases (memory : Memory) (now : String) (request : EventRunRequest)
    (allow_retry : Bool) :
    memory.execute now request allow_retry = (none, memory) ∨
    (∃ record, memory.execute now request allow_retry = (some (.duplicate record), memory) ∧
      allow_retry = false) ∨
    ∃ record, memory.execute now request allow_retry =
        (some (.started record), memory.put request.event_id record) ∧
      record.event_id = request.event_id ∧ record.status = .processing ∧
      (allow_retry = false → memory.status request.event_id = some .failed) := by
  unfold execute
  split
  · rename_i existing found
    rcases memory.admit_cases now request allow_retry (some existing) with
      ⟨record, admitted, once⟩ | ⟨record, admitted, named, busy, fresh⟩
    · rw [admitted]
      exact .inr (.inl ⟨record, rfl, once⟩)
    · rw [admitted]
      refine .inr (.inr ⟨record, rfl, named, busy, fun once => ?_⟩)
      rw [status, found, Option.map_some, fresh once existing rfl]
  · exact .inl rfl

/-- A record that is retried had failed, and its request is for the same event. -/
theorem retry_cases (memory : Memory) (now : String) (record : EventRecord) :
    (∃ failure, memory.retry now record = (.error failure, memory)) ∨
    (record.status = .failed ∧ ∃ request : EventRunRequest,
      request.event_id = record.event_id ∧
      memory.retry now record = (.ok (request, (memory.execute now request true).1),
        (memory.execute now request true).2)) := by
  unfold retry
  split
  · exact .inl ⟨_, rfl⟩
  · rename_i failed
    split
    · exact .inl ⟨_, rfl⟩
    · split
      · exact .inl ⟨_, rfl⟩
      · rename_i request valid
        refine .inr ⟨not_not.mp failed, request, ?_, rfl⟩
        unfold EventRunRequest.validate at valid
        split at valid
        · split_ifs at valid
          cases valid
          rfl
        · cases valid

theorem Keyed.finish (keyed : memory.Keyed) (now : String) (named : record.event_id = event_id)
    (outcome : Except String Dict) :
    (∃ completed memory', memory.finish now record outcome = (.completed completed, memory') ∧
      completed.event_id = event_id ∧ memory.Turns memory' event_id (some .completed) false) ∨
    ∃ failed detail memory', memory.finish now record outcome = (.failed failed detail, memory') ∧
      failed.event_id = event_id ∧ memory.Turns memory' event_id (some .failed) true := by
  subst named
  cases outcome with
  | ok result =>
      let completed : EventRecord := { record with
        status := .completed, result := some (.dict result), updated_at := now }
      have put : memory.Turns (memory.put record.event_id completed) record.event_id
        (some .completed) (memory.isDead record.event_id) := keyed.put_turns rfl
      have popped := put.keyed.popDLQ record.event_id
      rw [put.status] at popped
      exact .inl ⟨completed, _, rfl, rfl, put.trans popped⟩
  | error detail =>
      let failed : EventRecord := { record with
        status := .failed, result := some (.dict [("error", .string detail)]), updated_at := now }
      have put : memory.Turns (memory.put record.event_id failed) record.event_id
        (some .failed) (memory.isDead record.event_id) := keyed.put_turns rfl
      have last : (memory.put record.event_id failed).records[memory.records.length]? =
          some failed := by simp [Memory.put]
      have pushed := put.keyed.pushDLQ ⟨failed, last, rfl⟩
      rw [put.status] at pushed
      exact .inr ⟨failed, detail, _, rfl, rfl, put.trans pushed⟩

/-- A status that is assigned to the record of an event is that of no other. -/
theorem Keyed.assign (keyed : memory.Keyed) {place : Nat} (now : String) (status : EventStatus)
    (found : memory.EVENT_STORE.get event_id = some place)
    (held : memory.records[place]? = some record) (named : record.event_id = event_id) :
    memory.Turns { memory with
      records := memory.records.set place { record with status, updated_at := now }
      EVENT_STORE := memory.EVENT_STORE.set event_id place } event_id (some status)
      (memory.isDead event_id) := by
  have bound := (List.getElem?_eq_some_iff.mp held).1
  have stays {id : String} {place' : Nat}
      (there : ∃ record, memory.records[place']? = some record ∧ record.event_id = id) :
      ∃ record', (memory.records.set place { record with status, updated_at := now })[place']? =
        some record' ∧ record'.event_id = id := by
    obtain ⟨record', there, named'⟩ := there
    rw [List.getElem?_set]
    by_cases same : place = place'
    · subst same
      rw [held] at there
      cases there
      exact ⟨{ record with status, updated_at := now }, by simp [bound], named'⟩
    · exact ⟨record', by simp [same, there], named'⟩
  have get {id : String} : (memory.EVENT_STORE.set event_id place).get id =
      memory.EVENT_STORE.get id := by
    rw [OrderedMap.get_set]
    split
    · rename_i same
      rw [same, found]
    · rfl
  refine ⟨⟨fun found' => ?_, fun found' => stays (keyed.dead found')⟩, ?_, rfl,
    fun id other => ⟨?_, rfl⟩⟩
  · rw [get] at found'
    exact stays (keyed.event found')
  · simp [Memory.status, Memory.event, get, found, bound]
  · unfold Memory.status Memory.event
    dsimp only
    rw [get]
    cases found' : memory.EVENT_STORE.get id with
    | none => rfl
    | some place' =>
        obtain ⟨record', there, named'⟩ := keyed.event found'
        have apart : place ≠ place' := by
          rintro rfl
          rw [held] at there
          cases there
          exact other (named'.symm.trans named)
        simp [List.getElem?_set_ne apart]

theorem Keyed.cancel (keyed : memory.Keyed) (now event_id : String) :
    memory.cancel now event_id = (none, memory) ∨
    memory.cancel now event_id = (some .completed, memory) ∨
    ∃ record memory', memory.cancel now event_id = (some (.cancelled record), memory') ∧
      record.event_id = event_id ∧
      memory.Turns memory' event_id (some .cancelled) (memory.isDead event_id) := by
  unfold Memory.cancel
  split
  · rename_i place before found there
    split
    · exact .inr (.inl rfl)
    · obtain ⟨record, held, named⟩ := keyed.event found
      have same : before = record := by
        rw [Memory.event, found, Option.bind_some, held] at there
        exact (Option.some.inj there).symm
      subst same
      have assigned := keyed.assign now .cancelled found held named
      exact .inr (.inr ⟨_, _, rfl, named, assigned⟩)
  · exact .inl rfl

theorem Keyed.cancelLoaded (keyed : memory.Keyed) (now : String) (named : record.event_id = event_id) :
    (record.status = .completed ∧
      memory.cancelLoaded now event_id record = (.completed, memory)) ∨
    record.status ≠ .completed ∧ ∃ record' memory',
      memory.cancelLoaded now event_id record = (.cancelled record', memory') ∧
      record'.event_id = event_id ∧
      memory.Turns memory' event_id (some .cancelled) (memory.isDead event_id) := by
  unfold Memory.cancelLoaded
  split
  · rename_i completed
    exact .inl ⟨completed, rfl⟩
  · rename_i open'
    have named' : ({ record with status := .cancelled, updated_at := now } :
      EventRecord).event_id = event_id := named
    exact .inr ⟨open', _, _, rfl, named', keyed.put_turns named'⟩

end Memory

end Orchestrator
