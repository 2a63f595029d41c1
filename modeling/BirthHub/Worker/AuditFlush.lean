import BirthHub.Data.Json
import BirthHub.Effect.System

/-!
# Buffered audit events

`apps/worker/src/jobs/auditFlush.ts` keeps audit events in a buffer of the process. A flush takes
up to 100 of them out of the buffer at one time, and then awaits that they are stored, while new
events are buffered and other flushes start. What was taken stays out of the buffer when it could
not be stored.
-/

namespace Worker

open Data Effect

/-! ## Flushes -/

/-- What a flush does: it takes events out of the buffer, and stores them. -/
inductive AuditOp (ε : Type)
  | splice (count : Nat)
  | createMany (data : List ε)

def AuditIface (ε : Type) : Iface where
  Op := AuditOp ε
  Res
    | .splice _ => List ε
    | .createMany _ => Unit
  Err := Thrown

instance {ε : Type} : Inhabited (AuditIface ε).Err := inferInstanceAs (Inhabited Thrown)

section Programs

variable {ε : Type}

/-- The part of a flush after its `splice`. -/
def store (batch : List ε) : Prog (AuditIface ε) Nat := do
  Prog.perform (I := AuditIface ε) (.createMany batch)
  return batch.length

/-- `flushBufferedAuditEvents`; nothing is awaited between the test of the length and the
`splice`. -/
def flushBufferedAuditEvents : Prog (AuditIface ε) Nat := do
  let batch ← Prog.perform (I := AuditIface ε) (.splice 100)
  if batch.isEmpty then return 0
  store batch

end Programs

/-! ## The process -/

/-- The buffer, what was stored by each `createMany`, and all events that were ever buffered. -/
structure Process (ε : Type) where
  auditBuffer : List ε := []
  auditLog : List (List ε) := []
  events : List ε := []

def bufferAuditEvent {ε : Type} (event : ε) (process : Process ε) : Process ε :=
  { process with
    auditBuffer := process.auditBuffer ++ [event]
    events := process.events ++ [event] }

inductive AuditEnv (ε : Type)
  | buffer (event : ε)
  | flush

/-- Events are buffered and flushes are started at any time; `createMany` stores the whole batch,
or fails. -/
def auditing (ε : Type) : System (AuditIface ε) Unit (Process ε) Nat where
  Choice := Option Thrown
  handle
    | .splice count, _, process => some (.ok (process.auditBuffer.take count),
        { process with auditBuffer := process.auditBuffer.drop count })
    | .createMany data, none, process =>
        some (.ok (), { process with auditLog := process.auditLog ++ [data] })
    | .createMany _, some e, process => some (.error e, process)
  program _ := flushBufferedAuditEvents
  Env := AuditEnv ε
  env
    | .buffer event, process, _ => some { store := bufferAuditEvent event process }
    | .flush, process, _ => some { store := process, spawn := [()] }

abbrev AuditWorld (ε : Type) : Type := World (AuditIface ε) Unit (Process ε) (Prog (AuditIface ε) Nat)

variable {ε : Type}

/-- The batch that a flush is writing. -/
def batchOf : Prog (AuditIface ε) Nat → Option (List ε)
  | .op (.createMany data) _ => some data
  | _ => none

/-- The batches that are being written. -/
def writing (w : AuditWorld ε) : List (List ε) := w.threads.filterMap fun t => batchOf t.body

/-- The batch of a `createMany` that failed. -/
def failedBatch : Event (AuditIface ε) → Option (List ε)
  | ⟨_, .createMany data, .error _⟩ => some data
  | _ => none

def failed (w : AuditWorld ε) : List (List ε) := w.trace.filterMap failedBatch

/-- Each event that was buffered is still in the buffer, is being written or is stored, once; and
what is written or stored together is a run of events as they were buffered. -/
def Conserved (w : AuditWorld ε) : Prop :=
  ∃ batches : List (List ε), w.store.events = batches.flatten ++ w.store.auditBuffer ∧
    batches.Perm (w.store.auditLog ++ writing w)

def started : AuditWorld ε := { store := {}, threads := [], trace := [] }

/-! ## The books of the process -/

/-- The process with the batches being written and those that could not be. -/
structure Books (ε : Type) where
  process : Process ε
  writing : List (List ε)
  failed : List (List ε)

def booksOf (w : AuditWorld ε) : Books ε := ⟨w.store, writing w, failed w⟩

/-- What one step of the process can do. -/
inductive Books.Step : Books ε → Books ε → Prop
  | idle {b : Books ε} : Step b b
  | buffered {b : Books ε} (event : ε) : Step b { b with process := bufferAuditEvent event b.process }
  | taken {b : Books ε} {before after : List (List ε)} (some : b.process.auditBuffer ≠ [])
      (split : b.writing = before ++ after) :
      Step b { b with
        process := { b.process with auditBuffer := b.process.auditBuffer.drop 100 }
        writing := before ++ b.process.auditBuffer.take 100 :: after }
  | stored {b : Books ε} {before after : List (List ε)} {data : List ε}
      (split : b.writing = before ++ data :: after) :
      Step b { b with
        process := { b.process with auditLog := b.process.auditLog ++ [data] }
        writing := before ++ after }
  | failed {b : Books ε} {before after : List (List ε)} {data : List ε}
      (split : b.writing = before ++ data :: after) :
      Step b { b with
        writing := before ++ after
        failed := data :: b.failed }

/-- A thread at one of the places of a flush. -/
inductive IsFlush : Prog (AuditIface ε) Nat → Prop
  | begun : IsFlush flushBufferedAuditEvents
  | storing (batch : List ε) : IsFlush (store batch)
  | returned (count : Nat) : IsFlush (.pure count)
  | threw (e : Thrown) : IsFlush (.throw e)

section Steps

variable {w w' : AuditWorld ε}

theorem writing_advance {i : Nat} {t : Thread Unit (Prog (AuditIface ε) Nat)}
    (found : w.threads[i]? = some t) :
    ∃ before after, writing w = before ++ (batchOf t.body).toList ++ after ∧
      ∀ p process event,
        writing (w.advance i p process event) = before ++ (batchOf p).toList ++ after := by
  have bound := (List.getElem?_eq_some_iff.mp found).1
  have taken := (List.getElem?_eq_some_iff.mp found).2
  have split : w.threads = w.threads.take i ++ t :: w.threads.drop (i + 1) := by
    rw [← taken, List.cons_getElem_drop_succ, List.take_append_drop]
  refine ⟨(w.threads.take i).filterMap fun t => batchOf t.body,
    (w.threads.drop (i + 1)).filterMap fun t => batchOf t.body, ?_, fun p process event => ?_⟩
  · rw [writing]
    conv_lhs => rw [split]
    rw [List.filterMap_append, List.filterMap_cons]
    cases batchOf t.body <;> simp
  · rw [writing, World.advance, List.modify_eq_take_cons_drop bound, List.filterMap_append,
      List.filterMap_cons]
    cases batchOf p <;> simp

/-- Every step of the process is a step of its books. -/
theorem booksOf_step {act : Act (Option Thrown) (AuditEnv ε)}
    (flushes : ∀ t ∈ w.threads, IsFlush t.body) (taken : (auditing ε).step w act = some w') :
    Books.Step (booksOf w) (booksOf w') ∧ ∀ t ∈ w'.threads, IsFlush t.body := by
  cases act with
  | env event =>
      obtain ⟨c, allowed, rfl⟩ := System.step_env taken
      cases event with
      | buffer event =>
          cases allowed
          have same : (w.change (auditing ε).program
              { store := bufferAuditEvent event w.store }).threads = w.threads := by
            simp [World.change]
          refine ⟨?_, same ▸ flushes⟩
          unfold booksOf writing
          rw [same]
          exact .buffered event
      | flush =>
          cases allowed
          have more : (w.change (auditing ε).program { store := w.store, spawn := [()] }).threads =
              w.threads ++ [⟨(), flushBufferedAuditEvents, false⟩] := rfl
          refine ⟨?_, fun t inside => ?_⟩
          · have idle : [(⟨(), flushBufferedAuditEvents, false⟩ : Thread Unit _)].filterMap
                (fun t => batchOf (ε := ε) t.body) = [] := rfl
            unfold booksOf writing
            rw [more, List.filterMap_append, idle, List.append_nil]
            exact .idle
          · rw [more, List.mem_append, List.mem_singleton] at inside
            rcases inside with old | rfl
            · exact flushes t old
            · exact .begun
  | run i choice =>
      obtain ⟨t, o, k, answer, process, found, pending, answered, rfl⟩ := System.step_run taken
      have own := flushes t (List.mem_of_getElem? found)
      have kept {p : Prog (AuditIface ε) Nat} {process : Process ε} {event : Event (AuditIface ε)}
          (flush : IsFlush p) : ∀ u ∈ (w.advance i p process event).threads, IsFlush u.body := by
        intro u inside
        obtain ⟨j, there⟩ := List.mem_iff_getElem?.mp inside
        rcases World.advance_cases found there with ⟨_, rfl⟩ | ⟨_, old⟩
        · exact flush
        · exact flushes u (List.mem_of_getElem? old)
      generalize body : t.body = p at own pending
      cases own with
      | begun =>
          change Prog.op (I := AuditIface ε) (.splice 100) _ = Prog.op o k at pending
          cases pending
          cases answered
          obtain ⟨before, after, was, becomes⟩ := writing_advance found
          rw [body] at was
          have split : writing w = before ++ after := by
            rw [was]
            exact congrArg (· ++ after) (List.append_nil before)
          cases buffer : w.store.auditBuffer with
          | nil =>
              refine ⟨?_, kept (.returned 0)⟩
              have process : (⟨[], w.store.auditLog, w.store.events⟩ : Process ε) = w.store := by
                rw [← buffer]
              have idle : before ++ (batchOf (.pure 0 : Prog (AuditIface ε) Nat)).toList ++ after =
                  writing w := was.symm
              change Books.Step (booksOf w) ⟨⟨[], w.store.auditLog, w.store.events⟩,
                writing (w.advance i (.pure 0) _ _), failed w⟩
              rw [becomes, process, idle]
              exact .idle
          | cons event events =>
              refine ⟨?_, kept (.storing ((event :: events).take 100))⟩
              change Books.Step (booksOf w) ⟨{ w.store with
                auditBuffer := (event :: events).drop 100 }, writing (w.advance i
                  (store ((event :: events).take 100)) _ _), failed w⟩
              rw [becomes, List.append_assoc, ← buffer]
              exact .taken (by rw [booksOf, buffer]; exact List.cons_ne_nil _ _) split
      | storing batch =>
          change Prog.op (I := AuditIface ε) (.createMany batch) _ = Prog.op o k at pending
          cases pending
          obtain ⟨before, after, was, becomes⟩ := writing_advance found
          rw [body] at was
          have split : writing w = before ++ batch :: after := by
            rw [was, List.append_assoc]
            rfl
          cases choice with
          | none =>
              cases answered
              refine ⟨?_, kept (.returned batch.length)⟩
              change Books.Step (booksOf w) ⟨{ w.store with auditLog := w.store.auditLog ++ [batch] },
                writing (w.advance i (.pure batch.length) _ _), failed w⟩
              rw [becomes, List.append_assoc]
              exact .stored split
          | some e =>
              cases answered
              refine ⟨?_, kept (.threw e)⟩
              change Books.Step (booksOf w) ⟨w.store, writing (w.advance i (.throw e) _ _),
                batch :: failed w⟩
              rw [becomes, List.append_assoc]
              exact .failed split
      | returned count => cases pending
      | threw e => cases pending

end Steps

/-! ## What the books account for -/

/-- The batches in the order in which they were taken. -/
structure Books.Accounts (b : Books ε) (batches : List (List ε)) : Prop where
  events : b.process.events = batches.flatten ++ b.process.auditBuffer
  batches : batches.Perm (b.process.auditLog ++ b.writing ++ b.failed)
  written : ∀ batch ∈ b.writing, batch ≠ []
  failed : ∀ batch ∈ b.failed, batch ≠ []

/-- While at most one batch is written at a time and none fails, they are stored in that order. -/
structure Books.InOrder (b : Books ε) : Prop where
  alone : b.writing.length ≤ 1
  events : b.failed = [] →
    b.process.events = (b.process.auditLog ++ b.writing).flatten ++ b.process.auditBuffer

section Books

variable {b b' : Books ε} {batches : List (List ε)}

theorem Books.Accounts.step (accounts : b.Accounts batches) (taken : Books.Step b b') :
    ∃ batches, b'.Accounts batches := by
  obtain ⟨events, same, written, failed⟩ := accounts
  cases taken with
  | idle => exact ⟨batches, events, same, written, failed⟩
  | buffered event =>
      refine ⟨batches, ?_, same, written, failed⟩
      change b.process.events ++ [event] = batches.flatten ++ (b.process.auditBuffer ++ [event])
      rw [events, List.append_assoc]
  | @taken before after some split =>
      refine ⟨batches ++ [b.process.auditBuffer.take 100], ?_, ?_, ?_, failed⟩
      · change b.process.events = _ ++ b.process.auditBuffer.drop 100
        rw [List.flatten_concat, List.append_assoc, List.take_append_drop, events]
      · change (batches ++ [b.process.auditBuffer.take 100]).Perm (b.process.auditLog ++
          (before ++ b.process.auditBuffer.take 100 :: after) ++ b.failed)
        rw [split] at same
        refine List.perm_append_comm.trans ((same.cons _).trans ?_)
        simp only [List.append_assoc, List.cons_append]
        rw [← List.append_assoc, ← List.append_assoc b.process.auditLog before]
        exact List.perm_middle.symm
      · intro batch inside
        rcases List.mem_append.mp inside with early | late
        · exact written batch (split ▸ List.mem_append_left _ early)
        · rcases List.mem_cons.mp late with rfl | late
          · intro nothing
            rw [List.take_eq_nil_iff] at nothing
            rcases nothing with zero | empty
            · cases zero
            · exact some empty
          · exact written batch (split ▸ List.mem_append_right _ late)
  | @stored before after data split =>
      refine ⟨batches, events, same.trans ?_, fun batch inside => ?_, failed⟩
      · rw [split]
        simp only [List.append_assoc, List.cons_append, List.nil_append]
        exact List.Perm.append_left _ List.perm_middle
      · rw [split] at written
        exact written batch (((List.sublist_cons_self data after).append_left before).mem inside)
  | @failed before after data split =>
      rw [split] at written same
      refine ⟨batches, events, same.trans ?_, fun batch inside => ?_, fun batch inside => ?_⟩
      · simp only [List.append_assoc, List.cons_append]
        refine List.Perm.append_left _ (List.Perm.append_left before ?_)
        exact List.perm_middle.symm
      · exact written batch (((List.sublist_cons_self data after).append_left before).mem inside)
      · rcases List.mem_cons.mp inside with rfl | old
        · exact written batch (List.mem_append_right _ List.mem_cons_self)
        · exact failed batch old

theorem Books.InOrder.step (order : b.InOrder) (taken : Books.Step b b')
    (alone : b'.writing.length ≤ 1) : b'.InOrder := by
  obtain ⟨before, events⟩ := order
  refine ⟨alone, ?_⟩
  cases taken with
  | idle => exact events
  | buffered event =>
      intro none
      change b.process.events ++ [event] = (b.process.auditLog ++ b.writing).flatten ++
        (b.process.auditBuffer ++ [event])
      rw [events none, List.append_assoc]
  | @taken first last some split =>
      intro none
      change (first ++ b.process.auditBuffer.take 100 :: last).length ≤ 1 at alone
      rw [List.length_append, List.length_cons] at alone
      have noFirst : first = [] := List.length_eq_zero_iff.mp (by omega)
      have noLast : last = [] := List.length_eq_zero_iff.mp (by omega)
      have own := events none
      rw [split, noFirst, noLast, List.append_nil, List.append_nil] at own
      change b.process.events = (b.process.auditLog ++
        (first ++ b.process.auditBuffer.take 100 :: last)).flatten ++ b.process.auditBuffer.drop 100
      rw [own, noFirst, noLast, List.nil_append, List.flatten_concat, List.append_assoc,
        List.take_append_drop]
  | @stored first last data split =>
      intro none
      rw [split, List.length_append, List.length_cons] at before
      have noFirst : first = [] := List.length_eq_zero_iff.mp (by omega)
      have noLast : last = [] := List.length_eq_zero_iff.mp (by omega)
      have own := events none
      rw [split] at own
      change b.process.events = ((b.process.auditLog ++ [data]) ++ (first ++ last)).flatten ++ _
      rw [own, noFirst, noLast, List.nil_append, List.append_nil, List.append_nil]
  | failed split => exact nofun

end Books

/-! ## Runs -/

section Runs

variable {w : AuditWorld ε} {guard : AuditWorld ε → Act (Option Thrown) (AuditEnv ε) → Prop}

theorem accounts_of_run (ran : (auditing ε).Run guard started w) :
    (∀ t ∈ w.threads, IsFlush t.body) ∧ ∃ batches, (booksOf w).Accounts batches := by
  induction ran with
  | refl => exact ⟨nofun, [], rfl, .refl _, nofun, nofun⟩
  | step before allowed taken ih =>
      obtain ⟨flushes, batches, accounts⟩ := ih
      obtain ⟨moved, flushes'⟩ := booksOf_step flushes taken
      exact ⟨flushes', accounts.step moved⟩

/-- Nothing is missing but the batches that failed. -/
theorem conserved_iff (ran : (auditing ε).Run guard started w) : Conserved w ↔ failed w = [] := by
  obtain ⟨batches, accounts⟩ := (accounts_of_run ran).2
  have events : w.store.events = batches.flatten ++ w.store.auditBuffer := accounts.events
  have all : batches.Perm (w.store.auditLog ++ writing w ++ failed w) := accounts.batches
  constructor
  · rintro ⟨batches', events', kept⟩
    have sizes := congrArg List.length (events.symm.trans events')
    have whole := all.flatten.length_eq
    have parts := kept.flatten.length_eq
    rw [List.flatten_append, List.length_append] at whole
    rw [List.length_append, List.length_append] at sizes
    have nothing : (failed w).flatten = [] := List.length_eq_zero_iff.mp (by omega)
    refine List.eq_nil_iff_forall_not_mem.mpr fun batch inside => ?_
    exact accounts.failed batch inside (List.flatten_eq_nil_iff.mp nothing batch inside)
  · intro none
    rw [none, List.append_nil] at all
    exact ⟨batches, events, all⟩

/-- Another flush writes only after the one before has ended. -/
def Alone (w : AuditWorld ε) (act : Act (Option Thrown) (AuditEnv ε)) : Prop :=
  ∀ w', (auditing ε).step w act = some w' → (writing w').length ≤ 1

theorem inOrder_of_run (alone : ∀ w act, guard w act → Alone w act)
    (ran : (auditing ε).Run guard started w) : (booksOf w).InOrder := by
  induction ran with
  | refl => exact ⟨Nat.zero_le 1, fun _ => rfl⟩
  | step before allowed taken ih =>
      exact ih.step (booksOf_step (accounts_of_run before).1 taken).1 (alone _ _ allowed _ taken)

end Runs

/-- **When audit events are conserved.** At any time of any run, just when no batch could not be
stored so far; and if batches are written one after another, the events are then stored in the
order in which they were buffered. -/
theorem auditEvents_conserved {ε : Type} {w : AuditWorld ε}
    {guard : AuditWorld ε → Act (Option Thrown) (AuditEnv ε) → Prop}
    (ran : (auditing ε).Run guard started w) :
    (Conserved w ↔ failed w = []) ∧
      ((∀ w act, guard w act → Alone w act) → failed w = [] →
        w.store.events = (w.store.auditLog ++ writing w).flatten ++ w.store.auditBuffer) :=
  ⟨conserved_iff ran, fun alone => (inOrder_of_run alone ran).events⟩

/-- An event is buffered, and another while the first is being written. -/
def twoEvents (fault : Option Thrown) : List (Act (Option Thrown) (AuditEnv Nat)) :=
  [.env (.buffer 7), .env .flush, .run 0 none, .env (.buffer 8), .run 0 fault]

def aloneTest (w : AuditWorld Nat) (act : Act (Option Thrown) (AuditEnv Nat)) : Bool :=
  ((auditing Nat).step w act).all fun w' => decide ((writing w').length ≤ 1)

theorem aloneTest_sound (w : AuditWorld Nat) (act : Act (Option Thrown) (AuditEnv Nat))
    (passes : aloneTest w act = true) : Alone w act := by
  intro w' taken
  rw [aloneTest, taken] at passes
  exact of_decide_eq_true passes

theorem twoEvents_conserved : ∃ w : AuditWorld Nat,
    w.store.auditLog = [[7]] ∧ (Conserved w ↔ failed w = []) ∧
      w.store.events = (w.store.auditLog ++ writing w).flatten ++ w.store.auditBuffer := by
  have ends : (((auditing Nat).execute aloneTest started (twoEvents none)).any fun w =>
      decide (w.store.auditLog = [[7]] ∧ failed w = [])) = true := by decide
  obtain ⟨w, ran, holds⟩ := System.Run.exists_of_execute aloneTest_sound ends
  obtain ⟨stored, none⟩ := of_decide_eq_true holds
  obtain ⟨conserved, ordered⟩ := auditEvents_conserved ran
  exact ⟨w, stored, conserved, ordered (fun _ _ alone => alone) none⟩

/-- The first event is lost when it could not be stored. -/
theorem failedFlush_loses : ∃ w : AuditWorld Nat,
    (auditing Nat).Run (fun _ _ => True) started w ∧ ¬Conserved w := by
  have ends : (((auditing Nat).execute (fun _ _ => true) started
      (twoEvents (some (error "connection lost")))).any fun w =>
        decide (failed w ≠ [])) = true := by decide
  obtain ⟨w, ran, holds⟩ := System.Run.exists_of_execute (fun _ _ _ => trivial) ends
  exact ⟨w, ran, fun conserved => of_decide_eq_true holds ((conserved_iff ran).mp conserved)⟩

end Worker
