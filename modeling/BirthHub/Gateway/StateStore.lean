import BirthHub.Data.JsonText
import BirthHub.Data.WriteBehind
import BirthHub.Effect.Moves

/-!
# The state store of the gateway

`InternalStateStore` of `apps/api-gateway/src/routes/internal-state-store.ts`. The first call loads
the file into the cache; a set call makes a new snapshot from the one it was given, puts it into the
cache and queues the writing of the file. Of a file the model keeps what `JSON.parse` makes of its
text; the text of a snapshot is parsed to the snapshot.
-/

namespace StateStore

open Data Effect

/-! ## Snapshots -/

inductive SupportedPlan
  | STARTER
  | PRO
  | ENTERPRISE

def SupportedPlan.text : SupportedPlan → String
  | STARTER => "STARTER"
  | PRO => "PRO"
  | ENTERPRISE => "ENTERPRISE"

/-- What a spread in an object copies. -/
def spread : Value → List (String × Value)
  | .object members => members
  | .array items => items.zipIdx.map fun e => (toString e.2, e.1)
  | .string s => s.toList.zipIdx.map fun e => (toString e.2, .string (.singleton e.1))
  | _ => []

/-- Set a property: one that is there keeps its place. -/
def setMember (key : String) (value : Value) : List (String × Value) → List (String × Value)
  | [] => [(key, value)]
  | e :: members => if e.1 = key then (key, value) :: members else e :: setMember key value members

/-- The fields are what the file has, which need not be records. -/
structure Snapshot where
  activityStatus : Value
  organizationPlans : Value

def createEmptySnapshot : Snapshot := ⟨.object [], .object []⟩

/-- A field of the file, `?? {}`. -/
def fieldOf (members : List (String × Value)) (name : String) : Value :=
  match members.lookup name with
  | none | some .null => .object []
  | some value => value

/-- The contents of a file: what its text is parsed to, unless parsing fails. -/
abbrev Contents := Option Value

/-- The `try` of `loadSnapshot` after the file is read. What is not JSON and `null` end up in the
`catch`; what else is not an object has no fields. -/
def parseSnapshot : Contents → Snapshot
  | some (.object members) =>
      ⟨fieldOf members "activityStatus", fieldOf members "organizationPlans"⟩
  | _ => createEmptySnapshot

/-- What `JSON.stringify(snapshot, null, 2)` is parsed to. -/
def Snapshot.contents (snapshot : Snapshot) : Contents :=
  some (.object [("activityStatus", snapshot.activityStatus),
    ("organizationPlans", snapshot.organizationPlans)])

inductive Key
  | plan (organizationId : String)
  | status (activityId : String)
deriving DecidableEq

def Snapshot.get (snapshot : Snapshot) : Key → Option Value
  | .plan organizationId => (spread snapshot.organizationPlans).lookup organizationId
  | .status activityId => (spread snapshot.activityStatus).lookup activityId

/-- The snapshot with which a set call replaces the one that it was given. -/
def Snapshot.set (snapshot : Snapshot) (value : Value) : Key → Snapshot
  | .plan organizationId =>
      let members := setMember organizationId value (spread snapshot.organizationPlans)
      { snapshot with organizationPlans := .object members }
  | .status activityId =>
      let members := setMember activityId value (spread snapshot.activityStatus)
      { snapshot with activityStatus := .object members }

/-! ## The calls -/

/-- The steps of the calls between two awaits, and the operations on files. A write of the file is
known by its place in the queue. -/
inductive StoreOp
  | cached
  | readFile
  | install (snapshot : Snapshot)
  | persist (snapshot : Snapshot)
  | turn (n : Nat)
  | mkdir (n : Nat)
  | writeFile (n : Nat) (contents : Contents)
  | rename (n : Nat)

abbrev StoreOp.Result : StoreOp → Type
  | .cached => Option Snapshot
  | .readFile => Contents
  | .persist _ => Nat
  | .install _ | .turn _ | .mkdir _ | .writeFile .. | .rename _ => Unit

abbrev StoreIface : Iface where
  Op := StoreOp
  Res := StoreOp.Result
  Err := Thrown

def await (o : StoreOp) : Prog StoreIface o.Result := Prog.perform (I := StoreIface) o

def loadSnapshot : Prog StoreIface Snapshot := do
  let cache : Option Snapshot ← await .cached
  match cache with
  | some snapshot => pure snapshot
  | none => do
      let snapshot : Snapshot ← Prog.tryCatch
        (do
          let contents : Contents ← await .readFile
          pure (parseSnapshot contents))
        fun _ => pure createEmptySnapshot
      await (.install snapshot)
      pure snapshot

def persistSnapshot (snapshot : Snapshot) : Prog StoreIface Unit := do
  let n : Nat ← await (.persist snapshot)
  await (.turn n)
  await (.mkdir n)
  await (.writeFile n snapshot.contents)
  await (.rename n)

def setKey (key : Key) (value : Value) : Prog StoreIface (Option Value) := do
  let snapshot : Snapshot ← loadSnapshot
  persistSnapshot (snapshot.set value key)
  pure (some value)

def getKey (key : Key) : Prog StoreIface (Option Value) := do
  let snapshot : Snapshot ← loadSnapshot
  pure (snapshot.get key)

inductive Call
  | setOrganizationPlan (organizationId : String) (plan : SupportedPlan)
  | setActivityStatus (activityId status : String)
  | getOrganizationPlan (organizationId : String)
  | getActivityStatus (activityId : String)

/-- What a call sets. -/
def Call.write : Call → Option (Key × Value)
  | setOrganizationPlan organizationId plan => some (.plan organizationId, .string plan.text)
  | setActivityStatus activityId status => some (.status activityId, .string status)
  | getOrganizationPlan _ | getActivityStatus _ => none

def Call.program : Call → Prog StoreIface (Option Value)
  | setOrganizationPlan organizationId plan => setKey (.plan organizationId) (.string plan.text)
  | setActivityStatus activityId status => setKey (.status activityId) (.string status)
  | getOrganizationPlan organizationId => getKey (.plan organizationId)
  | getActivityStatus activityId => getKey (.status activityId)

/-! ## The store and its file -/

/-- What has come of a write in the queue. -/
inductive Job
  | pending
  | done
  | failed (e : Thrown)

structure Store where
  cache : Option Snapshot := none
  file : Option Contents := none
  temporary : Option Contents := none
  writeQueue : List Job := []

/-- An operation is done, or throws. -/
inductive Choice
  | done
  | fails (e : Thrown)

def Choice.isFailure : Choice → Bool
  | .fails _ => true
  | .done => false

/-- The write comes to nothing. -/
def Store.reject (store : Store) (n : Nat) (e : Thrown) : Store :=
  { store with writeQueue := store.writeQueue.set n (.failed e) }

/-- The write waits for the one before it, and is rejected with it. -/
def Store.turn (store : Store) : Nat → Option (Except Thrown Unit × Store)
  | 0 => some (.ok (), store)
  | n + 1 =>
      match store.writeQueue[n]? with
      | some .done => some (.ok (), store)
      | some (.failed e) => some (.error e, store.reject (n + 1) e)
      | _ => none

def handle (o : StoreOp) (choice : Choice) (store : Store) : Option (StoreIface.Answer o × Store) :=
  match o, choice with
  | .cached, .done => some (.ok store.cache, store)
  | .readFile, .done => store.file.map fun contents => (.ok contents, store)
  | .readFile, .fails e => some (.error e, store)
  | .install snapshot, .done => some (.ok (), { store with cache := some snapshot })
  | .persist snapshot, .done => some (.ok store.writeQueue.length,
      { store with cache := some snapshot, writeQueue := store.writeQueue ++ [.pending] })
  | .turn n, .done => store.turn n
  | .mkdir _, .done => some (.ok (), store)
  | .writeFile _ contents, .done => some (.ok (), { store with temporary := some contents })
  | .rename n, .done => store.temporary.map fun contents =>
      (.ok (), { store with
        file := some contents, temporary := none, writeQueue := store.writeQueue.set n .done })
  | .mkdir n, .fails e | .writeFile n _, .fails e | .rename n, .fails e =>
      some (.error e, store.reject n e)
  | _, _ => none

/-- Any calls on one store, at any times. -/
def calls : System StoreIface Call Store (Option Value) where
  Choice := Choice
  handle := handle
  program := Call.program
  Env := Call
  env call store _ := some { store, spawn := [call] }

abbrev StoreWorld (β : Type) := World StoreIface Call Store β

abbrev StoreState := StoreWorld (Prog StoreIface (Option Value))

/-- A new store, with this file. -/
def opened {β : Type} (file : Option Contents) : StoreWorld β := ⟨{ file }, [], []⟩

/-! ## What is to hold -/

/-- What the next call would load. -/
def load : Option Contents → Snapshot
  | some contents => parseSnapshot contents
  | none => createEmptySnapshot

def Call.valueOf (call : Call) (key : Key) : Option Value :=
  call.write.bind fun write => if write.1 = key then some write.2 else none

/-- A set call returns when its write has renamed the file. -/
def isAcknowledged : Event StoreIface → Bool
  | ⟨_, .rename _, .ok _⟩ => true
  | _ => false

/-- The value of the last acknowledged write of a key. -/
def acknowledged {β : Type} (w : StoreWorld β) (key : Key) : Option Value :=
  w.trace.findSome? fun event =>
    if isAcknowledged event then (w.threads[event.actor]?).bind fun t => t.tag.valueOf key else none

/-- The operations that write the file. -/
def StoreOp.isWrite : StoreOp → Bool
  | .mkdir _ | .writeFile .. | .rename _ => true
  | _ => false

def isFailedWrite (event : Event StoreIface) : Bool :=
  event.op.isWrite && match event.answer with
    | .error _ => true
    | .ok _ => false

/-- Each key has the value of its last acknowledged write, or its first, in memory and in the file,
and a call fails only by a write of its own. -/
structure Lossless (file : Option Contents) (w : StoreState) : Prop where
  memory : ∀ snapshot, w.store.cache = some snapshot → ∀ key,
    snapshot.get key = overlay (acknowledged w) (load file).get key
  file : ∀ key, (load w.store.file).get key = overlay (acknowledged w) (load file).get key
  failures : ∀ i t, w.threads[i]? = some t → t.body.outcome = .threw →
    ∃ event ∈ w.trace, event.actor = i ∧ isFailedWrite event = true

/-- All calls have settled. -/
def Settled (w : StoreState) : Prop := ∀ t ∈ w.threads, t.body.outcome ≠ .running

/-- The call is loading the file. -/
def isLoading (p : Prog StoreIface (Option Value)) : Bool :=
  match p.pending with
  | some .readFile | some (.install _) => true
  | _ => false

/-- The call has its snapshot and is about to replace it. -/
def isReplacing (p : Prog StoreIface (Option Value)) : Bool :=
  match p.pending with
  | some (.persist _) => true
  | _ => false

/-- The condition on the steps of a run: no call looks for a snapshot while another one is loading
it, nor a set call while another one is about to replace it, an existing file can be read, and no
write fails. -/
def isCareful (w : StoreState) : Act Choice Call → Bool
  | .env _ => true
  | .run i choice =>
      match w.threads[i]? with
      | none => true
      | some t =>
          match t.body.pending with
          | some .cached =>
              if w.store.cache.isNone then w.threads.all fun t => !isLoading t.body
              else t.tag.write.isNone || w.threads.all fun t => !isReplacing t.body
          | some .readFile => !choice.isFailure || w.store.file.isNone
          | some (.mkdir _) | some (.writeFile ..) | some (.rename _) => !choice.isFailure
          | _ => true

/-! ## Values of keys -/

theorem lookup_setMember {key key' : String} {value : Value} {members : List (String × Value)} :
    (setMember key value members).lookup key' =
      if key = key' then some value else members.lookup key' := by
  have first (other : Value) (rest : List (String × Value)) :
      ((key, other) :: rest).lookup key' = if key = key' then some other else rest.lookup key' := by
    by_cases same : key = key'
    · rw [if_pos same, same, List.lookup_cons_self]
    · rw [if_neg same, List.lookup_cons, beq_eq_false_iff_ne.mpr (Ne.symm same)]
  induction members with
  | nil => exact first value []
  | cons e members ih =>
      rw [setMember]
      split
      · rename_i same
        obtain ⟨name, other⟩ := e
        obtain rfl : name = key := same
        rw [first, first]
        split <;> rfl
      · rename_i differs
        rw [List.lookup_cons, List.lookup_cons, ih]
        by_cases here : key' = e.1
        · have other : key ≠ key' := fun same => differs (same.trans here).symm
          rw [beq_iff_eq.mpr here, if_neg other, if_neg other]
        · rw [beq_eq_false_iff_ne.mpr here]

theorem Snapshot.get_set {snapshot : Snapshot} {key key' : Key} {value : Value} :
    (snapshot.set value key).get key' = if key = key' then some value else snapshot.get key' := by
  cases key with
  | plan id =>
      cases key' with
      | plan id' => simp only [set, get, spread, lookup_setMember, Key.plan.injEq]
      | status id' => rfl
  | status id =>
      cases key' with
      | plan id' => rfl
      | status id' => simp only [set, get, spread, lookup_setMember, Key.status.injEq]

theorem spread_fieldOf {members : List (String × Value)} {name : String} {value : Value}
    (found : members.lookup name = some value) : spread (fieldOf members name) = spread value := by
  unfold fieldOf
  rw [found]
  cases value <;> rfl

theorem get_parseSnapshot {snapshot : Snapshot} :
    (parseSnapshot snapshot.contents).get = snapshot.get := by
  funext key
  cases key with
  | plan id => exact congrArg (List.lookup id) (spread_fieldOf rfl)
  | status id => exact congrArg (List.lookup id) (spread_fieldOf rfl)

/-! ## The stages of a call -/

/-- How far a call is; a write has its place in the queue and its snapshot. -/
inductive Stage
  | checking
  | loading
  | installing (snapshot : Snapshot)
  | loaded (snapshot : Snapshot)
  | queued (n : Nat) (snapshot : Snapshot)
  | making (n : Nat) (snapshot : Snapshot)
  | writing (n : Nat) (snapshot : Snapshot)
  | moving (n : Nat) (snapshot : Snapshot)
  | ended
  | failed

/-- A set call goes on with its snapshot, a read call returns. -/
def Call.given (call : Call) (snapshot : Snapshot) : Stage :=
  if call.write.isSome then .loaded snapshot else .ended

inductive StoreMove : Call → Stage → (o : StoreOp) → StoreIface.Answer o → Stage → Prop
  | hit {call : Call} {snapshot : Snapshot} :
      StoreMove call .checking .cached (.ok (some snapshot)) (call.given snapshot)
  | miss {call : Call} : StoreMove call .checking .cached (.ok none) .loading
  | read {call : Call} {contents : Contents} :
      StoreMove call .loading .readFile (.ok contents) (.installing (parseSnapshot contents))
  | unread {call : Call} {e : Thrown} :
      StoreMove call .loading .readFile (.error e) (.installing createEmptySnapshot)
  | install {call : Call} {snapshot : Snapshot} :
      StoreMove call (.installing snapshot) (.install snapshot) (.ok ()) (call.given snapshot)
  | persist {call : Call} {snapshot : Snapshot} {key : Key} {value : Value} {n : Nat}
      (write : call.write = some (key, value)) :
      StoreMove call (.loaded snapshot) (.persist (snapshot.set value key)) (.ok n)
        (.queued n (snapshot.set value key))
  | turn {call : Call} {n : Nat} {snapshot : Snapshot} :
      StoreMove call (.queued n snapshot) (.turn n) (.ok ()) (.making n snapshot)
  | mkdir {call : Call} {n : Nat} {snapshot : Snapshot} :
      StoreMove call (.making n snapshot) (.mkdir n) (.ok ()) (.writing n snapshot)
  | writeFile {call : Call} {n : Nat} {snapshot : Snapshot} :
      StoreMove call (.writing n snapshot) (.writeFile n snapshot.contents) (.ok ())
        (.moving n snapshot)
  | rename {call : Call} {n : Nat} {snapshot : Snapshot} :
      StoreMove call (.moving n snapshot) (.rename n) (.ok ()) .ended
  | fail {call : Call} {stage : Stage} {o : StoreOp} {e : Thrown} (other : o ≠ .readFile) :
      StoreMove call stage o (.error e) .failed

def callEnds (_ : Call) : Except Thrown (Option Value) → Stage → Prop
  | .ok _, stage => stage = .ended
  | .error _, stage => stage = .failed

section

variable {call : Call} {key : Key} {value : Value} {snapshot : Snapshot}
  {Q : Except Thrown (Option Value) → Stage → Prop}

/-- A call of an operation other than the reading of the file. -/
theorem follows_await {α : Type} {Q : Except Thrown α → Stage → Prop} {o : StoreOp} {stage : Stage}
    {f : o.Result → Prog StoreIface α} (other : o ≠ .readFile) (failed : ∀ e, Q (.error e) .failed)
    (rest : ∀ a, ∃ stage', StoreMove call stage o (.ok a) stage' ∧
      (f a).Follows (StoreMove call) Q stage') :
    ((await o).bind f).Follows (StoreMove call) Q stage :=
  .performBind rest fun e => ⟨.failed, .fail other, failed e⟩

/-- How loading ends. -/
def loadEnds (call : Call) : Except Thrown Snapshot → Stage → Prop
  | .ok snapshot, stage => stage = call.given snapshot
  | .error _, stage => stage = .failed

theorem load_follows : loadSnapshot.Follows (StoreMove call) (loadEnds call) .checking := by
  refine follows_await (by simp) (fun _ => rfl) fun cache => ?_
  cases cache with
  | some snapshot => exact ⟨_, .hit, rfl⟩
  | none =>
      refine ⟨.loading, .miss, .bind (.tryCatch (.performBind (fun contents => ?_) fun e => ?_))⟩
      · refine ⟨.installing (parseSnapshot contents), .read, ?_⟩
        exact follows_await (by simp) (fun _ => rfl) fun _ => ⟨_, .install, rfl⟩
      · refine ⟨.installing createEmptySnapshot, .unread, ?_⟩
        exact follows_await (by simp) (fun _ => rfl) fun _ => ⟨_, .install, rfl⟩

/-- How the writing of a snapshot ends. -/
def persistEnds : Except Thrown Unit → Stage → Prop
  | .ok _, stage => stage = .ended
  | .error _, stage => stage = .failed

theorem persist_follows (write : call.write = some (key, value)) :
    (persistSnapshot (snapshot.set value key)).Follows (StoreMove call) persistEnds
      (.loaded snapshot) := by
  refine follows_await (by simp) (fun _ => rfl) fun n => ⟨_, .persist write, ?_⟩
  refine follows_await (by simp) (fun _ => rfl) fun _ => ⟨_, .turn, ?_⟩
  refine follows_await (by simp) (fun _ => rfl) fun _ => ⟨_, .mkdir, ?_⟩
  refine follows_await (by simp) (fun _ => rfl) fun _ => ⟨_, .writeFile, ?_⟩
  refine .perform fun answer => ?_
  cases answer with
  | ok _ => exact ⟨.ended, .rename, rfl⟩
  | error e => exact ⟨.failed, .fail (by simp), rfl⟩

theorem set_follows (write : call.write = some (key, value)) :
    (setKey key value).Follows (StoreMove call) (callEnds call) .checking := by
  refine .bind (.mono (fun answer stage ends => ?_) load_follows)
  cases answer with
  | error e => exact ends
  | ok snapshot =>
      have given : call.given snapshot = .loaded snapshot := by
        rw [Call.given, write]
        rfl
      obtain rfl : stage = .loaded snapshot := ends.trans given
      refine .bind (.mono (fun answer stage ends => ?_) (persist_follows write))
      cases answer with
      | error e => exact ends
      | ok _ => exact ends

theorem get_follows (read : call.write = none) :
    (getKey key).Follows (StoreMove call) (callEnds call) .checking := by
  refine .bind (.mono (fun answer stage ends => ?_) load_follows)
  cases answer with
  | error e => exact ends
  | ok snapshot =>
      have given : call.given snapshot = .ended := by
        rw [Call.given, read]
        rfl
      exact ends.trans given

theorem call_follows (call : Call) :
    call.program.Follows (StoreMove call) (callEnds call) .checking := by
  cases call with
  | setOrganizationPlan => exact set_follows rfl
  | setActivityStatus => exact set_follows rfl
  | getOrganizationPlan => exact get_follows rfl
  | getActivityStatus => exact get_follows rfl

def callStages : Discipline StoreIface Call (Option Value) :=
  movesDiscipline calls (fun _ => .checking) StoreMove callEnds

theorem callStages_starts (call : Call) :
    (calls.program call).Follows (callStages.step call) (callStages.ends call)
      (callStages.start call) :=
  (call_follows call).marked

/-! ## The invariant -/

def Stage.isLoading : Stage → Bool
  | loading | installing _ => true
  | _ => false

/-- The write of a call that has replaced the snapshot. -/
def Stage.job : Stage → Option (Nat × Snapshot)
  | queued n snapshot | making n snapshot | writing n snapshot | moving n snapshot =>
      some (n, snapshot)
  | _ => none

def Stage.isActive : Stage → Bool
  | making .. | writing .. | moving .. => true
  | _ => false

abbrev StagedCall := Thread Call (Marked Stage)

/-- A snapshot that is in the cache, or was, and not yet in the file. -/
structure Waiting where
  actor : Nat
  call : Call
  snapshot : Snapshot

/-- What a call makes of the values of the keys. -/
def update (call : Call) (values : Key → Option Value) : Key → Option Value :=
  overlay call.valueOf values

/-- What a call finds, or would load. -/
def Store.memory (store : Store) : Snapshot := store.cache.getD (load store.file)

/-- After `m` writes the others wait, each for a live call; what the file has is acknowledged. At
most one call loads the file, and at most one is about to replace the snapshot in the cache. -/
structure Kept (file : Option Contents) (m : Nat) (queue : List Waiting)
    (a : StoreWorld (Marked Stage)) : Prop where
  jobs : a.store.writeQueue = List.replicate m .done ++ List.replicate queue.length .pending
  pending : Pending update (load a.store.file).get
    (queue.map fun e => (e.call, e.snapshot.get)) a.store.memory.get
  durable : (load a.store.file).get = overlay (acknowledged a) (load file).get
  unwritten : a.store.cache = none → queue = []
  loading : ∀ (i : Nat) (u : StagedCall), a.threads[i]? = some u → u.body.stage.isLoading = true →
    a.store.cache = none ∧ ∀ (j : Nat) (v : StagedCall), a.threads[j]? = some v →
      v.body.stage.isLoading = true → j = i
  installing : ∀ u ∈ a.threads, ∀ snapshot, u.body.stage = .installing snapshot →
    snapshot.get = (load a.store.file).get
  loaded : ∀ (i : Nat) (u : StagedCall) (snapshot : Snapshot), a.threads[i]? = some u →
    u.body.stage = .loaded snapshot → snapshot.get = a.store.memory.get ∧
      a.store.cache.isSome = true ∧ ∀ (j : Nat) (v : StagedCall) (other : Snapshot),
        a.threads[j]? = some v → v.body.stage = .loaded other → j = i
  queued : ∀ (i : Nat) (u : StagedCall) (n : Nat) (snapshot : Snapshot), a.threads[i]? = some u →
    u.body.stage.job = some (n, snapshot) → ∃ p, queue[p]? = some ⟨i, u.tag, snapshot⟩ ∧ n = m + p ∧
      (u.body.stage.isActive = true → p = 0)
  live : ∀ (p : Nat) (e : Waiting), queue[p]? = some e → ∃ u : StagedCall,
    a.threads[e.actor]? = some u ∧ u.tag = e.call ∧ u.body.stage.job = some (m + p, e.snapshot)
  temporary : ∀ u ∈ a.threads, ∀ n snapshot, u.body.stage = .moving n snapshot →
    a.store.temporary = some snapshot.contents
  intact : ∀ u ∈ a.threads, u.body.stage ≠ .failed
  known : ∀ event ∈ a.trace, event.actor < a.threads.length

variable {file : Option Contents} {m : Nat} {queue : List Waiting} {w : StoreState}
  {a : StoreWorld (Marked Stage)}

theorem Kept.start : Kept file 0 [] (opened file) where
  jobs := rfl
  pending := .nil
  durable := rfl
  unwritten _ := rfl
  loading i u there := by simp [opened] at there
  installing u inside := (List.not_mem_nil inside).elim
  loaded i u snapshot there := by simp [opened] at there
  queued i u n snapshot there := by simp [opened] at there
  live p e there := by simp at there
  temporary u inside := (List.not_mem_nil inside).elim
  intact u inside := (List.not_mem_nil inside).elim
  known event inside := (List.not_mem_nil inside).elim

theorem valueOf_advance {i j : Nat} {s' : Marked Stage} {store : Store} {event : Event StoreIface} :
    ((a.advance i s' store event).threads[j]?).bind (fun t => t.tag.valueOf key) =
      (a.threads[j]?).bind fun t => t.tag.valueOf key := by
  simp only [World.advance, List.getElem?_modify]
  cases a.threads[j]? with
  | none => rfl
  | some t =>
      simp only [Option.map_eq_map, Option.map_some, Option.bind_some]
      split <;> rfl

/-- A step acknowledges a write if it renames the file. -/
theorem acknowledged_advance {i : Nat} {s' : Marked Stage} {store : Store}
    {event : Event StoreIface} : acknowledged (a.advance i s' store event) = fun key =>
      (if isAcknowledged event then (a.threads[event.actor]?).bind fun t => t.tag.valueOf key
        else none).or (acknowledged a key) := by
  funext key
  unfold acknowledged
  simp only [valueOf_advance]
  rw [World.advance_trace, List.findSome?_cons]
  generalize (if isAcknowledged event then
    (a.threads[event.actor]?).bind fun t => t.tag.valueOf key else none) = value
  cases value <;> rfl

/-- What is to hold for call `i` to come to a stage at which it has not replaced the snapshot, or to
the next one of its write. -/
def Stage.Fits (m : Nat) (a : StoreWorld (Marked Stage)) (store : Store) (i : Nat) : Stage → Prop
  | .checking | .queued .. | .ended => True
  | .loading => store.cache = none ∧
      ∀ (j : Nat) (v : StagedCall), j ≠ i → a.threads[j]? = some v → v.body.stage.isLoading = false
  | .installing snapshot => snapshot.get = (load a.store.file).get ∧ store.cache = none ∧
      ∀ (j : Nat) (v : StagedCall), j ≠ i → a.threads[j]? = some v → v.body.stage.isLoading = false
  | .loaded snapshot => snapshot.get = a.store.memory.get ∧ store.cache.isSome = true ∧
      ∀ v ∈ a.threads, ∀ other, v.body.stage ≠ .loaded other
  | .making n _ | .writing n _ => n = m
  | .moving n snapshot => n = m ∧ store.temporary = some snapshot.contents
  | .failed => False

theorem Stage.Fits.loading {stage : Stage} {store : Store} {i : Nat} (fits : stage.Fits m a store i)
    (under : stage.isLoading = true) : store.cache = none ∧ ∀ (j : Nat) (v : StagedCall), j ≠ i →
      a.threads[j]? = some v → v.body.stage.isLoading = false := by
  cases stage with
  | loading => exact fits
  | installing snapshot => exact fits.2
  | _ => cases under

theorem Stage.Fits.active {stage : Stage} {store : Store} {i n : Nat}
    (fits : stage.Fits m a store i) (active : stage.isActive = true)
    (job : stage.job = some (n, snapshot)) : n = m := by
  cases stage with
  | making k snapshot | writing k snapshot =>
      cases job
      exact fits
  | moving k snapshot =>
      cases job
      exact fits.1
  | _ => cases active

/-- A step that keeps what is in memory, what is in the file, and the queue. -/
theorem Kept.frame {i : Nat} {u : StagedCall} {s' : Marked Stage} {store : Store} {o : StoreOp}
    {answer : StoreIface.Answer o} (kept : Kept file m queue a) (there : a.threads[i]? = some u)
    (sameFile : store.file = a.store.file) (sameQueue : store.writeQueue = a.store.writeQueue)
    (memory : store.memory.get = a.store.memory.get)
    (cache : a.store.cache.isSome = true → store.cache.isSome = true)
    (unacknowledged : isAcknowledged ⟨i, o, answer⟩ = false)
    (others : ∀ (j : Nat) (v : StagedCall), j ≠ i → a.threads[j]? = some v →
      v.body.stage.isLoading = true → store.cache = none)
    (fits : s'.stage.Fits m a store i) (job : s'.stage.job = u.body.stage.job)
    (temporary : store.temporary = a.store.temporary ∨
      ∀ v ∈ a.threads, ∀ n snapshot, v.body.stage ≠ .moving n snapshot) :
    Kept file m queue (a.advance i s' store ⟨i, o, answer⟩) where
  jobs := sameQueue.trans kept.jobs
  pending := by
    rw [World.advance_store, sameFile, memory]
    exact kept.pending
  durable := by
    rw [World.advance_store, sameFile, acknowledged_advance, unacknowledged]
    exact kept.durable
  unwritten none := by
    refine kept.unwritten ?_
    cases held : a.store.cache with
    | none => rfl
    | some snapshot =>
        have some := cache (by rw [held]; rfl)
        rw [World.advance_store] at none
        rw [none] at some
        cases some
  loading j v after under := by
    rcases World.advance_cases there after with ⟨rfl, rfl⟩ | ⟨other, before⟩
    · obtain ⟨none, alone⟩ := fits.loading under
      refine ⟨none, fun k v' after' under' => ?_⟩
      rcases World.advance_cases there after' with ⟨same, _⟩ | ⟨other', before'⟩
      · exact same
      · rw [alone k v' other' before'] at under'
        cases under'
    · refine ⟨others j v other before under, fun k v' after' under' => ?_⟩
      rcases World.advance_cases there after' with ⟨rfl, rfl⟩ | ⟨_, before'⟩
      · rw [(fits.loading under').2 j v other before] at under
        cases under
      · exact (kept.loading j v before under).2 k v' before' under'
  installing v inside snapshot stage := by
    rw [World.advance_store, sameFile]
    rcases World.mem_advance there inside with rfl | before
    · exact (stage ▸ fits : (Stage.installing snapshot).Fits m a store i).1
    · exact kept.installing v before snapshot stage
  loaded j v snapshot after stage := by
    rw [World.advance_store, memory]
    rcases World.advance_cases there after with ⟨rfl, rfl⟩ | ⟨other, before⟩
    · obtain ⟨same, some, alone⟩ : (Stage.loaded snapshot).Fits m a store j := stage ▸ fits
      refine ⟨same, some, fun k v' snapshot' after' stage' => ?_⟩
      rcases World.advance_cases there after' with ⟨same, _⟩ | ⟨_, before'⟩
      · exact same
      · exact (alone v' (List.mem_of_getElem? before') snapshot' stage').elim
    · obtain ⟨same, some, alone⟩ := kept.loaded j v snapshot before stage
      refine ⟨same, cache some, fun k v' snapshot' after' stage' => ?_⟩
      rcases World.advance_cases there after' with ⟨rfl, rfl⟩ | ⟨_, before'⟩
      · obtain ⟨_, _, none⟩ : (Stage.loaded snapshot').Fits m a store k := stage' ▸ fits
        exact (none v (List.mem_of_getElem? before) snapshot stage).elim
      · exact alone k v' snapshot' before' stage'
  queued j v n snapshot after given := by
    rcases World.advance_cases there after with ⟨rfl, rfl⟩ | ⟨_, before⟩
    · obtain ⟨p, place, number, _⟩ := kept.queued j u n snapshot there (job ▸ given)
      refine ⟨p, place, number, fun acts => ?_⟩
      have first := fits.active acts given
      omega
    · exact kept.queued j v n snapshot before given
  live p e place := by
    obtain ⟨v, found, tag, given⟩ := kept.live p e place
    by_cases same : e.actor = i
    · rw [same] at found
      cases found.symm.trans there
      refine ⟨{ u with body := s' }, ?_, tag, job.trans given⟩
      rw [same]
      exact World.advance_self there
    · exact ⟨v, (World.advance_other same).trans found, tag, given⟩
  temporary v inside n snapshot stage := by
    rcases World.mem_advance there inside with rfl | before
    · exact (stage ▸ fits : (Stage.moving n snapshot).Fits m a store i).2
    · rcases temporary with same | none
      · exact same.trans (kept.temporary v before n snapshot stage)
      · exact (none v before n snapshot stage).elim
  intact v inside := by
    rcases World.mem_advance there inside with rfl | before
    · exact fun stage => (stage ▸ fits : Stage.failed.Fits m a store i)
    · exact kept.intact v before
  known event inside := by
    rw [World.advance_length]
    rcases List.mem_cons.mp inside with rfl | earlier
    · exact (List.getElem?_eq_some_iff.mp there).1
    · exact kept.known event earlier

theorem Kept.head {i : Nat} {u : StagedCall} {n : Nat} (kept : Kept file m queue a)
    (there : a.threads[i]? = some u) (job : u.body.stage.job = some (n, snapshot))
    (active : u.body.stage.isActive = true) :
    n = m ∧ ∃ rest, queue = ⟨i, u.tag, snapshot⟩ :: rest := by
  obtain ⟨p, place, rfl, first⟩ := kept.queued i u n snapshot there job
  obtain rfl := first active
  cases queue with
  | nil => cases place
  | cons e rest =>
      cases place
      exact ⟨rfl, rest, rfl⟩

/-- A call that is loading finds nothing in the cache, so that a call that has found something is
not loading. -/
theorem Kept.not_loading {i : Nat} {u : StagedCall} (kept : Kept file m queue a)
    (cached : a.store.cache.isSome = true) (there : a.threads[i]? = some u) :
    u.body.stage.isLoading = false := by
  by_contra under
  rw [(kept.loading i u there (Bool.eq_true_of_not_eq_false under)).1] at cached
  cases cached

/-- The snapshot in the cache is replaced, and waits to be written. -/
theorem Kept.persist {i : Nat} {u : StagedCall} {s' : Marked Stage} {n : Nat}
    (kept : Kept file m queue a) (there : a.threads[i]? = some u)
    (stage : u.body.stage = .loaded snapshot) (write : u.tag.write = some (key, value))
    (stage' : s'.stage = .queued a.store.writeQueue.length (snapshot.set value key)) :
    Kept file m (queue ++ [⟨i, u.tag, snapshot.set value key⟩]) (a.advance i s'
      { a.store with
        cache := some (snapshot.set value key), writeQueue := a.store.writeQueue ++ [.pending] }
      ⟨i, .persist (snapshot.set value key), .ok n⟩) := by
  obtain ⟨same, cached, alone⟩ := kept.loaded i u snapshot there stage
  have length : a.store.writeQueue.length = m + queue.length := by
    rw [kept.jobs, List.length_append, List.length_replicate, List.length_replicate]
  have updated : (snapshot.set value key).get = update u.tag a.store.memory.get := by
    funext key'
    rw [Snapshot.get_set, update, overlay, Call.valueOf, write, Option.bind_some, same]
    split <;> rfl
  have other {j : Nat} {v : StagedCall} {store : Store} {event : Event StoreIface}
      (after : (a.advance i s' store event).threads[j]? = some v)
      (stage : ∀ n snapshot, v.body.stage ≠ .queued n snapshot) : a.threads[j]? = some v := by
    rcases World.advance_cases there after with ⟨_, rfl⟩ | ⟨_, before⟩
    · exact (stage _ _ stage').elim
    · exact before
  exact {
    jobs := by
      rw [World.advance_store, List.length_append, List.length_singleton, List.replicate_succ',
        ← List.append_assoc, ← kept.jobs]
    pending := by
      have longer : Pending update (load a.store.file).get
          ((queue.map fun e => (e.call, e.snapshot.get)) ++
            [(u.tag, update u.tag a.store.memory.get)]) (update u.tag a.store.memory.get) :=
        kept.pending.concat
      rw [← updated] at longer
      rw [List.map_append]
      exact longer
    durable := by
      rw [acknowledged_advance]
      exact kept.durable
    unwritten := fun none => by cases none
    loading := fun j v after under => by
      have before := other after fun n snapshot queued => by
        rw [queued] at under
        cases under
      rw [kept.not_loading cached before] at under
      cases under
    installing := fun v inside snapshot' installs => by
      obtain ⟨j, after⟩ := List.mem_iff_getElem?.mp inside
      have before := other after fun n snapshot queued => by
        rw [installs] at queued
        cases queued
      exact kept.installing v (List.mem_of_getElem? before) snapshot' installs
    loaded := fun j v snapshot' after loads => by
      have before := other after fun n snapshot queued => by
        rw [loads] at queued
        cases queued
      obtain rfl := alone j v snapshot' before loads
      rw [World.advance_self there] at after
      cases after
      rw [stage'] at loads
      cases loads
    queued := fun j v k snapshot' after job => by
      rcases World.advance_cases there after with ⟨rfl, rfl⟩ | ⟨_, before⟩
      · change s'.stage.job = _ at job
        rw [stage'] at job
        cases job
        refine ⟨queue.length, List.getElem?_concat_length, length, fun active => ?_⟩
        change s'.stage.isActive = true at active
        rw [stage'] at active
        cases active
      · obtain ⟨p, place, number, first⟩ := kept.queued j v k snapshot' before job
        have bound := (List.getElem?_eq_some_iff.mp place).1
        exact ⟨p, (List.getElem?_append_left bound).trans place, number, first⟩
    live := fun p e place => by
      rcases Nat.lt_or_ge p queue.length with before | last
      · rw [List.getElem?_append_left before] at place
        obtain ⟨v, found, tag, job⟩ := kept.live p e place
        by_cases here : e.actor = i
        · rw [here] at found
          cases found.symm.trans there
          rw [stage] at job
          cases job
        · exact ⟨v, (World.advance_other here).trans found, tag, job⟩
      · rw [List.getElem?_append_right last] at place
        have here : p - queue.length = 0 := by
          have bound := (List.getElem?_eq_some_iff.mp place).1
          rw [List.length_singleton] at bound
          omega
        rw [here] at place
        cases place
        refine ⟨{ u with body := s' }, World.advance_self there, rfl, ?_⟩
        change s'.stage.job = _
        rw [stage', length, show p = queue.length by omega]
        rfl
    temporary := fun v inside k snapshot' moves => by
      obtain ⟨j, after⟩ := List.mem_iff_getElem?.mp inside
      have before := other after fun n snapshot queued => by
        rw [moves] at queued
        cases queued
      exact kept.temporary v (List.mem_of_getElem? before) k snapshot' moves
    intact := fun v inside fails => by
      obtain ⟨j, after⟩ := List.mem_iff_getElem?.mp inside
      have before := other after fun n snapshot queued => by
        rw [fails] at queued
        cases queued
      exact kept.intact v (List.mem_of_getElem? before) fails
    known := fun event inside => by
      rw [World.advance_length]
      rcases List.mem_cons.mp inside with rfl | earlier
      · exact (List.getElem?_eq_some_iff.mp there).1
      · exact kept.known event earlier }

/-- The first of the writes that wait gets to the file, and is acknowledged. -/
theorem Kept.rename {i : Nat} {u : StagedCall} {s' : Marked Stage} {n : Nat} {contents : Contents}
    (kept : Kept file m queue a) (there : a.threads[i]? = some u)
    (stage : u.body.stage = .moving n snapshot) (stage' : s'.stage = .ended)
    (temporary : a.store.temporary = some contents) :
    Kept file (m + 1) queue.tail (a.advance i s'
      { a.store with
        file := some contents, temporary := none, writeQueue := a.store.writeQueue.set n .done }
      ⟨i, .rename n, .ok ()⟩) := by
  have job : u.body.stage.job = some (n, snapshot) := by
    rw [stage]
    rfl
  obtain ⟨rfl, rest, rfl⟩ := kept.head there job (by rw [stage]; rfl)
  obtain rfl : snapshot.contents = contents :=
    Option.some.inj ((kept.temporary u (List.mem_of_getElem? there) n snapshot stage).symm.trans
      temporary)
  obtain ⟨made, waiting⟩ := kept.pending.head
  have cached : a.store.cache.isSome = true := by
    cases held : a.store.cache with
    | none => cases kept.unwritten held
    | some snapshot => rfl
  have memory : Store.memory { a.store with
      file := some snapshot.contents, temporary := none
      writeQueue := a.store.writeQueue.set n .done } = a.store.memory := by
    obtain ⟨held, some⟩ := Option.isSome_iff_exists.mp cached
    rw [Store.memory, Store.memory, some]
    rfl
  have other {j : Nat} {v : StagedCall} {store : Store} {event : Event StoreIface}
      (after : (a.advance i s' store event).threads[j]? = some v)
      (stage : v.body.stage ≠ .ended) : j ≠ i ∧ a.threads[j]? = some v := by
    rcases World.advance_cases there after with ⟨_, rfl⟩ | before
    · exact (stage stage').elim
    · exact before
  -- no other call has a write that is going on
  have only {j : Nat} {v : StagedCall} {k : Nat} {snapshot' : Snapshot} (apart : j ≠ i)
      (before : a.threads[j]? = some v) (job : v.body.stage.job = some (k, snapshot'))
      (active : v.body.stage.isActive = true) : False := by
    obtain ⟨_, _, same⟩ := kept.head before job active
    exact apart (Waiting.mk.inj (List.cons.inj same).1).1.symm
  exact {
    jobs := by
      rw [World.advance_store, kept.jobs, List.set_append_right _ _ (by simp),
        List.length_replicate, Nat.sub_self, List.length_cons, List.replicate_succ,
        List.set_cons_zero, List.replicate_succ', List.append_assoc]
      rfl
    pending := by
      rw [World.advance_store, memory]
      change Pending update (parseSnapshot snapshot.contents).get _ _
      rw [get_parseSnapshot]
      exact waiting
    durable := by
      change (parseSnapshot snapshot.contents).get = _
      rw [get_parseSnapshot, made, kept.durable, update, overlay_overlay, acknowledged_advance]
      funext key
      change _ = overlay (fun key => ((a.threads[i]?).bind fun t => t.tag.valueOf key).or
        (acknowledged a key)) _ key
      rw [there]
      rfl
    unwritten := fun none => by
      rw [World.advance_store] at none
      rw [none] at cached
      cases cached
    loading := fun j v after under => by
      have before := (other after fun ended => by rw [ended] at under; cases under).2
      rw [kept.not_loading cached before] at under
      cases under
    installing := fun v inside snapshot' installs => by
      obtain ⟨j, after⟩ := List.mem_iff_getElem?.mp inside
      have before := (other after fun ended => by rw [installs] at ended; cases ended).2
      have idle := kept.not_loading cached before
      rw [installs] at idle
      cases idle
    loaded := fun j v snapshot' after loads => by
      have before := (other after fun ended => by rw [loads] at ended; cases ended).2
      obtain ⟨same, some, alone⟩ := kept.loaded j v snapshot' before loads
      refine ⟨same.trans (congrArg Snapshot.get memory.symm), some,
        fun k v' snapshot'' after' loads' => ?_⟩
      have before' := (other after' fun ended => by rw [loads'] at ended; cases ended).2
      exact alone k v' snapshot'' before' loads'
    queued := fun j v k snapshot' after job' => by
      obtain ⟨apart, before⟩ := other after fun ended => by rw [ended] at job'; cases job'
      obtain ⟨p, place, number, first⟩ := kept.queued j v k snapshot' before job'
      cases p with
      | zero => exact (apart (Waiting.mk.inj (Option.some.inj place)).1.symm).elim
      | succ p =>
          refine ⟨p, place, by omega, fun active => ?_⟩
          cases first active
    live := fun p e place => by
      obtain ⟨v, found, tag, job'⟩ := kept.live (p + 1) e place
      by_cases here : e.actor = i
      · rw [here] at found
        cases found.symm.trans there
        have numbers := congrArg Prod.fst (Option.some.inj (job'.symm.trans job))
        change n + (p + 1) = n at numbers
        omega
      · refine ⟨v, (World.advance_other here).trans found, tag, ?_⟩
        rw [job', show n + (p + 1) = n + 1 + p by omega]
    temporary := fun v inside k snapshot' moves => by
      obtain ⟨j, after⟩ := List.mem_iff_getElem?.mp inside
      obtain ⟨apart, before⟩ := other after fun ended => by rw [moves] at ended; cases ended
      exact (only apart before (by rw [moves]; rfl) (by rw [moves]; rfl)).elim
    intact := fun v inside fails => by
      obtain ⟨j, after⟩ := List.mem_iff_getElem?.mp inside
      have before := (other after fun ended => by rw [fails] at ended; cases ended).2
      exact kept.intact v (List.mem_of_getElem? before) fails
    known := fun event inside => by
      rw [World.advance_length]
      rcases List.mem_cons.mp inside with rfl | earlier
      · exact (List.getElem?_eq_some_iff.mp there).1
      · exact kept.known event earlier }

/-! ## One step -/

variable {t : Thread Call (Prog StoreIface (Option Value))} {p : Prog StoreIface (Option Value)}
  {s : Marked Stage}

theorem nonempty_result (o : StoreOp) : Nonempty o.Result := by
  cases o with
  | cached => exact ⟨(none : Option Snapshot)⟩
  | readFile => exact ⟨(none : Contents)⟩
  | persist snapshot => exact ⟨(0 : Nat)⟩
  | _ => exact ⟨()⟩

/-- A call that is not over awaits an operation, which leads on if it is done. -/
theorem exists_move (follows : p.Follows (callStages.step call) (callStages.ends call) s)
    (live : s.stage ≠ .ended ∧ s.stage ≠ .failed) : ∃ o r stage', p.pending = some o ∧
      StoreMove call s.stage o (.ok r) stage' := by
  cases p with
  | pure value => exact (live.1 follows.2).elim
  | throw e => exact (live.2 follows.2).elim
  | op o k =>
      obtain ⟨r⟩ := nonempty_result o
      obtain ⟨⟨stage', _⟩, ⟨-, move⟩, -⟩ := follows (.ok r)
      exact ⟨o, r, stage', rfl, move⟩

theorem isLoading_of_stage (follows : p.Follows (callStages.step call) (callStages.ends call) s)
    (under : s.stage.isLoading = true) : isLoading p = true := by
  have live : s.stage ≠ .ended ∧ s.stage ≠ .failed := by
    constructor <;> intro stage <;> rw [stage] at under <;> cases under
  obtain ⟨o, r, stage', pending, move⟩ := exists_move follows live
  generalize s.stage = stage at under move
  rw [isLoading, pending]
  cases move <;> first | rfl | cases under

theorem isReplacing_of_stage (follows : p.Follows (callStages.step call) (callStages.ends call) s)
    (stage : s.stage = .loaded snapshot) : isReplacing p = true := by
  have live : s.stage ≠ .ended ∧ s.stage ≠ .failed := by
    rw [stage]
    exact ⟨(fun same => by cases same), fun same => by cases same⟩
  obtain ⟨o, r, stage', pending, move⟩ := exists_move follows live
  rw [stage] at move
  rw [isReplacing, pending]
  cases move
  rfl

/-- The stages of the other calls, from what is seen of them. -/
theorem not_loading_of_all (refines : callStages.Refines w a)
    (all : (w.threads.all fun t => !isLoading t.body) = true) :
    ∀ v ∈ a.threads, v.body.stage.isLoading = false := by
  intro v inside
  obtain ⟨j, there⟩ := List.mem_iff_getElem?.mp inside
  obtain ⟨t, found, _, _, follows⟩ := refines.thread_of_stage there
  by_contra under
  have idle := List.all_eq_true.mp all t (List.mem_of_getElem? found)
  rw [isLoading_of_stage follows (Bool.eq_true_of_not_eq_false under)] at idle
  cases idle

theorem not_loaded_of_all (refines : callStages.Refines w a)
    (all : (w.threads.all fun t => !isReplacing t.body) = true) :
    ∀ v ∈ a.threads, ∀ other, v.body.stage ≠ .loaded other := by
  intro v inside other stage
  obtain ⟨j, there⟩ := List.mem_iff_getElem?.mp inside
  obtain ⟨t, found, _, _, follows⟩ := refines.thread_of_stage there
  have idle := List.all_eq_true.mp all t (List.mem_of_getElem? found)
  rw [isReplacing_of_stage follows stage] at idle
  cases idle

/-- A step that changes no more than the stage of its call. -/
theorem Kept.moves {i : Nat} {u : StagedCall} {s' : Marked Stage} {o : StoreOp}
    {answer : StoreIface.Answer o} (kept : Kept file m queue a) (there : a.threads[i]? = some u)
    (unacknowledged : isAcknowledged ⟨i, o, answer⟩ = false)
    (fits : s'.stage.Fits m a a.store i) (job : s'.stage.job = u.body.stage.job) :
    Kept file m queue (a.advance i s' a.store ⟨i, o, answer⟩) :=
  kept.frame there rfl rfl rfl id unacknowledged
    (fun j v _ before under => (kept.loading j v before under).1) fits job (.inl rfl)

/-- A write has its turn when those before it are done. -/
theorem Kept.turned {n : Nat} {answer : Except Thrown Unit} {store : Store}
    (kept : Kept file m queue a) (answered : a.store.turn n = some (answer, store)) :
    answer = .ok () ∧ store = a.store ∧ n ≤ m := by
  cases n with
  | zero =>
      obtain ⟨rfl, rfl⟩ := Prod.mk.inj (Option.some.inj answered)
      exact ⟨rfl, rfl, Nat.zero_le m⟩
  | succ n =>
      rw [Store.turn, kept.jobs] at answered
      rcases Nat.lt_or_ge n m with done | waits
      · have place : (List.replicate m Job.done ++ List.replicate queue.length .pending)[n]? =
            some .done := by
          rw [List.getElem?_append_left (by rwa [List.length_replicate]), List.getElem?_replicate,
            if_pos done]
        rw [place] at answered
        obtain ⟨rfl, rfl⟩ := Prod.mk.inj (Option.some.inj answered)
        exact ⟨rfl, rfl, done⟩
      · rw [List.getElem?_append_right (by rwa [List.length_replicate]),
          List.getElem?_replicate] at answered
        split at answered
        · rename_i place
          split at place <;> cases place
        · rename_i place
          split at place <;> cases place
        · cases answered

theorem Kept.run {i : Nat} {choice : Choice} {o : StoreOp}
    {k : StoreIface.Answer o → Prog StoreIface (Option Value)} {answer : StoreIface.Answer o}
    {store : Store} {u : StagedCall} {s' : Marked Stage} (kept : Kept file m queue a)
    (refines : callStages.Refines w a) (careful : isCareful w (.run i choice) = true)
    (found : w.threads[i]? = some t) (pending : t.body = .op o k)
    (there : a.threads[i]? = some u) (answered : handle o choice a.store = some (answer, store))
    (step : callStages.step u.tag u.body o answer s') :
    ∃ m queue, Kept file m queue (a.advance i s' store ⟨i, o, answer⟩) := by
  have move : StoreMove u.tag u.body.stage o answer s'.stage := step.2
  have tags := (refines.follows found there).1
  rw [isCareful, found] at careful
  dsimp only at careful
  rw [pending, Prog.pending_op, ← refines.store, ← tags] at careful
  rcases stages : (u.body.stage, s'.stage) with ⟨before, after⟩
  obtain ⟨stage, stage'⟩ := Prod.mk.inj stages
  rw [stage, stage'] at move
  cases move with
  | @hit snapshot =>
      cases choice with
      | fails e => cases answered
      | done =>
          obtain ⟨same, rfl⟩ := Prod.mk.inj (Option.some.inj answered)
          have cached : a.store.cache = some snapshot := Except.ok.inj same
          refine ⟨m, queue, kept.moves there rfl ?_ ?_⟩
          · rw [stage', Call.given]
            split
            · rename_i writes
              obtain ⟨write, writes⟩ := Option.isSome_iff_exists.mp writes
              rw [writes, cached] at careful
              refine ⟨?_, by rw [cached]; rfl, not_loaded_of_all refines careful⟩
              rw [Store.memory, cached]
              rfl
            · trivial
          · rw [stage', stage, Call.given]
            split <;> rfl
  | miss =>
      cases choice with
      | fails e => cases answered
      | done =>
          obtain ⟨same, rfl⟩ := Prod.mk.inj (Option.some.inj answered)
          have empty : a.store.cache = none := Except.ok.inj same
          rw [empty] at careful
          have idle := not_loading_of_all refines careful
          refine ⟨m, queue, kept.moves there rfl ?_ (by rw [stage, stage']; rfl)⟩
          rw [stage']
          exact ⟨empty, fun j v _ before => idle v (List.mem_of_getElem? before)⟩
  | @read contents =>
      cases choice with
      | fails e => cases answered
      | done =>
          obtain ⟨contents', held, parts⟩ := Option.map_eq_some_iff.mp answered
          obtain ⟨same, rfl⟩ := Prod.mk.inj parts
          cases Except.ok.inj same
          obtain ⟨empty, alone⟩ := kept.loading i u there (by rw [stage]; rfl)
          refine ⟨m, queue, kept.moves there rfl ?_ (by rw [stage, stage']; rfl)⟩
          rw [stage']
          refine ⟨by rw [held]; rfl, empty, fun j v other before => ?_⟩
          by_contra under
          exact other (alone j v before (Bool.eq_true_of_not_eq_false under))
  | @unread e =>
      cases choice with
      | done =>
          obtain ⟨contents, _, parts⟩ := Option.map_eq_some_iff.mp answered
          cases (Prod.mk.inj parts).1
      | fails e' =>
          obtain ⟨_, rfl⟩ := Prod.mk.inj (Option.some.inj answered)
          have absent : a.store.file = none := Option.isNone_iff_eq_none.mp careful
          obtain ⟨empty, alone⟩ := kept.loading i u there (by rw [stage]; rfl)
          refine ⟨m, queue, kept.moves there rfl ?_ (by rw [stage, stage']; rfl)⟩
          rw [stage']
          refine ⟨by rw [absent]; rfl, empty, fun j v other before => ?_⟩
          by_contra under
          exact other (alone j v before (Bool.eq_true_of_not_eq_false under))
  | @install snapshot =>
      cases choice with
      | fails e => cases answered
      | done =>
          obtain ⟨_, rfl⟩ := Prod.mk.inj (Option.some.inj answered)
          obtain ⟨empty, alone⟩ := kept.loading i u there (by rw [stage]; rfl)
          have own := kept.installing u (List.mem_of_getElem? there) snapshot stage
          have memory : snapshot.get = a.store.memory.get := by
            rw [own, Store.memory, empty]
            rfl
          refine ⟨m, queue, kept.frame there rfl rfl memory (fun _ => rfl) rfl
            (fun j v other before under => (other (alone j v before under)).elim) ?_ ?_ (.inl rfl)⟩
          · rw [stage', Call.given]
            split
            · refine ⟨memory, rfl, fun v inside other loads => ?_⟩
              obtain ⟨j, before⟩ := List.mem_iff_getElem?.mp inside
              have cached := (kept.loaded j v other before loads).2.1
              rw [empty] at cached
              cases cached
            · trivial
          · rw [stage', stage, Call.given]
            split <;> rfl
  | @persist snapshot key value n write =>
      cases choice with
      | fails e => cases answered
      | done =>
          obtain ⟨number, rfl⟩ := Prod.mk.inj (Option.some.inj answered)
          cases Except.ok.inj number
          exact ⟨m, _, kept.persist there stage write stage'⟩
  | @turn n snapshot =>
      cases choice with
      | fails e => cases answered
      | done =>
          obtain ⟨_, rfl, early⟩ := kept.turned answered
          obtain ⟨p, _, rfl, _⟩ := kept.queued i u n snapshot there (by rw [stage]; rfl)
          refine ⟨m, queue, kept.moves there rfl ?_ (by rw [stage, stage']; rfl)⟩
          rw [stage']
          exact Nat.le_antisymm early (Nat.le_add_right m p)
  | @mkdir n snapshot =>
      cases choice with
      | fails e => cases answered
      | done =>
          obtain ⟨_, rfl⟩ := Prod.mk.inj (Option.some.inj answered)
          refine ⟨m, queue, kept.moves there rfl ?_ (by rw [stage, stage']; rfl)⟩
          rw [stage']
          exact (kept.head there (by rw [stage]; rfl) (by rw [stage]; rfl)).1
  | @writeFile n snapshot =>
      cases choice with
      | fails e => cases answered
      | done =>
          obtain ⟨_, rfl⟩ := Prod.mk.inj (Option.some.inj answered)
          obtain ⟨first, rest, same⟩ := kept.head there (by rw [stage]; rfl) (by rw [stage]; rfl)
          refine ⟨m, queue, kept.frame there rfl rfl rfl id rfl
            (fun j v _ before under => (kept.loading j v before under).1) ?_
            (by rw [stage, stage']; rfl) (.inr fun v inside k snapshot' moves => ?_)⟩
          · rw [stage']
            exact ⟨first, rfl⟩
          · obtain ⟨j, before⟩ := List.mem_iff_getElem?.mp inside
            obtain ⟨_, rest', same'⟩ := kept.head before (by rw [moves]; rfl) (by rw [moves]; rfl)
            have here : i = j :=
              (Waiting.mk.inj (List.cons.inj (same.symm.trans same')).1).1
            rw [here] at there
            cases there.symm.trans before
            cases stage.symm.trans moves
  | @rename n snapshot =>
      cases choice with
      | fails e => cases answered
      | done =>
          obtain ⟨contents, held, parts⟩ := Option.map_eq_some_iff.mp answered
          obtain ⟨_, rfl⟩ := Prod.mk.inj parts
          exact ⟨m + 1, _, kept.rename there stage stage' held⟩
  | fail other =>
      cases choice with
      | fails e =>
          cases o with
          | readFile => exact (other rfl).elim
          | mkdir | writeFile | rename => cases careful
          | _ => cases answered
      | done =>
          cases o with
          | turn n => cases (kept.turned answered).1
          | readFile => exact (other rfl).elim
          | rename n =>
              obtain ⟨_, _, parts⟩ := Option.map_eq_some_iff.mp answered
              cases (Prod.mk.inj parts).1
          | _ => cases (Prod.mk.inj (Option.some.inj answered)).1

/-! ## Every run -/

theorem findSome?_congr {α β : Type} {f g : α → Option β} {l : List α}
    (same : ∀ x ∈ l, f x = g x) : l.findSome? f = l.findSome? g := by
  induction l with
  | nil => rfl
  | cons x l ih =>
      rw [List.findSome?_cons, List.findSome?_cons, same x List.mem_cons_self,
        ih fun y inside => same y (List.mem_cons_of_mem x inside)]

/-- A call that starts acknowledges nothing. -/
theorem acknowledged_change {begin : Call → Marked Stage}
    (known : ∀ event ∈ a.trace, event.actor < a.threads.length) :
    acknowledged (a.change begin { store := a.store, spawn := [call] }) = acknowledged a := by
  funext key
  refine findSome?_congr fun event inside => ?_
  rw [World.change, List.getElem?_append_left (known event inside)]

theorem Kept.env {c : Change Call Store} {outcomes : List (Thread Call Outcome)}
    {begin : Call → Marked Stage} (kept : Kept file m queue a)
    (changed : calls.env call a.store outcomes = some c)
    (begins : ∀ call, (begin call).stage = .checking) : Kept file m queue (a.change begin c) := by
  cases changed
  have threads : (a.change begin { store := a.store, spawn := [call] }).threads =
      a.threads ++ [⟨call, begin call, false⟩] := rfl
  have old {j : Nat} {v : StagedCall}
      (after : (a.change begin { store := a.store, spawn := [call] }).threads[j]? = some v)
      (stage : v.body.stage ≠ .checking) : a.threads[j]? = some v := by
    rw [threads] at after
    rcases Nat.lt_or_ge j a.threads.length with before | last
    · rwa [List.getElem?_append_left before] at after
    · rw [List.getElem?_append_right last] at after
      rw [List.mem_singleton.mp (List.mem_of_getElem? after)] at stage
      exact (stage (begins call)).elim
  have member {v : StagedCall}
      (inside : v ∈ (a.change begin { store := a.store, spawn := [call] }).threads)
      (stage : v.body.stage ≠ .checking) : v ∈ a.threads := by
    obtain ⟨j, after⟩ := List.mem_iff_getElem?.mp inside
    exact List.mem_of_getElem? (old after stage)
  exact {
    jobs := kept.jobs
    pending := kept.pending
    durable := (acknowledged_change kept.known).symm ▸ kept.durable
    unwritten := kept.unwritten
    loading := fun i u after under => by
      have before := old after fun stage => by rw [stage] at under; cases under
      obtain ⟨none, alone⟩ := kept.loading i u before under
      refine ⟨none, fun j v after' under' => alone j v (old after' fun stage => ?_) under'⟩
      rw [stage] at under'
      cases under'
    installing := fun u inside snapshot installs => by
      have before := member inside fun stage => by rw [stage] at installs; cases installs
      exact kept.installing u before snapshot installs
    loaded := fun i u snapshot after loads => by
      have before := old after fun stage => by rw [stage] at loads; cases loads
      obtain ⟨same, some, alone⟩ := kept.loaded i u snapshot before loads
      refine ⟨same, some, fun j v other after' loads' =>
        alone j v other (old after' fun stage => ?_) loads'⟩
      rw [stage] at loads'
      cases loads'
    queued := fun i u n snapshot after job => by
      have before := old after fun stage => by rw [stage] at job; cases job
      exact kept.queued i u n snapshot before job
    live := fun p e place => by
      obtain ⟨u, found, tag, job⟩ := kept.live p e place
      refine ⟨u, ?_, tag, job⟩
      rw [threads, List.getElem?_append_left (List.getElem?_eq_some_iff.mp found).1, found]
    temporary := fun u inside n snapshot moves => by
      have before := member inside fun stage => by rw [stage] at moves; cases moves
      exact kept.temporary u before n snapshot moves
    intact := fun u inside fails => by
      have before := member inside fun stage => by rw [stage] at fails; cases fails
      exact kept.intact u before fails
    known := fun event inside => by
      rw [threads, List.length_append]
      exact Nat.lt_of_lt_of_le (kept.known event inside) (Nat.le_add_right _ _) }

theorem acknowledged_of_refines (refines : callStages.Refines w a) :
    acknowledged w = acknowledged a := by
  have same (key : Key) (j : Nat) : ((w.threads[j]?).bind fun t => t.tag.valueOf key) =
      (a.threads[j]?).bind fun t => t.tag.valueOf key := by
    cases found : w.threads[j]? with
    | some t =>
        obtain ⟨u, there, tag, _⟩ := refines.stage_of_thread found
        have there : a.threads[j]? = some (u : StagedCall) := there
        rw [there]
        exact congrArg (Call.valueOf · key) tag.symm
    | none =>
        have beyond := List.getElem?_eq_none_iff.mp found
        rw [← refines.length] at beyond
        have missing : a.threads[j]? = none := List.getElem?_eq_none_iff.mpr beyond
        rw [missing]
        rfl
  funext key
  unfold acknowledged
  simp only [same, refines.trace]

/-- Some writes are done, and some wait. -/
def Sound (file : Option Contents) (a : StoreWorld (Marked Stage)) : Prop :=
  ∃ m queue, Kept file m queue a

/-- Where the steps of the calls on a store meet the condition, no acknowledged write is lost once
all calls have settled. -/
theorem lossless (run : calls.Run (fun w act => isCareful w act = true) (opened file) w)
    (settled : Settled w) : Lossless file w := by
  have start : callStages.Refines (opened file) (opened file) :=
    ⟨rfl, rfl, rfl, fun found => by simp [opened] at found⟩
  have begin : Sound file (opened file) := ⟨0, [], .start⟩
  obtain ⟨a, refines, m, queue, kept⟩ := System.Run.invariant callStages_starts
    (fun sound refines careful found pending there answered step => by
      obtain ⟨m, queue, kept⟩ := sound
      exact kept.run refines careful found pending there answered step)
    (fun sound _ _ changed => by
      obtain ⟨m, queue, kept⟩ := sound
      exact ⟨m, queue, kept.env changed fun _ => rfl⟩) start begin run
  have acknowledged := acknowledged_of_refines refines
  -- a write that waits is one of a call that has not settled
  obtain rfl : queue = [] := by
    cases queue with
    | nil => rfl
    | cons e rest =>
        obtain ⟨u, there, _, job⟩ := kept.live 0 e rfl
        obtain ⟨t, found, _, _, follows⟩ := refines.thread_of_stage there
        have live : u.body.stage ≠ .ended ∧ u.body.stage ≠ .failed := by
          constructor <;> intro stage <;> rw [stage] at job <;> cases job
        obtain ⟨o, _, _, pending, _⟩ := exists_move follows live
        refine (settled t (List.mem_of_getElem? found) ?_).elim
        rw [Prog.outcome_eq_running, pending]
        rfl
  have same := kept.pending.eq_of_nil
  refine ⟨fun snapshot cached key => ?_, fun key => ?_, fun i t found threw => ?_⟩
  · have memory : a.store.memory = snapshot := by
      rw [Store.memory, refines.store, cached]
      rfl
    rw [← memory, ← same, kept.durable, acknowledged]
  · rw [← refines.store, kept.durable, acknowledged]
  · obtain ⟨u, there, _, _, follows⟩ := refines.stage_of_thread found
    refine (kept.intact u (List.mem_of_getElem? there) ?_).elim
    cases body : t.body with
    | throw e =>
        rw [body] at follows
        exact follows.2
    | pure value =>
        rw [body] at threw
        cases threw
    | op o k =>
        rw [body] at threw
        cases threw

end

/-! ### Two set calls -/

def setPlan : Call := .setOrganizationPlan "org_1" .PRO

def setStatus : Call := .setActivityStatus "activity_1" "OPENED"

def noEntry : Choice := .fails (error "ENOENT")

/-- The second call starts when the first one has settled. -/
def inTurn : List (Act Choice Call) :=
  [.env setPlan, .run 0 .done, .run 0 noEntry] ++ List.replicate 6 (.run 0 .done) ++
    [.env setStatus] ++ List.replicate 6 (.run 1 .done)

/-- Both calls load the file that there is not, and replace the same snapshot. -/
def atOnce : List (Act Choice Call) :=
  [.env setPlan, .env setStatus, .run 0 .done, .run 1 .done, .run 0 noEntry, .run 1 noEntry,
    .run 0 .done, .run 1 .done, .run 0 .done, .run 1 .done] ++ List.replicate 4 (.run 0 .done) ++
    List.replicate 4 (.run 1 .done)

def isSettled (w : StoreState) : Bool := w.threads.all fun t => t.body.outcome != .running

theorem settled_of_isSettled {w : StoreState} (settled : isSettled w = true) : Settled w :=
  fun t inside => bne_iff_ne.mp (List.all_eq_true.mp settled t inside)

/-- Two calls in turn keep both values. -/
theorem inTurn_lossless : ∃ w, calls.Run (fun w act => isCareful w act = true) (opened none) w ∧
    (acknowledged w (.plan "org_1")).isSome = true ∧ Lossless none w := by
  have evaluated : (calls.execute isCareful (opened none) inTurn).any (fun w =>
      isSettled w && (acknowledged w (.plan "org_1")).isSome) = true := by decide +kernel
  obtain ⟨w, ran, holds⟩ := System.Run.exists_of_execute (fun _ _ careful => careful) evaluated
  obtain ⟨settled, some⟩ := Bool.and_eq_true_iff.mp holds
  exact ⟨w, ran, some, lossless ran (settled_of_isSettled settled)⟩

/-- Of two calls at once the second one takes the value of the first. -/
theorem atOnce_not_lossless : ¬ ∀ w, calls.Run (fun _ _ => True) (opened none) w → Settled w →
    Lossless none w := by
  intro always
  have evaluated : (calls.execute (fun _ _ => true) (opened none) atOnce).any (fun w =>
      isSettled w && ((acknowledged w (.plan "org_1")).isSome &&
        w.store.cache.any fun snapshot => (snapshot.get (.plan "org_1")).isNone)) = true := by
    decide +kernel
  obtain ⟨w, ran, holds⟩ := System.Run.exists_of_execute (fun _ _ _ => trivial) evaluated
  obtain ⟨settled, lost⟩ := Bool.and_eq_true_iff.mp holds
  obtain ⟨some, missing⟩ := Bool.and_eq_true_iff.mp lost
  obtain ⟨snapshot, cached, gone⟩ := (Option.any_eq_true _ _).mp missing
  obtain ⟨value, held⟩ := Option.isSome_iff_exists.mp some
  have whole := always w ran (settled_of_isSettled settled)
  have memory := whole.memory snapshot cached (.plan "org_1")
  rw [overlay, held, Option.isNone_iff_eq_none.mp gone] at memory
  cases memory

end StateStore
