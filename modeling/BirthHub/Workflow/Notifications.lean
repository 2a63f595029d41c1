import BirthHub.Data.OrderedMap
import BirthHub.Workflow.Interpolation

/-!
# Batched notifications

`executeNotificationNode` of `packages/workflows-core/src/nodes/notification.ts` and the timers it
sets. The batches lie in one map of the process under the key that a workflow gives, and each call
that finds a batch puts its own payload in the place of the one before. Where every call that joins
a batch is for the recipient of the batch, everyone who is addressed gets a message.
-/

namespace Workflow

open Data

/-! ## Calls -/

inductive NotificationChannel
  | email
  | inapp
deriving DecidableEq

structure NotificationConfig where
  batchKey : Option String := none
  batchWindowMs : Option Nat := none
  channel : NotificationChannel
  message : String
  /-- `to`. -/
  address : String
deriving DecidableEq

/-- `interpolateValue` of a config; only its texts may hold templates. -/
def NotificationConfig.interpolate (config : NotificationConfig) (context : Json) :
    NotificationConfig :=
  { config with
    batchKey := config.batchKey.map (interpolateTemplate · context)
    message := interpolateTemplate config.message context
    address := interpolateTemplate config.address context }

/-- A call with a dispatcher, of which nothing needs to be known. The context is what templates
see of the runtime context, the tenant among it. -/
structure NotificationCall (δ : Type) where
  config : NotificationConfig
  tenantId : String
  context : Json
  dispatcher : δ

/-- Who is to be notified: an address means something within a tenant and a channel. -/
structure Recipient where
  tenantId : String
  channel : NotificationChannel
  address : String
deriving DecidableEq

variable {δ : Type}

def NotificationCall.payload (call : NotificationCall δ) : NotificationConfig :=
  call.config.interpolate call.context

def NotificationCall.recipient (call : NotificationCall δ) : Recipient where
  tenantId := call.tenantId
  channel := call.payload.channel
  address := call.payload.address

/-! ## The process -/

/-- An entry of `notificationBatchStore`, with the calls it stands for, of which the source keeps
the number. -/
structure NotificationBatch (δ : Type) where
  count : Nat
  payload : NotificationConfig
  calls : List (NotificationCall δ)

/-- A timer that is set; its closure holds the key and the dispatcher of the call that set it. -/
structure BatchTimer (δ : Type) where
  batchKey : String
  dispatcher : δ

/-- A message that was given to a dispatcher, with the calls it stands for. -/
structure SentNotification (δ : Type) where
  dispatcher : δ
  payload : NotificationConfig
  calls : List (NotificationCall δ)

structure Notifier (δ : Type) where
  notificationBatchStore : OrderedMap String (NotificationBatch δ) := .empty
  timers : List (BatchTimer δ) := []
  sent : List (SentNotification δ) := []
  /-- Every call that was made. -/
  calls : List (NotificationCall δ) := []

structure NotificationResult where
  batched : Option Bool := none
  batchKey : Option String := none
  delivered : Bool
  payload : NotificationConfig

def aggregateMessage (count : Nat) : String := s!"{count} notificacoes agregadas"

/-- A key that is not the empty string. -/
def NotificationConfig.truthyBatchKey (payload : NotificationConfig) : Option String :=
  payload.batchKey.filter (· ≠ "")

/-- The entry after another call has found it. -/
def NotificationBatch.join (existing : NotificationBatch δ) (call : NotificationCall δ) :
    NotificationBatch δ where
  count := existing.count + 1
  payload := { call.payload with message := aggregateMessage (existing.count + 1) }
  calls := existing.calls ++ [call]

def executeNotificationNode (call : NotificationCall δ) (s : Notifier δ) :
    NotificationResult × Notifier δ :=
  let payload := call.payload
  let calls := s.calls ++ [call]
  match payload.truthyBatchKey with
  | some batchKey =>
      match s.notificationBatchStore.get batchKey with
      | some existing =>
          ({ batchKey := some batchKey, batched := some true, delivered := false
             payload := (existing.join call).payload },
            { s with
              calls
              notificationBatchStore := s.notificationBatchStore.set batchKey (existing.join call) })
      | none =>
          ({ batchKey := some batchKey, batched := some true, delivered := false, payload },
            { s with
              calls
              timers := s.timers ++ [⟨batchKey, call.dispatcher⟩]
              notificationBatchStore := s.notificationBatchStore.set batchKey
                ⟨1, payload, [call]⟩ })
  | none =>
      ({ delivered := true, payload },
        { s with calls, sent := s.sent ++ [⟨call.dispatcher, payload, [call]⟩] })

/-- The timer with this number fires. -/
def Notifier.fire (s : Notifier δ) (i : Nat) (timer : BatchTimer δ) : Notifier δ :=
  let timers := s.timers.eraseIdx i
  match s.notificationBatchStore.get timer.batchKey with
  | none => { s with timers }
  | some entry =>
      { s with
        timers
        notificationBatchStore := s.notificationBatchStore.filter (·.1 ≠ timer.batchKey)
        sent := s.sent ++ [⟨timer.dispatcher, entry.payload, entry.calls⟩] }

/-- Calls are made and timers fire in any order; each call is made in a state that `guard`
allows. -/
inductive Notifier.Run (guard : Notifier δ → NotificationCall δ → Prop) : Notifier δ → Prop
  | start : Run guard {}
  | call {s : Notifier δ} (before : Run guard s) (call : NotificationCall δ)
      (allowed : guard s call) : Run guard (executeNotificationNode call s).2
  | fire {s : Notifier δ} (before : Run guard s) {i : Nat} {timer : BatchTimer δ}
      (there : s.timers[i]? = some timer) : Run guard (s.fire i timer)

/-! ## What is to hold -/

/-- The message goes to the recipient, and all calls that it stands for are of their tenant. -/
def SentNotification.Reaches (message : SentNotification δ) (recipient : Recipient) : Prop :=
  message.payload.channel = recipient.channel ∧ message.payload.address = recipient.address ∧
    ∀ call ∈ message.calls, call.tenantId = recipient.tenantId

/-- The message states how many calls it stands for, if it is an aggregate of several. -/
def SentNotification.StatesCount (message : SentNotification δ) : Prop :=
  2 ≤ message.calls.length → message.payload.message = aggregateMessage message.calls.length

/-- Everyone who was addressed has a message, and every message is for someone addressed by one
of the calls it stands for, who are all of that one's tenant. -/
structure Notifier.Delivered (s : Notifier δ) : Prop where
  reached : ∀ call ∈ s.calls, ∃ message ∈ s.sent, message.Reaches call.recipient
  counted : ∀ message ∈ s.sent, message.StatesCount
  own : ∀ message ∈ s.sent, ∃ call ∈ message.calls, message.Reaches call.recipient

/-- A call that joins a batch is for the recipient of the calls before it. -/
def JoinsOwn (s : Notifier δ) (call : NotificationCall δ) : Prop :=
  ∀ batchKey ∈ call.payload.truthyBatchKey, ∀ existing ∈ s.notificationBatchStore.get batchKey,
    ∀ earlier ∈ existing.calls, earlier.recipient = call.recipient

/-! ## The invariant -/

/-- The payload is for the one recipient of all the calls, and states their number. -/
structure Carries (payload : NotificationConfig) (calls : List (NotificationCall δ))
    (recipient : Recipient) : Prop where
  some : calls ≠ []
  same : ∀ call ∈ calls, call.recipient = recipient
  channel : payload.channel = recipient.channel
  address : payload.address = recipient.address
  counted : 2 ≤ calls.length → payload.message = aggregateMessage calls.length

theorem Carries.single (call : NotificationCall δ) :
    Carries call.payload [call] call.recipient where
  some := List.cons_ne_nil _ _
  same := by simp
  channel := rfl
  address := rfl
  counted several := absurd several (by simp)

theorem Carries.join {existing : NotificationBatch δ} {call : NotificationCall δ}
    (count : existing.count = existing.calls.length)
    (own : ∀ earlier ∈ existing.calls, earlier.recipient = call.recipient) :
    Carries (existing.join call).payload (existing.join call).calls call.recipient where
  some := by simp [NotificationBatch.join]
  same other inside := by
    rcases List.mem_append.mp inside with inside | last
    · exact own other inside
    · rw [List.mem_singleton.mp last]
  channel := rfl
  address := rfl
  counted _ := by simp [NotificationBatch.join, count]

/-- Where a message carries calls it reaches each of them. -/
theorem Carries.reaches {message : SentNotification δ} {recipient : Recipient}
    (carries : Carries message.payload message.calls recipient) {call : NotificationCall δ}
    (inside : call ∈ message.calls) : message.Reaches call.recipient := by
  rw [carries.same call inside]
  exact ⟨carries.channel, carries.address, fun other there =>
    congrArg Recipient.tenantId (carries.same other there)⟩

structure Notifier.Sound (s : Notifier δ) : Prop where
  /-- A batch waits for a timer. -/
  timed : ∀ batchKey batch, s.notificationBatchStore.get batchKey = some batch →
    ∃ timer ∈ s.timers, timer.batchKey = batchKey
  batches : ∀ batchKey batch, s.notificationBatchStore.get batchKey = some batch →
    batch.count = batch.calls.length ∧ ∃ recipient, Carries batch.payload batch.calls recipient
  sent : ∀ message ∈ s.sent, ∃ recipient, Carries message.payload message.calls recipient
  covered : ∀ call ∈ s.calls, (∃ message ∈ s.sent, call ∈ message.calls) ∨
    ∃ batchKey batch, s.notificationBatchStore.get batchKey = some batch ∧ call ∈ batch.calls

theorem Notifier.Sound.start : Notifier.Sound ({} : Notifier δ) where
  timed _ _ there := nomatch there
  batches _ _ there := nomatch there
  sent _ inside := nomatch inside
  covered _ inside := nomatch inside

/-- A batch is set that holds the new call, and all the calls of the one in its place. -/
theorem Notifier.Sound.set {s : Notifier δ} (sound : s.Sound) {batchKey : String}
    {batch : NotificationBatch δ} {call : NotificationCall δ} {timers : List (BatchTimer δ)}
    (kept : s.timers ⊆ timers) (timed : ∃ timer ∈ timers, timer.batchKey = batchKey)
    (count : batch.count = batch.calls.length) (carries : ∃ recipient, Carries batch.payload
      batch.calls recipient) (new : call ∈ batch.calls)
    (old : ∀ existing, s.notificationBatchStore.get batchKey = some existing →
      existing.calls ⊆ batch.calls) :
    Notifier.Sound { s with
      calls := s.calls ++ [call]
      timers
      notificationBatchStore := s.notificationBatchStore.set batchKey batch } where
  timed key other there := by
    dsimp only at there
    rw [OrderedMap.get_set] at there
    split at there
    · rename_i same
      rw [same]
      exact timed
    · obtain ⟨timer, inside, named⟩ := sound.timed key other there
      exact ⟨timer, kept inside, named⟩
  batches key other there := by
    dsimp only at there
    rw [OrderedMap.get_set] at there
    split at there
    · cases there
      exact ⟨count, carries⟩
    · exact sound.batches key other there
  sent := sound.sent
  covered other inside := by
    have own : (s.notificationBatchStore.set batchKey batch).get batchKey = some batch := by
      rw [OrderedMap.get_set, if_pos rfl]
    rcases List.mem_append.mp inside with inside | last
    · rcases sound.covered other inside with sent | ⟨key, existing, there, within⟩
      · exact .inl sent
      · by_cases same : key = batchKey
        · rw [same] at there
          exact .inr ⟨batchKey, batch, own, old existing there within⟩
        · refine .inr ⟨key, existing, ?_, within⟩
          dsimp only
          rw [OrderedMap.get_set, if_neg same, there]
    · rw [List.mem_singleton.mp last]
      exact .inr ⟨batchKey, batch, own, new⟩

theorem Notifier.Sound.call {s : Notifier δ} (sound : s.Sound) {call : NotificationCall δ}
    (own : JoinsOwn s call) : (executeNotificationNode call s).2.Sound := by
  unfold executeNotificationNode
  cases given : call.payload.truthyBatchKey with
  | none =>
      simp only [given]
      refine ⟨sound.timed, sound.batches, fun message inside => ?_, fun other inside => ?_⟩
      · rcases List.mem_append.mp inside with inside | last
        · exact sound.sent message inside
        · rw [List.mem_singleton.mp last]
          exact ⟨_, Carries.single call⟩
      · rcases List.mem_append.mp inside with inside | last
        · rcases sound.covered other inside with ⟨message, there, within⟩ | waiting
          · exact .inl ⟨message, List.mem_append_left _ there, within⟩
          · exact .inr waiting
        · rw [List.mem_singleton.mp last]
          exact .inl ⟨_, List.mem_append_right _ (List.mem_singleton_self _),
            List.mem_singleton_self _⟩
  | some batchKey =>
      cases there : s.notificationBatchStore.get batchKey with
      | none =>
          simp only [given, there]
          refine sound.set (List.subset_append_left _ _)
            ⟨_, List.mem_append_right _ (List.mem_singleton_self _), rfl⟩ rfl
            ⟨_, Carries.single call⟩ (List.mem_singleton_self _) fun existing other => ?_
          rw [there] at other
          cases other
      | some existing =>
          simp only [given, there]
          obtain ⟨count, _⟩ := sound.batches batchKey existing there
          refine sound.set (List.Subset.refl _) (sound.timed batchKey existing there)
            (by simp [NotificationBatch.join, count])
            ⟨_, Carries.join count (own batchKey given existing there)⟩
            (List.mem_append_right _ (List.mem_singleton_self _)) fun existing' same => ?_
          rw [there] at same
          cases same
          exact List.subset_append_left _ _

theorem Notifier.Sound.fire {s : Notifier δ} (sound : s.Sound) {i : Nat} {timer : BatchTimer δ}
    (fires : s.timers[i]? = some timer) : (s.fire i timer).Sound := by
  -- a batch under another key keeps its timer, which is not the one that fires
  have other {batchKey : String} {batch : NotificationBatch δ}
      (there : s.notificationBatchStore.get batchKey = some batch)
      (differs : batchKey ≠ timer.batchKey) :
      ∃ later ∈ s.timers.eraseIdx i, later.batchKey = batchKey := by
    obtain ⟨later, inside, rfl⟩ := sound.timed batchKey batch there
    refine ⟨later, ?_, rfl⟩
    obtain ⟨j, found⟩ := List.mem_iff_getElem?.mp inside
    refine List.mem_eraseIdx_iff_getElem?.mpr ⟨j, fun same => differs ?_, found⟩
    rw [same, fires] at found
    cases found
    rfl
  unfold Notifier.fire
  cases there : s.notificationBatchStore.get timer.batchKey with
  | none =>
      refine ⟨fun batchKey batch found => other found ?_, sound.batches, sound.sent, sound.covered⟩
      rintro rfl
      rw [there] at found
      cases found
  | some entry =>
      have filtered {batchKey : String} {batch : NotificationBatch δ}
          (left : (s.notificationBatchStore.filter (·.1 ≠ timer.batchKey)).get batchKey =
            some batch) :
          s.notificationBatchStore.get batchKey = some batch ∧ batchKey ≠ timer.batchKey := by
        rw [OrderedMap.get_filter, Option.filter_eq_some_iff] at left
        exact ⟨left.1, of_decide_eq_true left.2⟩
      refine ⟨fun batchKey batch left => other (filtered left).1 (filtered left).2,
        fun batchKey batch left => sound.batches batchKey batch (filtered left).1,
        fun message inside => ?_, fun call inside => ?_⟩
      · rcases List.mem_append.mp inside with inside | last
        · exact sound.sent message inside
        · rw [List.mem_singleton.mp last]
          exact (sound.batches timer.batchKey entry there).2
      · rcases sound.covered call inside with ⟨message, sent, within⟩ | ⟨key, batch, held, within⟩
        · exact .inl ⟨message, List.mem_append_left _ sent, within⟩
        · by_cases same : key = timer.batchKey
          · rw [same, there] at held
            cases held
            exact .inl ⟨_, List.mem_append_right _ (List.mem_singleton_self _), within⟩
          · refine .inr ⟨key, batch, ?_, within⟩
            dsimp only
            rw [OrderedMap.get_filter, held]
            exact Option.filter_some_pos (decide_eq_true same)

theorem Notifier.Run.sound {s : Notifier δ} (ran : Notifier.Run JoinsOwn s) : s.Sound := by
  induction ran with
  | start => exact .start
  | call _ call allowed ih => exact ih.call allowed
  | fire _ there ih => exact ih.fire there

/-- **Batched notifications are delivered.** In every run in which each call that joins a batch is
for the recipient of that batch, everyone addressed has a message once all timers have fired, and
each message states its number of calls and goes to their own recipient. -/
theorem Notifier.Run.delivered {s : Notifier δ} (ran : Notifier.Run JoinsOwn s)
    (fired : s.timers = []) : s.Delivered := by
  have sound := ran.sound
  refine ⟨fun call inside => ?_, fun message inside => ?_, fun message inside => ?_⟩
  · rcases sound.covered call inside with ⟨message, sent, within⟩ | ⟨key, batch, there, _⟩
    · obtain ⟨recipient, carries⟩ := sound.sent message sent
      exact ⟨message, sent, carries.reaches within⟩
    · obtain ⟨timer, left, _⟩ := sound.timed key batch there
      rw [fired] at left
      cases left
  · obtain ⟨recipient, carries⟩ := sound.sent message inside
    exact carries.counted
  · obtain ⟨recipient, carries⟩ := sound.sent message inside
    obtain ⟨call, within⟩ := List.exists_mem_of_ne_nil _ carries.some
    exact ⟨call, within, carries.reaches within⟩

/-! ### Two calls under one key -/

/-- A call that is batched under the key `alerts`. -/
def alertCall (tenantId address : String) : NotificationCall Unit where
  config := { batchKey := some "alerts", channel := .email, message := "!", address }
  tenantId
  context := .object []
  dispatcher := ()

/-- The process after the first call. -/
def alerted (tenantId address : String) : Notifier Unit :=
  (executeNotificationNode (alertCall tenantId address) {}).2

/-- Two calls for one recipient are delivered when the timer fires. -/
theorem oneRecipient_delivered :
    ((executeNotificationNode (alertCall "alpha" "ada") (alerted "alpha" "ada")).2.fire 0
      ⟨"alerts", ()⟩).Delivered := by
  have first : JoinsOwn ({} : Notifier Unit) (alertCall "alpha" "ada") := by
    intro batchKey _ existing there
    cases there
  have second : JoinsOwn (alerted "alpha" "ada") (alertCall "alpha" "ada") := by
    intro batchKey given existing there earlier inside
    have key : (alertCall "alpha" "ada").payload.truthyBatchKey = some "alerts" := by decide
    cases Option.some.inj (key.symm.trans given)
    have waiting : ((alerted "alpha" "ada").notificationBatchStore.get "alerts").map (·.calls) =
        some [alertCall "alpha" "ada"] := rfl
    rw [Option.mem_def.mp there] at waiting
    have calls : existing.calls = [alertCall "alpha" "ada"] := Option.some.inj waiting
    rw [calls] at inside
    rw [List.mem_singleton.mp inside]
  exact Notifier.Run.delivered (.fire (.call (.call .start _ first) _ second) rfl) rfl

/-- Two tenants use one key, and the recipient of the first gets nothing. -/
theorem twoTenants_not_delivered : ∃ s : Notifier Unit, Notifier.Run (fun _ _ => True) s ∧
    s.timers = [] ∧ s.calls.map (·.recipient) = [⟨"alpha", .email, "ada"⟩, ⟨"beta", .email, "bob"⟩] ∧
      s.sent.map (·.payload.address) = ["bob"] ∧ ¬ s.Delivered := by
  have ran : Notifier.Run (fun _ _ => True) ((executeNotificationNode (alertCall "beta" "bob")
      (alerted "alpha" "ada")).2.fire 0 ⟨"alerts", ()⟩) :=
    .fire (.call (.call .start (alertCall "alpha" "ada") trivial) (alertCall "beta" "bob") trivial) rfl
  have sent : (((executeNotificationNode (alertCall "beta" "bob") (alerted "alpha" "ada")).2.fire 0
      ⟨"alerts", ()⟩).sent.map (·.payload.address)) = ["bob"] := by decide
  refine ⟨_, ran, rfl, by decide, sent, fun delivered => ?_⟩
  obtain ⟨message, inside, _, address, _⟩ :=
    delivered.reached (alertCall "alpha" "ada") List.mem_cons_self
  have other := List.mem_map_of_mem (f := fun message : SentNotification Unit =>
    message.payload.address) inside
  rw [address] at other
  exact absurd (List.mem_singleton.mp (sent ▸ other)) (by decide)

end Workflow
