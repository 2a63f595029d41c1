import BirthHub.Data.Table
import BirthHub.Data.Trim

/-!
# Conversation threads

`ensureConversationThread` of `apps/worker/src/agents/conversations.ts`. A thread is looked up by
the first identifier that is given, without the white space around it; a new thread stores the
identifiers as they are given, and not the id that was asked for. Calls that identify one
conversation are therefore answered with one thread only where the first of them finds it, or
creates a thread that the others find.
-/

namespace Conversations

open Data

/-! ## Threads -/

structure ConversationThread where
  id : String
  tenantId : String
  organizationId : String
  connectorAccountId : Option String := none
  externalThreadId : Option String := none
  channel : String
  status : String
  subject : Option String := none
  correlationId : Option String := none
  leadReference : Option String := none
  customerReference : Option String := none
  metadata : Option Json := none
  createdAt : Int

instance : Schema ConversationThread where
  Key := String
  keys thread := [thread.id]

/-- The identifiers of a call; `null` and a missing one are the same to it. -/
structure Identification where
  threadId : Option String := none
  externalThreadId : Option String := none
  correlationId : Option String := none

structure EnsureInput extends Identification where
  organizationId : String
  tenantId : String
  channel : String
  connectorAccountId : Option String := none
  customerReference : Option String := none
  leadReference : Option String := none
  metadata : Option Json := none
  status : Option String := none
  subject : Option String := none

/-- What a call leaves open: which of several threads the database finds first, and the id and
the time of a new one. -/
structure EnsureChoice where
  pick : Nat := 0
  newId : String := ""
  now : Int := 0

/-- A text that is given and not empty. -/
def truthy (value : Option String) : Option String := value.filter (· ≠ "")

/-! ## Looking a thread up -/

/-- The identifier that decides. -/
inductive ThreadKey
  | id (value : String)
  | externalThreadId (value : String)
  | correlationId (value : String)

def ThreadKey.value : ThreadKey → String
  | id value | externalThreadId value | correlationId value => value

/-- The thread has the identifier. -/
def ThreadKey.names : ThreadKey → ConversationThread → Bool
  | id value, thread => thread.id = value
  | externalThreadId value, thread => thread.externalThreadId = some value
  | correlationId value, thread => thread.correlationId = some value

/-- `value?.trim()`, if there is something left. -/
def trimmed (value : Option String) : Option String := truthy (value.map trim)

def Identification.key (identification : Identification) : Option ThreadKey :=
  (trimmed identification.threadId).map .id <|>
    (trimmed identification.externalThreadId).map .externalThreadId <|>
    (trimmed identification.correlationId).map .correlationId

/-- The threads that may come first in the order of the latest. -/
def latest (threads : List ConversationThread) : List ConversationThread :=
  threads.filter fun thread => threads.all (·.createdAt ≤ thread.createdAt)

def ThreadKey.found (key : ThreadKey) (organizationId : String)
    (threads : List ConversationThread) : List ConversationThread :=
  threads.filter fun thread => key.names thread && decide (thread.organizationId = organizationId)

/-- The threads that `findFirst` may answer; only the correlation id comes with an order. -/
def ThreadKey.candidates (key : ThreadKey) (organizationId : String)
    (threads : List ConversationThread) : List ConversationThread :=
  match key with
  | .correlationId _ => latest (key.found organizationId threads)
  | _ => key.found organizationId threads

def resolveExistingThread (pick : Nat) (organizationId : String) (identification : Identification)
    (threads : List ConversationThread) : Option ConversationThread :=
  match identification.key with
  | none => none
  | some key =>
      let candidates := key.candidates organizationId threads
      candidates[pick % candidates.length]?

/-! ## Ensuring that there is one -/

/-- A column that is filled once. -/
def fill (stored given : Option String) : Option String :=
  if (truthy given).isSome ∧ (truthy stored).isNone then given else stored

/-- The thread with the data of `conversationThread.update`. -/
def ConversationThread.update (existing : ConversationThread) (input : EnsureInput) :
    ConversationThread :=
  { existing with
    connectorAccountId := fill existing.connectorAccountId input.connectorAccountId
    correlationId := fill existing.correlationId input.correlationId
    externalThreadId := fill existing.externalThreadId input.externalThreadId
    metadata := input.metadata <|> existing.metadata
    status := (truthy input.status).getD existing.status
    subject := fill existing.subject input.subject }

/-- The row of `conversationThread.create`. -/
def EnsureInput.thread (input : EnsureInput) (choice : EnsureChoice) : ConversationThread where
  id := choice.newId
  tenantId := input.tenantId
  organizationId := input.organizationId
  connectorAccountId := truthy input.connectorAccountId
  externalThreadId := truthy input.externalThreadId
  channel := input.channel
  status := input.status.getD "open"
  subject := truthy input.subject
  correlationId := truthy input.correlationId
  leadReference := truthy input.leadReference
  customerReference := truthy input.customerReference
  metadata := input.metadata
  createdAt := choice.now

/-- `none` when a new thread is given an id that there is already. -/
def ensureConversationThread (choice : EnsureChoice) (input : EnsureInput)
    (threads : Table ConversationThread) :
    Option (ConversationThread × Table ConversationThread) :=
  match resolveExistingThread choice.pick input.organizationId input.toIdentification
      threads.rows with
  | some existing => some (existing.update input,
      threads.update (·.id = existing.id) (·.update input) fun _ => rfl)
  | none => (threads.insert (input.thread choice)).map fun threads =>
      (input.thread choice, threads)

/-- Calls one after another, with the threads they return. -/
def ensureAll (threads : Table ConversationThread) :
    List (EnsureChoice × EnsureInput) →
      Option (List ConversationThread × Table ConversationThread)
  | [] => some ([], threads)
  | (choice, input) :: calls =>
      (ensureConversationThread choice input threads).bind fun (thread, threads) =>
        (ensureAll threads calls).map fun (returned, threads) => (thread :: returned, threads)

/-- The input of `executeWhatsappSend`: the thread of the action is given as both identifiers. -/
def whatsappSendInput (organizationId tenantId executionId : String)
    (actionThreadId connectorAccountId : Option String) (metadata : Json) : EnsureInput where
  threadId := truthy actionThreadId
  externalThreadId := truthy actionThreadId
  correlationId := some executionId
  organizationId
  tenantId
  channel := "whatsapp"
  connectorAccountId := truthy connectorAccountId
  metadata := some metadata

/-! ## Candidates -/

theorem exists_latest {threads : List ConversationThread} (some : threads ≠ []) :
    ∃ thread, thread ∈ latest threads := by
  obtain ⟨first, rest, rfl⟩ := List.exists_cons_of_ne_nil some
  suffices ∃ thread ∈ first :: rest, ∀ other ∈ first :: rest, other.createdAt ≤ thread.createdAt by
    obtain ⟨thread, there, last⟩ := this
    exact ⟨thread, List.mem_filter.mpr ⟨there, by simpa using last⟩⟩
  induction rest generalizing first with
  | nil => exact ⟨first, List.mem_singleton_self _, by simp⟩
  | cons second rest ih =>
      obtain ⟨thread, there, last⟩ := ih second (by simp)
      by_cases newer : thread.createdAt ≤ first.createdAt
      · refine ⟨first, List.mem_cons_self, fun other inside => ?_⟩
        rcases List.mem_cons.mp inside with rfl | inside
        · exact le_refl _
        · exact (last other inside).trans newer
      · refine ⟨thread, List.mem_cons_of_mem _ there, fun other inside => ?_⟩
        rcases List.mem_cons.mp inside with rfl | inside
        · omega
        · exact last other inside

section

variable {key : ThreadKey} {organizationId : String} {threads : List ConversationThread}

theorem candidates_subset : key.candidates organizationId threads ⊆ key.found organizationId threads := by
  cases key with
  | correlationId value => exact List.filter_sublist.subset
  | id value => exact List.Subset.refl _
  | externalThreadId value => exact List.Subset.refl _

theorem candidates_sublist : (key.candidates organizationId threads).Sublist threads := by
  cases key with
  | correlationId value => exact List.filter_sublist.trans List.filter_sublist
  | id value => exact List.filter_sublist
  | externalThreadId value => exact List.filter_sublist

theorem candidates_eq_nil :
    key.candidates organizationId threads = [] ↔ key.found organizationId threads = [] := by
  constructor
  · intro none
    by_contra some
    cases key with
    | correlationId value =>
        obtain ⟨thread, there⟩ := exists_latest some
        have none : latest _ = [] := none
        rw [none] at there
        cases there
    | id value => exact some none
    | externalThreadId value => exact some none
  · intro none
    exact List.subset_nil.mp (none ▸ candidates_subset)

theorem names_of_candidate {thread : ConversationThread}
    (candidate : thread ∈ key.candidates organizationId threads) :
    thread ∈ threads ∧ key.names thread = true ∧ thread.organizationId = organizationId := by
  have found := List.mem_filter.mp (candidates_subset candidate)
  simpa using found

theorem candidates_map {f : ConversationThread → ConversationThread}
    (names : ∀ thread ∈ threads, key.names (f thread) = key.names thread)
    (organization : ∀ thread, (f thread).organizationId = thread.organizationId)
    (created : ∀ thread, (f thread).createdAt = thread.createdAt) :
    key.candidates organizationId (threads.map f) =
      (key.candidates organizationId threads).map f := by
  have found : key.found organizationId (threads.map f) =
      (key.found organizationId threads).map f := by
    rw [ThreadKey.found, List.filter_map]
    refine congrArg (List.map f) (List.filter_congr fun thread there => ?_)
    simp [names thread there, organization]
  have sorted (rows : List ConversationThread) : latest (rows.map f) = (latest rows).map f := by
    rw [latest, List.filter_map]
    refine congrArg (List.map f) (List.filter_congr fun thread there => ?_)
    simp [created, Function.comp_def]
  cases key with
  | correlationId value => exact (congrArg latest found).trans (sorted _)
  | id value => exact found
  | externalThreadId value => exact found

/-- A new thread is the only candidate, or none, where there was none. -/
theorem candidates_append {thread : ConversationThread}
    (none : key.candidates organizationId threads = []) :
    key.candidates organizationId (threads ++ [thread]) =
      if key.names thread ∧ thread.organizationId = organizationId then [thread] else [] := by
  have before := candidates_eq_nil.mp none
  have found : key.found organizationId (threads ++ [thread]) =
      if key.names thread ∧ thread.organizationId = organizationId then [thread] else [] := by
    rw [ThreadKey.found, List.filter_append]
    show key.found organizationId threads ++ _ = _
    rw [before, List.nil_append, List.filter_singleton]
    simp [Bool.cond_eq_ite]
  have alone : latest [thread] = [thread] := by simp [latest]
  cases key with
  | correlationId value =>
      refine (congrArg latest found).trans ?_
      split
      · exact alone
      · rfl
  | id value => exact found
  | externalThreadId value => exact found

end

/-! ## One call -/

theorem truthy_eq_some {value : Option String} {text : String} :
    truthy value = some text ↔ value = some text ∧ text ≠ "" := by
  simp [truthy, Option.filter_eq_some_iff]

theorem key_nonempty {identification : Identification} {key : ThreadKey}
    (given : identification.key = some key) : key.value ≠ "" := by
  have nonempty {value : Option String} {text : String} (left : trimmed value = some text) :
      text ≠ "" := (truthy_eq_some.mp left).2
  simp only [Identification.key, Option.orElse_eq_some, Option.map_eq_some_iff,
    Option.map_eq_none_iff] at given
  rcases given with ⟨text, left, rfl⟩ | ⟨_, ⟨text, left, rfl⟩ | ⟨_, text, left, rfl⟩⟩
  · exact nonempty left
  · exact nonempty left
  · exact nonempty left

theorem fill_of_given {stored given : Option String} {text : String} (there : stored = some text)
    (nonempty : text ≠ "") : fill stored given = stored := by
  have filled : (truthy stored).isNone = false := by
    rw [truthy_eq_some.mpr ⟨there, nonempty⟩]
    rfl
  rw [fill, if_neg (by simp [filled])]

theorem names_update {key : ThreadKey} {thread : ConversationThread} {input : EnsureInput}
    (nonempty : key.value ≠ "") (named : key.names thread = true) :
    key.names (thread.update input) = true := by
  cases key with
  | id value => exact named
  | externalThreadId value =>
      have there : thread.externalThreadId = some value := of_decide_eq_true named
      exact decide_eq_true ((fill_of_given there nonempty).trans there)
  | correlationId value =>
      have there : thread.correlationId = some value := of_decide_eq_true named
      exact decide_eq_true ((fill_of_given there nonempty).trans there)

/-- The changed table, as a map over the threads. -/
def touch (existing : ConversationThread) (input : EnsureInput) (thread : ConversationThread) :
    ConversationThread :=
  if decide (thread.id = existing.id) then thread.update input else thread

theorem touch_id {existing thread : ConversationThread} {input : EnsureInput} :
    (touch existing input thread).id = thread.id := by
  unfold touch
  split <;> rfl

section

variable {threads threads' : Table ConversationThread} {choice : EnsureChoice} {input : EnsureInput}
  {thread : ConversationThread} {key : ThreadKey}

theorem eq_of_id {a b : ConversationThread} (inA : a ∈ threads.rows) (inB : b ∈ threads.rows)
    (same : a.id = b.id) : a = b :=
  Table.eq_of_keys (ρ := ConversationThread) (k := a.id) inA inB (List.mem_singleton_self _)
    (List.mem_singleton.mpr same)

/-- A call that finds candidates returns one of them, and they stay the candidates. -/
theorem ensure_found (choice : EnsureChoice) (input : EnsureInput)
    (identified : input.key = some key)
    (some : key.candidates input.organizationId threads.rows ≠ []) :
    ∃ existing ∈ key.candidates input.organizationId threads.rows,
      (key.candidates input.organizationId threads.rows)[choice.pick %
        (key.candidates input.organizationId threads.rows).length]? = .some existing ∧
      ∃ threads', ensureConversationThread choice input threads =
          .some (existing.update input, threads') ∧
        threads'.rows = threads.rows.map (touch existing input) ∧
        key.candidates input.organizationId threads'.rows =
          (key.candidates input.organizationId threads.rows).map (touch existing input) := by
  have bound := Nat.mod_lt choice.pick (List.length_pos_iff.mpr some)
  obtain ⟨existing, picked⟩ : ∃ existing, (key.candidates input.organizationId
      threads.rows)[choice.pick % (key.candidates input.organizationId threads.rows).length]? =
        .some existing := ⟨_, List.getElem?_eq_getElem bound⟩
  have candidate := List.mem_of_getElem? picked
  have resolved : resolveExistingThread choice.pick input.organizationId input.toIdentification
      threads.rows = .some existing := by
    rw [resolveExistingThread, identified]
    exact picked
  obtain ⟨there, named, _⟩ := names_of_candidate candidate
  refine ⟨existing, candidate, picked, threads.update (·.id = existing.id) (·.update input)
    fun _ => rfl, by rw [ensureConversationThread, resolved], rfl, ?_⟩
  refine candidates_map (f := touch existing input) (fun other inside => ?_) (fun other => ?_)
    fun other => ?_
  · unfold touch
    split
    · rename_i same
      obtain rfl := eq_of_id inside there (of_decide_eq_true same)
      rw [named, names_update (key_nonempty identified) named]
    · rfl
  · unfold touch
    split <;> rfl
  · unfold touch
    split <;> rfl

theorem ensure_created (missing : ∀ key, input.key = some key →
      key.candidates input.organizationId threads.rows = [])
    (ensured : ensureConversationThread choice input threads = some (thread, threads')) :
    thread = input.thread choice ∧ threads'.rows = threads.rows ++ [thread] := by
  have resolved : resolveExistingThread choice.pick input.organizationId input.toIdentification
      threads.rows = none := by
    unfold resolveExistingThread
    cases identified : input.key with
    | none => rfl
    | some key =>
        dsimp only
        rw [missing key identified]
        rfl
  rw [ensureConversationThread, resolved] at ensured
  obtain ⟨_, inserted, same⟩ := Option.map_eq_some_iff.mp ensured
  cases same
  exact ⟨rfl, (Table.insert_eq_some.mp inserted).1⟩

/-- The identifier is stored with a new thread, as it is looked up. -/
def Identification.Stores (identification : Identification) : ThreadKey → Prop
  | .id _ => False
  | .externalThreadId value => identification.externalThreadId = some value
  | .correlationId value => identification.correlationId = some value

theorem names_thread (nonempty : key.value ≠ "") (other : key ≠ .id choice.newId) :
    key.names (input.thread choice) = true ↔ input.Stores key := by
  cases key with
  | id value =>
      refine iff_of_false (fun named => other ?_) id
      have named : choice.newId = value := of_decide_eq_true named
      rw [named]
  | externalThreadId value =>
      refine decide_eq_true_iff.trans (truthy_eq_some.trans ?_)
      exact and_iff_left nonempty
  | correlationId value =>
      refine decide_eq_true_iff.trans (truthy_eq_some.trans ?_)
      exact and_iff_left nonempty

end

/-! ## Every sequence of calls -/

/-- The calls are about the conversation with these identifiers. -/
def AllIdentify (organizationId : String) (identification : Identification)
    (calls : List (EnsureChoice × EnsureInput)) : Prop :=
  ∀ call ∈ calls, call.2.organizationId = organizationId ∧ call.2.toIdentification = identification

/-- However often the conversation is asked for, there is one thread for it, and at most one is
created. -/
def Stable (organizationId : String) (identification : Identification)
    (threads : Table ConversationThread) : Prop :=
  ∀ calls, AllIdentify organizationId identification calls → ∀ returned threads',
    ensureAll threads calls = some (returned, threads') →
      (∀ a ∈ returned, ∀ b ∈ returned, a.id = b.id) ∧
        threads'.rows.length ≤ threads.rows.length + 1

/-- The search has one candidate, or a thread that is created becomes it. -/
def Resolves (organizationId : String) (identification : Identification)
    (threads : List ConversationThread) : Prop :=
  ∃ key, identification.key = some key ∧
    ((key.candidates organizationId threads).length = 1 ∨
      key.candidates organizationId threads = [] ∧ identification.Stores key)

theorem ensureAll_cons {threads threads' : Table ConversationThread} {choice : EnsureChoice}
    {input : EnsureInput} {calls : List (EnsureChoice × EnsureInput)}
    {returned : List ConversationThread}
    (ensured : ensureAll threads ((choice, input) :: calls) = some (returned, threads')) :
    ∃ thread middle rest, ensureConversationThread choice input threads = some (thread, middle) ∧
      ensureAll middle calls = some (rest, threads') ∧ returned = thread :: rest := by
  obtain ⟨⟨thread, middle⟩, first, ensured⟩ := Option.bind_eq_some_iff.mp ensured
  obtain ⟨⟨rest, last⟩, others, same⟩ := Option.map_eq_some_iff.mp ensured
  cases same
  exact ⟨thread, middle, rest, first, others, rfl⟩

/-- Where there is one candidate, every call returns it and none creates a thread. -/
theorem ensureAll_of_one {organizationId : String} {identification : Identification}
    {key : ThreadKey} (identified : identification.key = some key)
    {calls : List (EnsureChoice × EnsureInput)}
    (identify : AllIdentify organizationId identification calls)
    {threads threads' : Table ConversationThread} {one : ConversationThread}
    (candidates : key.candidates organizationId threads.rows = [one])
    {returned : List ConversationThread}
    (ensured : ensureAll threads calls = some (returned, threads')) :
    (∀ thread ∈ returned, thread.id = one.id) ∧ threads'.rows.length = threads.rows.length := by
  induction calls generalizing threads one returned with
  | nil =>
      cases ensured
      exact ⟨fun _ inside => (List.not_mem_nil inside).elim, rfl⟩
  | cons call calls ih =>
      obtain ⟨choice, input⟩ := call
      obtain ⟨thread, middle, rest, first, others, rfl⟩ := ensureAll_cons ensured
      obtain ⟨rfl, rfl⟩ := identify (choice, input) List.mem_cons_self
      obtain ⟨existing, candidate, _, middle', ran, rows, kept⟩ :=
        ensure_found choice input identified (by rw [candidates]; exact List.cons_ne_nil _ _)
      rw [first] at ran
      cases ran
      rw [candidates] at candidate kept
      obtain rfl := List.mem_singleton.mp candidate
      obtain ⟨same, count⟩ := ih (fun call inside => identify call (List.mem_cons_of_mem _ inside))
        kept others
      refine ⟨fun thread inside => ?_, by rw [count, rows, List.length_map]⟩
      rcases List.mem_cons.mp inside with rfl | inside
      · rfl
      · rw [same thread inside, touch_id]

theorem stable_of_resolves {organizationId : String} {identification : Identification}
    {threads : Table ConversationThread}
    (resolves : Resolves organizationId identification threads.rows) :
    Stable organizationId identification threads := by
  obtain ⟨key, identified, one | ⟨none, stores⟩⟩ := resolves
  · intro calls identify returned threads' ensured
    obtain ⟨one, candidates⟩ := List.length_eq_one_iff.mp one
    obtain ⟨same, count⟩ := ensureAll_of_one identified identify candidates ensured
    exact ⟨fun a inA b inB => (same a inA).trans (same b inB).symm, by omega⟩
  · intro calls identify returned threads' ensured
    cases calls with
    | nil =>
        cases ensured
        exact ⟨fun _ inside => (List.not_mem_nil inside).elim, Nat.le_succ _⟩
    | cons call calls =>
        obtain ⟨choice, input⟩ := call
        obtain ⟨thread, middle, rest, first, others, rfl⟩ := ensureAll_cons ensured
        obtain ⟨rfl, rfl⟩ := identify (choice, input) List.mem_cons_self
        have missing (key' : ThreadKey) (given : input.key = some key') :
            key'.candidates input.organizationId threads.rows = [] := by
          cases identified.symm.trans given
          exact none
        obtain ⟨rfl, rows⟩ := ensure_created missing first
        have other : key ≠ .id choice.newId := by
          rintro rfl
          exact stores
        have named := (names_thread (key_nonempty identified) other).mpr stores
        have candidates : key.candidates input.organizationId middle.rows =
            [input.thread choice] := by
          rw [rows, candidates_append none, if_pos ⟨named, rfl⟩]
        obtain ⟨same, count⟩ := ensureAll_of_one identified
          (fun call inside => identify call (List.mem_cons_of_mem _ inside)) candidates others
        have each : ∀ a ∈ input.thread choice :: rest, a.id = (input.thread choice).id := by
          intro a inside
          rcases List.mem_cons.mp inside with rfl | inside
          · rfl
          · exact same a inside
        refine ⟨fun a inA b inB => (each a inA).trans (each b inB).symm, ?_⟩
        rw [count, rows, List.length_append, List.length_singleton]

/-! ### Where it is not stable -/

theorem exists_new (texts : List String) : ∃ id, id ∉ texts := by
  obtain ⟨n, bound⟩ : ∃ n, ∀ text ∈ texts, text.length < n := by
    induction texts with
    | nil => exact ⟨0, fun _ inside => (List.not_mem_nil inside).elim⟩
    | cons first rest ih =>
        obtain ⟨n, bound⟩ := ih
        refine ⟨max n (first.length + 1), fun text inside => ?_⟩
        rcases List.mem_cons.mp inside with rfl | inside
        · omega
        · have shorter := bound text inside
          omega
  refine ⟨String.ofList (List.replicate n 'c'), fun inside => ?_⟩
  have shorter := bound _ inside
  rw [String.length_ofList, List.length_replicate] at shorter
  exact lt_irrefl n shorter

/-- A new thread can always be stored, under an id that is not among some. -/
theorem exists_ensure (texts : List String) (input : EnsureInput)
    {threads : Table ConversationThread}
    (missing : ∀ key, input.key = some key →
      key.candidates input.organizationId threads.rows = []) :
    ∃ choice threads', choice.newId ∉ texts ∧
      ensureConversationThread choice input threads = some (input.thread choice, threads') := by
  obtain ⟨newId, new⟩ := exists_new (threads.rows.map (·.id) ++ texts)
  rw [List.mem_append, not_or] at new
  obtain ⟨threads', inserted⟩ := Table.exists_insert (t := threads)
    (r := input.thread { newId }) fun thread there => by
      refine List.disjoint_singleton.mpr fun same => new.1 ?_
      exact List.mem_map.mpr ⟨thread, there, (List.mem_singleton.mp same).symm⟩
  refine ⟨{ newId }, threads', new.2, ?_⟩
  have resolved : resolveExistingThread 0 input.organizationId input.toIdentification
      threads.rows = none := by
    unfold resolveExistingThread
    cases identified : input.key with
    | none => rfl
    | some key =>
        dsimp only
        rw [missing key identified]
        rfl
  rw [ensureConversationThread, resolved]
  exact congrArg (Option.map fun threads => (input.thread { newId }, threads)) inserted

/-- The input of a call about the conversation. -/
def plainInput (organizationId : String) (identification : Identification) : EnsureInput :=
  { identification with organizationId, tenantId := "", channel := "" }

theorem ensureAll_two {threads middle last : Table ConversationThread} {first second : EnsureChoice}
    {input : EnsureInput} {a b : ConversationThread}
    (ranFirst : ensureConversationThread first input threads = some (a, middle))
    (ranSecond : ensureConversationThread second input middle = some (b, last)) :
    ensureAll threads [(first, input), (second, input)] = some ([a, b], last) := by
  simp [ensureAll, ranFirst, ranSecond]

/-- A conversation that is not found and whose new thread is not found either gets a thread with
every call. -/
theorem not_stable_of_missing {organizationId : String} {identification : Identification}
    {threads : Table ConversationThread}
    (missing : ∀ key, identification.key = some key →
      key.candidates organizationId threads.rows = [] ∧ ¬ identification.Stores key) :
    ¬ Stable organizationId identification threads := by
  intro stable
  let input := plainInput organizationId identification
  obtain ⟨first, middle, other, ranFirst⟩ :=
    exists_ensure (identification.key.map ThreadKey.value).toList input
      fun key given => (missing key given).1
  obtain ⟨_, rows⟩ := @ensure_created threads middle first input _ (fun key given => (missing key given).1)
    ranFirst
  have still (key : ThreadKey) (given : input.key = some key) :
      key.candidates input.organizationId middle.rows = [] := by
    have given : identification.key = some key := given
    have differs : key ≠ .id first.newId := by
      rintro rfl
      exact other (by rw [given]; exact List.mem_singleton_self _)
    have unnamed : ¬ key.names (input.thread first) = true := fun named =>
      (missing key given).2 ((names_thread (key_nonempty given) differs).mp named)
    rw [rows]
    exact (candidates_append (missing key given).1).trans (if_neg fun named => unnamed named.1)
  obtain ⟨second, last, _, ranSecond⟩ := exists_ensure [] input still
  obtain ⟨_, rows'⟩ := @ensure_created middle last second input _ still ranSecond
  have count := (stable _ (by simp [AllIdentify, input, plainInput]) _ _
    (ensureAll_two ranFirst ranSecond)).2
  rw [rows', rows, List.length_append, List.length_append] at count
  simp at count

/-- Where several candidates may be answered, two calls may return different threads. -/
theorem not_stable_of_several {organizationId : String} {identification : Identification}
    {key : ThreadKey} {threads : Table ConversationThread} (given : identification.key = some key)
    (several : 1 < (key.candidates organizationId threads.rows).length) :
    ¬ Stable organizationId identification threads := by
  intro stable
  let input := plainInput organizationId identification
  have some : key.candidates input.organizationId threads.rows ≠ [] :=
    List.length_pos_iff.mp (Nat.lt_of_succ_lt several)
  obtain ⟨a, _, first, middle, ranFirst, _, kept⟩ :=
    ensure_found { pick := 0 } input given some
  have some' : key.candidates input.organizationId middle.rows ≠ [] := by
    rw [kept]
    exact fun none => some (List.map_eq_nil_iff.mp none)
  obtain ⟨b, _, second, last, ranSecond, _, _⟩ :=
    ensure_found { pick := 1 } input given some'
  have same := (stable _ (by simp [AllIdentify, input, plainInput]) _ _
    (ensureAll_two ranFirst ranSecond)).1 _ List.mem_cons_self _
      (List.mem_cons_of_mem _ List.mem_cons_self)
  have several : 1 < (key.candidates input.organizationId threads.rows).length := several
  rw [kept, List.length_map, Nat.mod_eq_of_lt several, List.getElem?_map,
    List.getElem?_eq_getElem several] at second
  rw [Nat.zero_mod, List.getElem?_eq_getElem (Nat.lt_of_succ_lt several)] at first
  have ids : ((key.candidates input.organizationId threads.rows)[0]).id =
      ((key.candidates input.organizationId threads.rows)[1]).id := by
    have same : a.id = b.id := same
    rw [← Option.some.inj second, touch_id, ← Option.some.inj first] at same
    exact same
  have distinct : (key.candidates input.organizationId threads.rows).Pairwise
      fun a b => a.id ≠ b.id := by
    refine List.Pairwise.sublist candidates_sublist (threads.unique.imp fun apart same => ?_)
    exact apart (List.mem_singleton_self _) (List.mem_singleton.mpr same)
  exact List.pairwise_iff_getElem.mp distinct 0 1 _ several Nat.zero_lt_one ids

/-- **Threads are stable** just when the first identifier that is given leads to one thread, or to
none while a new thread stores it as it is looked up. -/
theorem stable_iff {organizationId : String} {identification : Identification}
    {threads : Table ConversationThread} :
    Stable organizationId identification threads ↔
      Resolves organizationId identification threads.rows := by
  refine ⟨fun stable => ?_, stable_of_resolves⟩
  by_contra unresolved
  cases given : identification.key with
  | none =>
      refine not_stable_of_missing (fun key other => ?_) stable
      rw [given] at other
      cases other
  | some key =>
      rcases lt_trichotomy (key.candidates organizationId threads.rows).length 1 with
        none | one | several
      · have none := List.length_eq_zero_iff.mp (Nat.lt_one_iff.mp none)
        refine not_stable_of_missing (fun key' same => ?_) stable
        cases given.symm.trans same
        exact ⟨none, fun stores => unresolved ⟨key, given, .inr ⟨none, stores⟩⟩⟩
      · exact unresolved ⟨key, given, .inl one⟩
      · exact not_stable_of_several given several stable

/-! ### Messages to a number -/

/-- A workflow sends a message to a number that it gives as the thread. -/
def sendInput : EnsureInput :=
  whatsappSendInput "org" "tenant" "execution" (some "+5511999999999") none .null

/-- Each of two sends creates a thread. -/
theorem sends_not_stable :
    ∃ returned threads, ensureAll .empty [({ newId := "c1" }, sendInput),
        ({ newId := "c2" }, sendInput)] = some (returned, threads) ∧
      returned.map (·.id) = ["c1", "c2"] ∧ threads.rows.map (·.id) = ["c1", "c2"] ∧
      ¬ Stable "org" sendInput.toIdentification .empty := by
  have ran : (ensureAll .empty [({ newId := "c1" }, sendInput),
      ({ newId := "c2" }, sendInput)]).any (fun result =>
        result.1.map (·.id) = ["c1", "c2"] ∧ result.2.rows.map (·.id) = ["c1", "c2"]) = true := by
    decide
  cases ensured : ensureAll .empty [({ newId := "c1" }, sendInput),
      ({ newId := "c2" }, sendInput)] with
  | none =>
      rw [ensured] at ran
      cases ran
  | some result =>
      rw [ensured] at ran
      obtain ⟨returned, stored⟩ := of_decide_eq_true ran
      refine ⟨result.1, result.2, rfl, returned, stored, fun stable => ?_⟩
      have count := (stable _ (by simp [AllIdentify, sendInput, whatsappSendInput]) _ _ ensured).2
      have two := congrArg List.length stored
      rw [List.length_map] at two
      rw [two] at count
      exact absurd count (by decide)

end Conversations
