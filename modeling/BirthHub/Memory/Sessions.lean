import BirthHub.Data.JsonValue
import BirthHub.Effect.Moves
import BirthHub.Effect.ReadModifyWrite
import BirthHub.Memory.Conversation
import BirthHub.Memory.Namespaces

/-!
# Conversations of sessions

The context of a conversation is kept under the key of its session. `clearBySession` deletes what
a pattern matches, and `appendConversationMessage` reads the context and stores it later with one
more message. `sessions_kept` says when clearing leaves other sessions alone, and that no message
is lost when no call reads while another one has read and not yet stored.
-/

namespace Memory

open Data Effect

/-! ## Contexts -/

structure ConversationContext where
  sessionId : String
  messages : List ConversationMessage
  metadata : Json
  updatedAt : String

def ConversationRole.text : ConversationRole → String
  | .assistant => "assistant"
  | .system => "system"
  | .tool => "tool"
  | .user => "user"

def ConversationMessage.toJson (message : ConversationMessage) : Json :=
  .object [("content", .string message.content), ("createdAt", .string message.createdAt),
    ("role", .string message.role.text)]

def ConversationContext.toJson (context : ConversationContext) : Json :=
  .object [("sessionId", .string context.sessionId),
    ("messages", .array (context.messages.map (·.toJson))),
    ("metadata", context.metadata), ("updatedAt", .string context.updatedAt)]

def ConversationRole.ofText (text : String) : Option ConversationRole :=
  if text = "assistant" then some .assistant
  else if text = "system" then some .system
  else if text = "tool" then some .tool
  else if text = "user" then some .user
  else none

def textOf : Value → Option String
  | .string text => some text
  | _ => none

/-- The message that a value is. -/
def ConversationMessage.ofValue : Value → Option ConversationMessage
  | .object members => do
      let content ← (members.lookup "content").bind textOf
      let createdAt ← (members.lookup "createdAt").bind textOf
      let role ← ((members.lookup "role").bind textOf).bind ConversationRole.ofText
      pure { role, content, createdAt }
  | _ => none

/-- The context that a value is; no other values are stored under keys of conversations. -/
def ConversationContext.ofValue : Value → Option ConversationContext
  | .object members => do
      let sessionId ← (members.lookup "sessionId").bind textOf
      let messages ← (members.lookup "messages").bind fun
        | .array items => items.mapM ConversationMessage.ofValue
        | _ => none
      let metadata ← members.lookup "metadata"
      let updatedAt ← (members.lookup "updatedAt").bind textOf
      pure { sessionId, messages, metadata := .ofValue metadata, updatedAt }
  | _ => none

/-! ## The calls -/

/-- `compressConversationMessages` of an array of objects, with the estimate of the service. -/
def compressMessages (messages : List ConversationMessage) (tokenBudget : ℚ) :
    List ConversationMessage :=
  (compressConversationMessages Prod.fst estimateTokenCount messages.zipIdx tokenBudget).map Prod.fst

/-- What `appendConversationMessage` is given besides the session, and what `new Date()` prints
each time that the call makes one. -/
structure AppendCall where
  role : ConversationRole
  content : String
  createdAt : Option String := none
  metadata : Option Json := none
  tokenBudget : Option ℚ := none
  ttlSeconds : Option ℚ := none
  dates : Nat → String

def conversationKey (sessionId : String) : String := s!"conversation:{sessionId}"

def upsertConversationContext (tenantId agentId : String) (context : ConversationContext)
    (tokenBudget ttlSeconds : Option ℚ) (updatedAt : String) :
    Prog MemoryIface ConversationContext := do
  let normalizedContext := { context with
    messages := compressMessages context.messages (tokenBudget.getD defaultTokenBudget)
    updatedAt }
  let _ ← store tenantId agentId (conversationKey context.sessionId) normalizedContext.toJson
    ttlSeconds
  pure normalizedContext

/-- The value as a context. -/
def contextOf : Option Value → Except Thrown (Option ConversationContext)
  | none => .ok none
  | some value =>
      match ConversationContext.ofValue value with
      | some context => .ok (some context)
      | none => .error { message := none, code := some "TypeError" }

def getConversationContext (tenantId agentId sessionId : String) :
    Prog MemoryIface (Option ConversationContext) := do
  let value ← get tenantId agentId (conversationKey sessionId)
  Prog.ofExcept (contextOf value)

/-- The context with the message of the call. -/
def AppendCall.nextContext (call : AppendCall) (sessionId : String)
    (found : Option ConversationContext) : ConversationContext :=
  let currentContext := found.getD
    { sessionId, messages := [], metadata := call.metadata.getD (.object []), updatedAt := call.dates 0 }
  { currentContext with
    metadata := call.metadata.getD currentContext.metadata
    messages := currentContext.messages ++ [{
      content := call.content, createdAt := call.createdAt.getD (call.dates 1), role := call.role }]
    updatedAt := call.dates 2 }

def appendConversationMessage (tenantId agentId sessionId : String) (call : AppendCall) :
    Prog MemoryIface ConversationContext := do
  let found ← getConversationContext tenantId agentId sessionId
  upsertConversationContext tenantId agentId (call.nextContext sessionId found) call.tokenBudget
    call.ttlSeconds (call.dates 3)

def sessionPattern (tenantId agentId sessionId : String) : String :=
  s!"{tenantId}:{agentId}:conversation:{sessionId}*"

def clearBySession (tenantId agentId sessionId : String) : Prog MemoryIface Nat := do
  let keys ← await (.keys (sessionPattern tenantId agentId sessionId))
  deleteAll keys

/-! ## Clearing -/

/-- The key of the context of a session. -/
def contextKey (tenantId agentId sessionId : String) : String :=
  s!"{tenantId}:{agentId}:{conversationKey sessionId}"

/-- Ids that are not blank and without separators. -/
def IsSessionId (sessionId : String) : Prop := trim sessionId ≠ "" ∧ ':' ∉ sessionId.toList

/-- Clearing the session removes its context and that of no other one. -/
def ClearsOnly (tenantId agentId sessionId : String) (ids : Set String) (backend : InMemory) : Prop :=
  ∀ x backend', memoryService.Exec (clearBySession tenantId agentId sessionId) backend x backend' →
    ∀ now, backend'.clock ≤ now →
      backend'.entry now (contextKey tenantId agentId sessionId) = none ∧
        ∀ other ∈ ids, other ≠ sessionId →
          backend'.entry now (contextKey tenantId agentId other) =
            backend.entry now (contextKey tenantId agentId other)

section Clearing

variable {tenantId agentId sessionId : String} {s s' : InMemory} {keys : List String}
  {x : Except Thrown Nat}

theorem clock_le_elapsed (s : InMemory) (elapsed : Nat) : s.clock ≤ s.clock + elapsed := by
  omega

theorem deleteAll_exec (ran : memoryService.Exec (deleteAll keys) s x s') :
    s.clock ≤ s'.clock ∧
      ∀ key, s'.records.get key = if key ∈ keys then none else s.records.get key := by
  induction keys generalizing s x with
  | nil =>
      obtain ⟨-, rfl⟩ := System.exec_pure.mp ran
      exact ⟨le_refl _, fun key => by simp⟩
  | cons first keys ih =>
      rw [deleteAll] at ran
      rcases System.exec_performBind.mp ran with ⟨e, elapsed, -, failed⟩ |
        ⟨count, elapsed, s₁, answered, rest⟩
      · cases failed
      · cases answered
        have passes := clock_le_elapsed s elapsed
        have after : s.clock ≤ s'.clock ∧ ∀ key, s'.records.get key =
            if key ∈ keys then none else
              (s.records.filter fun entry => decide (entry.1 ≠ first)).get key := by
          rcases System.exec_bind.mp rest with ⟨e, -, ran⟩ | ⟨rest, s₂, ran, done⟩
          · obtain ⟨later, gone⟩ := ih ran
            exact ⟨le_trans passes later, gone⟩
          · obtain ⟨-, rfl⟩ := System.exec_pure.mp done
            obtain ⟨later, gone⟩ := ih ran
            exact ⟨le_trans passes later, gone⟩
        refine ⟨after.1, fun key => ?_⟩
        rw [after.2, OrderedMap.get_filter]
        by_cases listed : key ∈ keys
        · simp [listed]
        · by_cases same : key = first
          · simp [same]
          · cases s.records.get key <;> simp [listed, same]

theorem exists_deleteAll (keys : List String) (s : InMemory) :
    ∃ x s', memoryService.Exec (deleteAll keys) s x s' ∧ s'.clock = s.clock := by
  induction keys generalizing s with
  | nil => exact ⟨_, s, .pure, rfl⟩
  | cons first keys ih =>
      let now : InMemory := { s with clock := s.clock + (0 : Nat) }
      obtain ⟨x, s', ran, same⟩ := ih (now.remove first)
      have clock : s'.clock = s.clock := by simpa [now, InMemory.remove] using same
      cases x with
      | error e =>
          refine ⟨.error e, s', System.exec_performBind.mpr (.inr ⟨_, (0 : Nat), _, rfl, ?_⟩), clock⟩
          exact System.exec_bind.mpr (.inl ⟨e, rfl, ran⟩)
      | ok rest =>
          let count : Nat := if (now.records.get first).isSome then 1 else 0
          refine ⟨.ok (count + rest), s', System.exec_performBind.mpr (.inr ⟨_, (0 : Nat), _, rfl, ?_⟩), clock⟩
          exact System.exec_bind.mpr (.inr ⟨rest, s', ran, .pure⟩)

/-- Clearing a session removes the entries whose keys match its pattern. -/
theorem clearBySession_entry
    (ran : memoryService.Exec (clearBySession tenantId agentId sessionId) s x s') :
    s.clock ≤ s'.clock ∧ ∀ now, s'.clock ≤ now → ∀ key, s'.entry now key =
      if matchesPattern key (sessionPattern tenantId agentId sessionId) then none
      else s.entry now key := by
  rcases System.exec_performBind.mp ran with ⟨e, elapsed, -, failed⟩ |
    ⟨keys, elapsed, s₁, answered, rest⟩
  · cases failed
  · cases answered
    obtain ⟨passed, gone⟩ := deleteAll_exec rest
    have passes := clock_le_elapsed s elapsed
    refine ⟨le_trans passes passed, fun now later key => ?_⟩
    let time : Nat := elapsed
    let swept : InMemory := ({ s with clock := s.clock + time } : InMemory).sweepExpired
    have before : swept.entry now key = s.entry now key :=
      InMemory.entry_sweepExpired (s := { s with clock := s.clock + time })
        (le_trans passed later) key
    have entry : s'.entry now key = if key ∈ (swept.records.entries.map Prod.fst).filter
        (matchesPattern · (sessionPattern tenantId agentId sessionId)) then none
        else swept.entry now key := by
      unfold InMemory.entry
      rw [gone key]
      split <;> rfl
    rw [entry, before]
    cases found : matchesPattern key (sessionPattern tenantId agentId sessionId) with
    | false => simp [found]
    | true =>
        rw [if_pos rfl]
        split
        · rfl
        · rename_i absent
          rw [← before]
          have none : swept.records.get key = none := by
            cases held : swept.records.get key with
            | none => rfl
            | some record =>
                have inside := List.mem_map_of_mem (f := Prod.fst) (OrderedMap.get_eq_some.mp held)
                exact absurd (List.mem_filter.mpr ⟨inside, found⟩) absent
          rw [InMemory.entry, none]
          rfl

theorem contextKey_matches :
    matchesPattern (contextKey tenantId agentId sessionId)
      (sessionPattern tenantId agentId sessionId) = true := by
  have pattern : (sessionPattern tenantId agentId sessionId).toList =
      (contextKey tenantId agentId sessionId).toList ++ ['*'] := by
    simp [sessionPattern, contextKey, conversationKey, toString]
  rw [matchesPattern, pattern]
  exact matchesWildcard_lead

/-- An entry that is there later was there before. -/
theorem InMemory.entry_isSome_of_later {now now' : Int} {key : String} (later : now ≤ now')
    (held : (s.entry now' key).isSome) : (s.entry now key).isSome := by
  unfold InMemory.entry at held ⊢
  cases found : s.records.get key with
  | none => simp [found] at held
  | some record =>
      rw [found] at held
      have live : record.isExpired now' = false := by
        by_contra expired
        simp [Option.filter, expired] at held
      have before : record.isExpired now = false := by
        unfold BackendRecord.isExpired at live ⊢
        cases expires : record.expiresAt with
        | none => rfl
        | some expiresAt =>
            have above : (now' : ℚ) < expiresAt := by simpa [expires] using live
            have earlier : (now : ℚ) ≤ now' := Int.cast_le.mpr later
            simpa [expires] using lt_of_le_of_lt earlier above
      simp [Option.filter, before]

/-- Clearing leaves the other sessions alone just when none of them has a context under a key that
the pattern matches. -/
theorem clearsOnly_iff {ids : Set String} {backend : InMemory} :
    ClearsOnly tenantId agentId sessionId ids backend ↔
      ∀ other ∈ ids, other ≠ sessionId →
        (backend.entry backend.clock (contextKey tenantId agentId other)).isSome →
          matchesPattern (contextKey tenantId agentId other)
            (sessionPattern tenantId agentId sessionId) = false := by
  constructor
  · intro clears other inside different held
    let now : InMemory := ({ backend with clock := backend.clock + (0 : Nat) } : InMemory).sweepExpired
    obtain ⟨x, s', ran, clock⟩ := exists_deleteAll ((now.records.entries.map Prod.fst).filter
      (matchesPattern · (sessionPattern tenantId agentId sessionId))) now
    have ran : memoryService.Exec (clearBySession tenantId agentId sessionId) backend x s' :=
      System.exec_performBind.mpr (.inr ⟨_, (0 : Nat), _, rfl, ran⟩)
    have same : s'.clock = backend.clock := by
      simpa [now, InMemory.sweepExpired] using clock
    have kept := (clears x s' ran backend.clock (le_of_eq same)).2 other inside different
    rw [(clearBySession_entry ran).2 _ (le_of_eq same)] at kept
    by_contra found
    rw [if_pos (Bool.eq_true_of_not_eq_false found)] at kept
    rw [← kept] at held
    cases held
  · intro apart x backend' ran now later
    obtain ⟨passed, entry⟩ := clearBySession_entry ran
    refine ⟨by rw [entry now later, if_pos contextKey_matches], ?_⟩
    intro other inside different
    rw [entry now later]
    split
    · rename_i found
      by_contra some
      have held := InMemory.entry_isSome_of_later (le_trans passed later)
        (Option.isSome_iff_ne_none.mpr (Ne.symm some))
      rw [apart other inside different held] at found
      cases found
    · rfl

end Clearing

/-! ## Texts of contexts -/

section Texts

variable {context : ConversationContext} {message : ConversationMessage}
  {messages : List ConversationMessage}

theorem ConversationMessage.ofValue_meaning :
    ConversationMessage.ofValue message.toJson.meaning = some message := by
  rcases message with ⟨role, content, createdAt⟩
  cases role <;> rfl

theorem mapM_ofValue :
    (Json.meaningItems (messages.map (·.toJson))).mapM ConversationMessage.ofValue =
      some messages := by
  induction messages with
  | nil => rfl
  | cons message messages ih =>
      rw [List.map_cons, Json.meaningItems, List.mapM_cons, ConversationMessage.ofValue_meaning, ih]
      rfl

/-- A context as it is read back. -/
def ConversationContext.reread (context : ConversationContext) : ConversationContext :=
  { context with metadata := .ofValue context.metadata.meaning }

theorem ConversationContext.ofValue_meaning :
    ConversationContext.ofValue context.toJson.meaning = some context.reread := by
  have messages := @mapM_ofValue context.messages
  rcases context with ⟨sessionId, texts, metadata, updatedAt⟩
  simp [toJson, Json.meaning, Json.meaningMembers, ofValue, List.lookup, textOf, reread, messages]

/-- The context that a text holds. -/
def contextIn (text : String) : Option ConversationContext :=
  (Json.parse text).bind ConversationContext.ofValue

theorem contextIn_stringify : contextIn context.toJson.stringify = some context.reread := by
  rw [contextIn, Json.parse_stringify, Option.bind_some, ConversationContext.ofValue_meaning]

end Texts

/-! ## Appending -/

/-- The context that is kept for a session. -/
def InMemory.contextAt (backend : InMemory) (key : String) : Option ConversationContext :=
  (backend.records.get key).bind fun record => contextIn record.value

def messagesOf (found : Option ConversationContext) : List ConversationMessage :=
  found.elim [] (·.messages)

inductive SessionEvent
  /-- A call starts. -/
  | append (call : AppendCall)
  /-- The records under other keys become those of the backend. -/
  | others (records : OrderedMap String BackendRecord)

/-- Calls of `appendConversationMessage` for one session, and whatever happens elsewhere. -/
def conversation (tenantId agentId sessionId : String) :
    System MemoryIface AppendCall InMemory ConversationContext where
  Choice := Nat
  handle o elapsed backend :=
    let (result, backend) := { backend with clock := backend.clock + elapsed }.perform o
    some (.ok result, backend)
  program := appendConversationMessage tenantId agentId sessionId
  Env := SessionEvent
  env event backend _ :=
    match event with
    | .append call => some { store := backend, spawn := [call] }
    | .others records =>
        if records.get (contextKey tenantId agentId sessionId) =
            backend.records.get (contextKey tenantId agentId sessionId) then
          some { store := { backend with records } }
        else none

abbrev SessionWorld (β : Type) := World MemoryIface AppendCall InMemory β

abbrev SessionState := SessionWorld (Prog MemoryIface ConversationContext)

/-- The call has read and not yet stored. -/
def isStoring (p : Prog MemoryIface ConversationContext) : Bool :=
  match p.pending with
  | some (.set ..) => true
  | _ => false

/-- No call reads while another one has read and not yet stored, and what is read has not
expired. -/
def Orderly (key : String) (w : SessionState) : Act Nat SessionEvent → Prop
  | .env _ => True
  | .run i elapsed => (∀ t ∈ w.threads[i]?, isStoring t.body = false) →
      (∀ t ∈ w.threads, isStoring t.body = false) ∧
        ∀ record ∈ w.store.records.get key,
          record.isExpired (w.store.clock + elapsed) = false

/-- The calls that have returned. -/
def SessionState.completed (w : SessionState) : List AppendCall :=
  w.threads.filterMap fun t => if t.body.outcome = .returned then some t.tag else none

/-- The message is the one that the call appends. -/
structure AppendCall.Appends (call : AppendCall) (message : ConversationMessage) : Prop where
  role : message.role = call.role
  content : message.content = call.content
  createdAt : ∀ text, call.createdAt = some text → message.createdAt = text

def AppendCall.budget (call : AppendCall) : ℚ := call.tokenBudget.getD defaultTokenBudget

/-- What the content of a message is estimated at. -/
def contentTokens (message : ConversationMessage) : ℚ := estimateTokenCount message.content

/-- The same for the message that a call appends. -/
def callTokens (call : AppendCall) : ℚ := estimateTokenCount call.content

/-- All messages together are within the budget of each call. -/
def WithinBudgets (first : List ConversationMessage) (w : SessionState) : Prop :=
  ∀ t ∈ w.threads, weigh contentTokens first +
    weigh callTokens (w.threads.map (·.tag)) ≤ t.tag.budget

/-- The messages that are kept are the first ones and those of the calls that have returned, each
once. -/
def Complete (first kept : List ConversationMessage) (calls : List AppendCall) : Prop :=
  ∃ made : List (AppendCall × ConversationMessage),
    (made.map Prod.fst).Perm calls ∧ (∀ pair ∈ made, pair.1.Appends pair.2) ∧
      kept.Perm (first ++ made.map Prod.snd)

/-! ## What is kept within the budgets -/

theorem compressMessages_perm {messages : List ConversationMessage} {tokenBudget : ℚ}
    (fits : weigh contentTokens messages ≤ tokenBudget) :
    (compressMessages messages tokenBudget).Perm messages := by
  have texts : messages.zipIdx.map Prod.fst = messages := List.zipIdx_map_fst 0 messages
  have distinct : messages.zipIdx.Nodup := by
    apply List.Nodup.of_map Prod.snd
    rw [List.zipIdx_map_snd]
    exact List.nodup_range'
  have total : totalEstimate Prod.fst estimateTokenCount messages.zipIdx =
      weigh contentTokens messages := by
    have read : weigh (messageTokens Prod.fst estimateTokenCount) messages.zipIdx =
        weigh contentTokens (messages.zipIdx.map Prod.fst) := by
      simp only [weigh, List.map_map]
      rfl
    rwa [texts] at read
  have kept := compress_perm distinct estimateTokenCount_nonneg (total.trans_le fits)
  have perm := kept.map Prod.fst
  rwa [texts] at perm

/-! ## What calls make of a context -/

section Replay

variable {sessionId : String} {call : AppendCall} {calls : List AppendCall}
  {found first : Option ConversationContext}

/-- The context that a call stores. -/
def AppendCall.normalizedContext (call : AppendCall) (sessionId : String)
    (found : Option ConversationContext) : ConversationContext :=
  { call.nextContext sessionId found with
    messages := compressMessages (call.nextContext sessionId found).messages call.budget
    updatedAt := call.dates 3 }

/-- What is kept after a call that found a context. -/
def keptAfter (sessionId : String) (call : AppendCall) (found : Option ConversationContext) :
    Option ConversationContext :=
  some (call.normalizedContext sessionId found).reread

def AppendCall.message (call : AppendCall) : ConversationMessage where
  content := call.content
  createdAt := call.createdAt.getD (call.dates 1)
  role := call.role

theorem AppendCall.appends_message : call.Appends call.message :=
  ⟨rfl, rfl, fun text given => by rw [message, given, Option.getD_some]⟩

theorem AppendCall.nextContext_messages :
    (call.nextContext sessionId found).messages = messagesOf found ++ [call.message] := by
  cases found <;> rfl

theorem keptAfter_perm
    (fits : weigh contentTokens (messagesOf found) + estimateTokenCount call.content ≤ call.budget) :
    (messagesOf (keptAfter sessionId call found)).Perm (messagesOf found ++ [call.message]) := by
  have kept : messagesOf (keptAfter sessionId call found) =
      compressMessages (messagesOf found ++ [call.message]) call.budget :=
    congrArg (compressMessages · call.budget) AppendCall.nextContext_messages
  rw [kept]
  apply compressMessages_perm
  rw [weigh_append, weigh_cons, weigh_nil, add_zero]
  exact fits

theorem weigh_made {made : List (AppendCall × ConversationMessage)}
    (appends : ∀ pair ∈ made, pair.1.Appends pair.2) :
    weigh contentTokens (made.map Prod.snd) = weigh callTokens (made.map Prod.fst) := by
  unfold weigh
  rw [List.map_map, List.map_map]
  refine congrArg List.sum (List.map_congr_left fun pair inside => ?_)
  exact congrArg estimateTokenCount (appends pair inside).content

/-- Calls that make something of a context one after the other, within the budgets, keep all
messages. -/
theorem replay_complete (fits : ∀ call ∈ calls,
      weigh contentTokens (messagesOf first) + weigh callTokens calls ≤ call.budget) :
    Complete (messagesOf first) (messagesOf (Cell.replay (keptAfter sessionId) first calls))
      calls := by
  induction calls using List.reverseRecOn with
  | nil => exact ⟨[], .nil, by simp, by simp [Cell.replay]⟩
  | append_singleton calls call ih =>
      have total : weigh callTokens (calls ++ [call]) =
          weigh callTokens calls + estimateTokenCount call.content := by
        rw [weigh_append, weigh_cons, weigh_nil, add_zero, callTokens]
      rw [total] at fits
      obtain ⟨made, perm, appends, kept⟩ := ih fun call' inside => by
        have within := fits call' (List.mem_append_left _ inside)
        have nonneg := estimateTokenCount_nonneg call.content
        linarith
      have size : weigh contentTokens (messagesOf (Cell.replay (keptAfter sessionId) first calls)) =
          weigh contentTokens (messagesOf first) + weigh callTokens calls := by
        rw [weigh_perm kept, weigh_append, weigh_made appends, weigh_perm perm]
      have room := fits call (by simp)
      rw [Cell.replay_append]
      refine ⟨made ++ [(call, call.message)], ?_, ?_, ?_⟩
      · simpa using perm.append_right [call]
      · intro pair inside
        rcases List.mem_append.mp inside with before | now
        · exact appends pair before
        · rw [List.mem_singleton.mp now]
          exact AppendCall.appends_message
      · have more : (messagesOf (keptAfter sessionId call
            (Cell.replay (keptAfter sessionId) first calls))).Perm _ :=
          keptAfter_perm (by rw [size]; linarith)
        rw [List.map_append, ← List.append_assoc]
        exact more.trans (kept.append_right [call.message])

end Replay

/-! ## The stages of a call -/

abbrev AppendStage := CellStage (Option ConversationContext)

inductive AppendMove (tenantId agentId sessionId : String) :
    AppendCall → AppendStage → (o : MemoryOp) → MemoryIface.Answer o → AppendStage → Prop
  | read {call : AppendCall} {value : Option String} :
      AppendMove tenantId agentId sessionId call .reading
        (.get (contextKey tenantId agentId sessionId)) (.ok value) (.writing (value.bind contextIn))
  | unread {call : AppendCall}
      {answer : MemoryIface.Answer (.get (contextKey tenantId agentId sessionId))} :
      AppendMove tenantId agentId sessionId call .reading
        (.get (contextKey tenantId agentId sessionId)) answer .gone
  | write {call : AppendCall} {found : Option ConversationContext} :
      AppendMove tenantId agentId sessionId call (.writing found)
        (.set (contextKey tenantId agentId (call.nextContext sessionId found).sessionId)
          (call.normalizedContext sessionId found).toJson.stringify call.ttlSeconds) (.ok ()) .written
  | lost {call : AppendCall} {found : Option ConversationContext} {key text : String}
      {ttlSeconds : Option ℚ} {e : Thrown} :
      AppendMove tenantId agentId sessionId call (.writing found) (.set key text ttlSeconds)
        (.error e) .gone

/-- A call returns after it has stored, and throws before. -/
def appendEnds (_ : AppendCall) : Except Thrown ConversationContext → AppendStage → Prop
  | .ok _, stage => stage = .written
  | .error _, stage => stage = .reading ∨ stage = .gone

section Stages

variable {tenantId agentId sessionId : String} {call : AppendCall}

theorem conversationKey_visible : trim (conversationKey sessionId) ≠ "" :=
  trim_ne_empty (c := 'c') (by simp [conversationKey, toString]) (by decide)

/-- Keys of contexts are built for all sessions of an agent, or for none. -/
theorem buildNamespacedKey_context :
    (∃ e, ∀ sessionId, buildNamespacedKey tenantId agentId (conversationKey sessionId) = .error e) ∨
      ∀ sessionId, buildNamespacedKey tenantId agentId (conversationKey sessionId) =
        .ok (contextKey tenantId agentId sessionId) := by
  by_cases blank : trim tenantId = "" ∨ trim agentId = ""
  · refine .inl ⟨error "tenantId, agentId and memoryKey are mandatory", fun sessionId => ?_⟩
    unfold buildNamespacedKey
    rw [if_pos (blank.imp_right .inl)]
  · refine .inr fun sessionId => ?_
    have visible : trim (conversationKey sessionId) ≠ "" := conversationKey_visible
    unfold buildNamespacedKey
    rw [if_neg fun some => some.elim (fun own => blank (.inl own)) fun rest =>
      rest.elim (fun own => blank (.inr own)) visible]
    rfl

theorem upsert_follows {found : Option ConversationContext}
    (built : ∀ sessionId, buildNamespacedKey tenantId agentId (conversationKey sessionId) =
      .ok (contextKey tenantId agentId sessionId)) :
    (upsertConversationContext tenantId agentId (call.nextContext sessionId found)
      call.tokenBudget call.ttlSeconds (call.dates 3)).Follows
        (AppendMove tenantId agentId sessionId call) (appendEnds call) (.writing found) := by
  unfold upsertConversationContext store
  rw [built]
  intro answer
  cases answer with
  | ok _ => exact ⟨.written, .write, rfl⟩
  | error e => exact ⟨.gone, .lost, .inr rfl⟩

/-- What `get` makes of the text that it finds. -/
def valueOf (text : Option String) : Except Thrown (Option Value) :=
  match text.filter (· ≠ "") with
  | none => .ok none
  | some text => (parseValue text).map some

theorem get_eq {memoryKey key : String} (built : buildNamespacedKey tenantId agentId memoryKey = .ok key) :
    get tenantId agentId memoryKey =
      (await (.get key)).bind fun text => Prog.ofExcept (valueOf text) := by
  have inner (text : Option String) : (match text.filter (· ≠ "") with
      | none => pure none
      | some text => do
          let value ← Prog.ofExcept (parseValue text)
          pure (some value) : Prog MemoryIface (Option Value)) = Prog.ofExcept (valueOf text) := by
    unfold valueOf
    cases text.filter (· ≠ "") with
    | none => rfl
    | some text =>
        dsimp only
        cases parseValue text <;> rfl
  unfold get
  rw [built]
  refine congrArg (Prog.op (I := MemoryIface) _) (funext fun answer => ?_)
  cases answer with
  | error e => rfl
  | ok text => exact inner text

/-- The context that a call makes of the text that it finds. -/
def foundIn (text : Option String) : Except Thrown (Option ConversationContext) :=
  (valueOf text).bind contextOf

theorem foundIn_ok {text : Option String} {found : Option ConversationContext}
    (read : foundIn text = .ok found) : found = text.bind contextIn := by
  unfold foundIn valueOf at read
  split at read
  · rename_i empty
    cases read
    cases text with
    | none => rfl
    | some text =>
        have blank : text = "" := by simpa using empty
        rw [blank]
        rfl
  · rename_i text' some
    obtain ⟨rfl, _⟩ := Option.filter_eq_some_iff.mp some
    rw [Option.bind_some, contextIn]
    unfold parseValue at read
    split at read
    · rename_i value parsed
      rw [parsed, Option.bind_some]
      dsimp only [Except.map, Except.bind, contextOf] at read
      split at read
      · rename_i context converted
        cases read
        exact converted.symm
      · cases read
    · cases read

theorem getConversationContext_eq
    (built : buildNamespacedKey tenantId agentId (conversationKey sessionId) =
      .ok (contextKey tenantId agentId sessionId)) :
    getConversationContext tenantId agentId sessionId =
      (await (.get (contextKey tenantId agentId sessionId))).bind fun text =>
        Prog.ofExcept (foundIn text) := by
  have inner (text : Option String) : (Prog.ofExcept (valueOf text)).bind (fun value =>
      Prog.ofExcept (contextOf value)) =
        (Prog.ofExcept (foundIn text) : Prog MemoryIface (Option ConversationContext)) := by
    unfold foundIn
    cases valueOf text <;> rfl
  unfold getConversationContext
  rw [get_eq built]
  refine congrArg (Prog.op (I := MemoryIface) _) (funext fun answer => ?_)
  cases answer with
  | error e => rfl
  | ok text => exact inner text

theorem append_follows (call : AppendCall) :
    (appendConversationMessage tenantId agentId sessionId call).Follows
      (AppendMove tenantId agentId sessionId call) (appendEnds call) .reading := by
  have keys : (∃ e, ∀ sessionId, buildNamespacedKey tenantId agentId (conversationKey sessionId) =
      .error e) ∨ ∀ sessionId, buildNamespacedKey tenantId agentId (conversationKey sessionId) =
        .ok (contextKey tenantId agentId sessionId) := buildNamespacedKey_context
  unfold appendConversationMessage
  rcases keys with ⟨e, fails⟩ | built
  · unfold getConversationContext get
    rw [fails]
    exact .inl rfl
  · rw [getConversationContext_eq (built sessionId)]
    have resumes (text : Option String) : ∃ stage : AppendStage,
        AppendMove tenantId agentId sessionId call .reading
          (.get (contextKey tenantId agentId sessionId)) (.ok text) stage ∧
        ((Prog.ofExcept (foundIn text) : Prog MemoryIface (Option ConversationContext)).bind
          fun found => upsertConversationContext tenantId agentId (call.nextContext sessionId found)
            call.tokenBudget call.ttlSeconds (call.dates 3)).Follows
              (AppendMove tenantId agentId sessionId call) (appendEnds call) stage := by
      cases read : foundIn text with
      | error e => exact ⟨.gone, .unread, .inr rfl⟩
      | ok found =>
          rw [foundIn_ok read]
          exact ⟨_, .read, upsert_follows built⟩
    intro answer
    cases answer with
    | error e => exact ⟨.gone, .unread, .inr rfl⟩
    | ok text => exact resumes text

end Stages

/-! ## Runs -/

section Runs

variable {tenantId agentId sessionId : String} {w : SessionState}
  {a : SessionWorld (Marked AppendStage)} {first : Option ConversationContext}

/-- The stages of the calls for a session. -/
def appendStages (tenantId agentId sessionId : String) :
    Discipline MemoryIface AppendCall ConversationContext :=
  movesDiscipline (conversation tenantId agentId sessionId) (fun _ => .reading)
    (AppendMove tenantId agentId sessionId) appendEnds

theorem appendStages_starts (call : AppendCall) :
    ((conversation tenantId agentId sessionId).program call).Follows
      ((appendStages tenantId agentId sessionId).step call)
      ((appendStages tenantId agentId sessionId).ends call)
      ((appendStages tenantId agentId sessionId).start call) :=
  (append_follows call).marked

abbrev StagedAppend := Thread AppendCall (Marked AppendStage)

def callOf (t : StagedAppend) : AppendCall × AppendStage := (t.tag, t.body.stage)

/-- The context of the session, and the calls for it. -/
def cellOf (tenantId agentId sessionId : String) (a : SessionWorld (Marked AppendStage)) :
    Cell AppendCall (Option ConversationContext) :=
  ⟨a.store.contextAt (contextKey tenantId agentId sessionId), a.threads.map callOf⟩

structure Sequential (tenantId agentId sessionId : String) (first : Option ConversationContext)
    (a : SessionWorld (Marked AppendStage)) : Prop where
  serial : Cell.Serial (keptAfter sessionId) first (cellOf tenantId agentId sessionId a)
  own : ∀ context ∈ a.store.contextAt (contextKey tenantId agentId sessionId),
    context.sessionId = sessionId

/-- A call at a stage at which it stores has read and not yet stored. -/
theorem isStoring_of_stage {call : AppendCall} {p : Prog MemoryIface ConversationContext}
    {s : Marked AppendStage}
    (follows : p.Follows ((appendStages tenantId agentId sessionId).step call)
      ((appendStages tenantId agentId sessionId).ends call) s)
    (writes : s.stage.isWriting = true) : isStoring p = true := by
  cases p with
  | pure context =>
      have written : s.stage = .written := follows.2
      rw [written] at writes
      cases writes
  | throw e =>
      have idle : s.stage = .reading ∨ s.stage = .gone := follows.2
      rcases idle with idle | idle <;> rw [idle] at writes <;> cases writes
  | op o k =>
      obtain ⟨⟨stage', _⟩, ⟨-, move⟩, -⟩ := follows (.error default)
      cases stage : s.stage with
      | writing found =>
          rw [stage] at move
          cases move
          rfl
      | _ =>
          rw [stage] at writes
          cases writes

/-- A call has returned just when it has stored. -/
theorem returned_iff {call : AppendCall} {p : Prog MemoryIface ConversationContext}
    {s : Marked AppendStage}
    (follows : p.Follows ((appendStages tenantId agentId sessionId).step call)
      ((appendStages tenantId agentId sessionId).ends call) s) :
    p.outcome = .returned ↔ s.stage = .written := by
  cases p with
  | pure context =>
      have written : s.stage = .written := follows.2
      simp [Prog.outcome, written]
  | throw e =>
      have idle : s.stage = .reading ∨ s.stage = .gone := follows.2
      rcases idle with idle | idle <;> simp [Prog.outcome, idle]
  | op o k =>
      obtain ⟨⟨stage', _⟩, ⟨-, move⟩, -⟩ := follows (.error default)
      cases stage : s.stage with
      | written =>
          rw [stage] at move
          cases move
      | _ => simp [Prog.outcome]

theorem completed_eq (refines : (appendStages tenantId agentId sessionId).Refines w a) :
    w.completed = (a.threads.map callOf).filterMap Cell.wrote := by
  rw [List.filterMap_map]
  refine refines.filterMap_eq fun t u tag follows => ?_
  have returned := returned_iff follows
  change _ = Cell.wrote (u.tag, u.body.stage)
  by_cases written : u.body.stage = .written
  · rw [if_pos (returned.mpr written), written, tag]
    rfl
  · rw [if_neg fun done => written (returned.mp done), Cell.wrote_eq_none written]

/-- What is recorded under a key that is swept of entries that have expired. -/
theorem contextAt_sweepExpired {backend : InMemory} {key : String}
    (live : ∀ record ∈ backend.records.get key, record.isExpired backend.clock = false) :
    backend.sweepExpired.contextAt key = backend.contextAt key := by
  unfold InMemory.contextAt InMemory.sweepExpired
  rw [OrderedMap.get_filter]
  cases found : backend.records.get key with
  | none => rfl
  | some record =>
      have kept := live record found
      simp [Option.filter, kept]

/-- Calls of which none reads while another one is to store, step by step. -/
theorem Sequential.run {i : Nat} {elapsed : Nat} {t : Thread AppendCall (Prog MemoryIface ConversationContext)}
    {o : MemoryOp} {k : MemoryIface.Answer o → Prog MemoryIface ConversationContext}
    {answer : MemoryIface.Answer o} {store : InMemory} {u : StagedAppend} {s' : Marked AppendStage}
    (inv : Sequential tenantId agentId sessionId first a)
    (refines : (appendStages tenantId agentId sessionId).Refines w a)
    (orderly : Orderly (contextKey tenantId agentId sessionId) w (.run i elapsed))
    (found : w.threads[i]? = some t) (pending : t.body = .op o k) (there : a.threads[i]? = some u)
    (answered : (conversation tenantId agentId sessionId).handle o elapsed a.store =
      some (answer, store))
    (step : (appendStages tenantId agentId sessionId).step u.tag u.body o answer s') :
    Sequential tenantId agentId sessionId first (a.advance i s' store ⟨i, o, answer⟩) := by
  have seen : (cellOf tenantId agentId sessionId a).calls[i]? = some (u.tag, u.body.stage) := by
    simp [cellOf, there, callOf]
  have calls : (a.advance i s' store ⟨i, o, answer⟩).threads.map callOf =
      (a.threads.map callOf).set i (u.tag, s'.stage) := World.map_advance there
  have move : AppendMove tenantId agentId sessionId u.tag u.body.stage o answer s'.stage := step.2
  have storing (idle : isStoring t.body = false) :
      (∀ call ∈ (cellOf tenantId agentId sessionId a).calls, call.2.isWriting = false) ∧
        ∀ record ∈ a.store.records.get (contextKey tenantId agentId sessionId),
          record.isExpired (a.store.clock + elapsed) = false := by
    obtain ⟨others, live⟩ := orderly fun t' same => by
      rw [found] at same
      rwa [← Option.some.inj same]
    refine ⟨fun call inside => ?_, refines.store ▸ live⟩
    obtain ⟨u', member, rfl⟩ := List.mem_map.mp inside
    obtain ⟨j, there'⟩ := List.mem_iff_getElem?.mp member
    obtain ⟨t', found', _, _, follows⟩ := refines.thread_of_stage there'
    by_contra writes
    have idle' := others t' (List.mem_of_getElem? found')
    rw [isStoring_of_stage follows (Bool.eq_true_of_not_eq_false writes)] at idle'
    cases idle'
  have reads {key : String} (same : o = .get key) : isStoring t.body = false := by
    rw [pending]
    subst same
    rfl
  have cell (value : Option ConversationContext)
      (kept : store.contextAt (contextKey tenantId agentId sessionId) = value) :
      cellOf tenantId agentId sessionId (a.advance i s' store ⟨i, o, answer⟩) =
        ⟨value, (cellOf tenantId agentId sessionId a).calls.set i (u.tag, s'.stage)⟩ := by
    rw [cellOf, World.advance_store, kept, calls]
    rfl
  have sweeps (live : ∀ record ∈ a.store.records.get (contextKey tenantId agentId sessionId),
      record.isExpired (a.store.clock + elapsed) = false) :
      (InMemory.sweepExpired { a.store with clock := a.store.clock + elapsed }).contextAt
        (contextKey tenantId agentId sessionId) =
          a.store.contextAt (contextKey tenantId agentId sessionId) :=
    contextAt_sweepExpired live
  have stores {found : Option ConversationContext}
      (own : (u.tag.nextContext sessionId found).sessionId = sessionId) :
      (({ a.store with clock := a.store.clock + elapsed } : InMemory).perform
        (.set (contextKey tenantId agentId (u.tag.nextContext sessionId found).sessionId)
          (u.tag.normalizedContext sessionId found).toJson.stringify u.tag.ttlSeconds)).2.contextAt
            (contextKey tenantId agentId sessionId) = keptAfter sessionId u.tag found := by
    unfold InMemory.contextAt
    dsimp only [InMemory.perform]
    rw [own, OrderedMap.get_set, if_pos rfl, Option.bind_some, contextIn_stringify]
    rfl
  rcases stages : (u.body.stage, s'.stage) with ⟨before, after⟩
  obtain ⟨stage, stage'⟩ := Prod.mk.inj stages
  rw [stage, stage'] at move
  rw [stage] at seen
  rw [stage'] at cell
  cases move with
  | read =>
      cases answered
      obtain ⟨alone, live⟩ := storing (reads rfl)
      have kept := sweeps live
      have held {value : Option BackendRecord} : (value.map (·.value)).bind contextIn =
          value.bind fun record => contextIn record.value := by
        cases value <;> rfl
      refine ⟨?_, fun context there' => inv.own context (kept ▸ there')⟩
      rw [cell _ kept, held]
      rw [InMemory.contextAt] at kept
      rw [kept]
      exact inv.serial.step (.read seen alone)
  | unread =>
      cases answered
      obtain ⟨_, live⟩ := storing (reads rfl)
      have kept := sweeps live
      refine ⟨?_, fun context there' => inv.own context (kept ▸ there')⟩
      rw [cell _ kept]
      exact inv.serial.step (.leave seen)
  | @write found =>
      cases answered
      have current := inv.serial.current seen
      have own : (u.tag.nextContext sessionId found).sessionId = sessionId := by
        cases found with
        | none => rfl
        | some context => exact inv.own context current.symm
      have kept := stores own
      refine ⟨?_, fun context there' => ?_⟩
      · rw [cell _ kept]
        exact inv.serial.step (.write seen)
      · cases kept.symm.trans there'
        exact own
  | lost => cases answered

theorem Sequential.env {event : SessionEvent} {c : Change AppendCall InMemory}
    {outcomes : List (Thread AppendCall Outcome)} {begin : AppendCall → Marked AppendStage}
    (inv : Sequential tenantId agentId sessionId first a)
    (changed : (conversation tenantId agentId sessionId).env event a.store outcomes = some c)
    (begins : ∀ call, (begin call).stage = .reading) :
    Sequential tenantId agentId sessionId first (a.change begin c) := by
  cases event with
  | append call =>
      cases changed
      refine ⟨?_, inv.own⟩
      have started := inv.serial.step (.start call)
      rw [cellOf, World.map_change rfl]
      rwa [← begins call] at started
  | others records =>
      obtain ⟨same, changed⟩ := Option.ite_none_right_eq_some.mp changed
      cases changed
      have kept : ({ a.store with records } : InMemory).contextAt
          (contextKey tenantId agentId sessionId) =
            a.store.contextAt (contextKey tenantId agentId sessionId) := by
        unfold InMemory.contextAt
        rw [same]
      refine ⟨?_, fun context there => inv.own context (kept ▸ there)⟩
      rw [cellOf, World.map_change rfl, World.change_store, kept]
      simpa [cellOf] using inv.serial

/-- The calls that have returned are not estimated at more than all calls. -/
theorem weigh_completed_le : weigh callTokens w.completed ≤ weigh callTokens (w.threads.map (·.tag)) := by
  unfold SessionState.completed
  induction w.threads with
  | nil => exact le_refl _
  | cons t threads ih =>
      have nonneg : 0 ≤ callTokens t.tag := estimateTokenCount_nonneg _
      rw [List.filterMap_cons, List.map_cons, weigh_cons]
      split
      · linarith
      · rename_i call returned
        split at returned
        · cases returned
          rw [weigh_cons]
          linarith
        · cases returned

/-- Calls that do not overlap, and whose messages are within the budgets, lose no message. -/
theorem appends_complete {backend : InMemory}
    (own : ∀ context ∈ backend.contextAt (contextKey tenantId agentId sessionId),
      context.sessionId = sessionId)
    (reached : (conversation tenantId agentId sessionId).Run
      (Orderly (contextKey tenantId agentId sessionId)) ⟨backend, [], []⟩ w)
    (fits : WithinBudgets (messagesOf (backend.contextAt (contextKey tenantId agentId sessionId))) w) :
    Complete (messagesOf (backend.contextAt (contextKey tenantId agentId sessionId)))
      (messagesOf (w.store.contextAt (contextKey tenantId agentId sessionId))) w.completed := by
  have first : (appendStages tenantId agentId sessionId).Refines ⟨backend, [], []⟩
      ⟨backend, [], []⟩ := ⟨rfl, rfl, rfl, fun found => by simp at found⟩
  have start : Sequential tenantId agentId sessionId
      (backend.contextAt (contextKey tenantId agentId sessionId)) ⟨backend, [], []⟩ :=
    ⟨.start, own⟩
  obtain ⟨a, refines, inv⟩ := System.Run.invariant appendStages_starts
    (fun inv refines orderly found pending there answered step =>
      inv.run refines orderly found pending there answered step)
    (fun inv _ _ changed => inv.env changed fun _ => rfl) first start reached
  obtain ⟨order, perm, value⟩ := inv.serial.order
  have returned : order.Perm w.completed := by
    rw [completed_eq refines]
    exact perm
  have kept : w.store.contextAt (contextKey tenantId agentId sessionId) =
      Cell.replay (keptAfter sessionId)
        (backend.contextAt (contextKey tenantId agentId sessionId)) order :=
    refines.store ▸ value
  have within : ∀ call ∈ order, weigh contentTokens
      (messagesOf (backend.contextAt (contextKey tenantId agentId sessionId))) +
        weigh callTokens order ≤ call.budget := by
    intro call inside
    have total := weigh_completed_le (w := w)
    rw [← weigh_perm returned] at total
    obtain ⟨t, there, same⟩ := List.mem_filterMap.mp (returned.mem_iff.mp inside)
    split at same
    · cases same
      exact le_trans (by linarith) (fits t there)
    · cases same
  rw [kept]
  obtain ⟨made, calls, appends, messages⟩ := replay_complete within
  exact ⟨made, calls.trans returned, appends, messages⟩

end Runs

/-- **Sessions are kept apart, and whole.** Clearing a session removes its context and that of no
other session if and only if no other session has a context under a key that matches the pattern;
and after any interleaving of calls that append to a session within their budgets, none of which
reads while another one has read and not yet stored, the session has the message of each call that
has returned once. -/
theorem sessions_kept (tenantId agentId sessionId : String) :
    (∀ (ids : Set String) (backend : InMemory),
      ClearsOnly tenantId agentId sessionId ids backend ↔
        ∀ other ∈ ids, other ≠ sessionId →
          (backend.entry backend.clock (contextKey tenantId agentId other)).isSome →
            matchesPattern (contextKey tenantId agentId other)
              (sessionPattern tenantId agentId sessionId) = false) ∧
    ∀ (backend : InMemory) (w : SessionState),
      (∀ context ∈ backend.contextAt (contextKey tenantId agentId sessionId),
        context.sessionId = sessionId) →
      (conversation tenantId agentId sessionId).Run
        (Orderly (contextKey tenantId agentId sessionId)) ⟨backend, [], []⟩ w →
      WithinBudgets (messagesOf (backend.contextAt (contextKey tenantId agentId sessionId))) w →
      Complete (messagesOf (backend.contextAt (contextKey tenantId agentId sessionId)))
        (messagesOf (w.store.contextAt (contextKey tenantId agentId sessionId))) w.completed :=
  ⟨fun _ _ => clearsOnly_iff, fun _ _ own reached fits => appends_complete own reached fits⟩

/-! ### Two messages of a session -/

/-- A call that appends a word. -/
def saying (content : String) : AppendCall where
  role := .user
  content
  dates _ := "1970-01-01T00:00:00.000Z"

def speaks (content : String) : Act Nat SessionEvent := .env (.append (saying content))

def goesOn (i : Nat) : Act Nat SessionEvent := .run i 0

def orderly (key : String) (w : SessionState) : Act Nat SessionEvent → Bool
  | .env _ => true
  | .run i elapsed => (w.threads[i]?).any (fun t => isStoring t.body) ||
      (w.threads.all (fun t => !isStoring t.body) &&
        (w.store.records.get key).all fun record => !record.isExpired (w.store.clock + elapsed))

theorem orderly_sound {key : String} (w : SessionState) (act : Act Nat SessionEvent)
    (passes : orderly key w act = true) : Orderly key w act := by
  cases act with
  | env => trivial
  | run i elapsed =>
      intro idle
      rcases Bool.or_eq_true_iff.mp passes with storing | alone
      · cases found : w.threads[i]? with
        | none =>
            rw [found] at storing
            cases storing
        | some t =>
            rw [found, Option.any_some, idle t found] at storing
            cases storing
      · obtain ⟨others, live⟩ := Bool.and_eq_true_iff.mp alone
        refine ⟨fun t inside => ?_, fun record found => ?_⟩
        · simpa using List.all_eq_true.mp others t inside
        · rw [Option.mem_def.mp found] at live
          simpa using live

/-- All messages together are within the budgets. -/
def withinBudgets (w : SessionState) : Bool :=
  w.threads.all fun t => decide (weigh callTokens (w.threads.map (·.tag)) ≤ t.tag.budget)

theorem withinBudgets_sound {w : SessionState} (passes : withinBudgets w = true) : WithinBudgets [] w := by
  intro t inside
  rw [weigh_nil, zero_add]
  exact of_decide_eq_true (List.all_eq_true.mp passes t inside)

/-- The text of a context with one message. -/
def oneMessage (sessionId : String) : String :=
  ((saying "hi").normalizedContext sessionId none).toJson.stringify

/-- Two sessions with a context each. -/
def twoSessions : InMemory where
  records := (OrderedMap.empty.set (contextKey "t" "x" "a") { value := oneMessage "a" }).set
    (contextKey "t" "x" "ab") { value := oneMessage "ab" }

/-- Clearing a session removes the context of one whose id goes on, and of two messages that are
appended at one time one is lost. -/
theorem sessions_mixed :
    (IsSessionId "a" ∧ IsSessionId "ab" ∧ ¬ClearsOnly "t" "x" "a" {"a", "ab"} twoSessions) ∧
    ∃ w, (conversation "t" "x" "a").Run (fun _ _ => True) ⟨{}, [], []⟩ w ∧ WithinBudgets [] w ∧
      ¬Complete [] (messagesOf (w.store.contextAt (contextKey "t" "x" "a")))
        (SessionState.completed w) := by
  refine ⟨⟨⟨by decide, by decide⟩, ⟨by decide, by decide⟩, fun clears => ?_⟩, ?_⟩
  · have apart := clearsOnly_iff.mp clears "ab" (by simp) (by decide) (by decide)
    exact absurd apart (by decide)
  · have evaluated : ((conversation "t" "x" "a").execute (fun _ _ => true) ⟨{}, [], []⟩
        [speaks "one", speaks "two", goesOn 0, goesOn 1, goesOn 0, goesOn 1]).any (fun w =>
          withinBudgets w && decide ((SessionState.completed w).length = 2) &&
            decide ((messagesOf (w.store.contextAt (contextKey "t" "x" "a"))).length = 1)) = true := by
      decide +kernel
    obtain ⟨w, ran, lost⟩ := System.Run.exists_of_execute (fun _ _ _ => trivial) evaluated
    simp only [Bool.and_eq_true, decide_eq_true_eq] at lost
    obtain ⟨⟨within, returned⟩, one⟩ := lost
    refine ⟨w, ran, withinBudgets_sound within, ?_⟩
    rintro ⟨made, calls, -, kept⟩
    have sizes := kept.length_eq
    have total := calls.length_eq
    rw [returned, List.length_map] at total
    rw [one, List.nil_append, List.length_map, total] at sizes
    cases sizes

/-- Two messages that are appended one after the other are kept. -/
theorem twoMessages_kept : ∃ w, (conversation "t" "x" "a").Run
    (Orderly (contextKey "t" "x" "a")) ⟨{}, [], []⟩ w ∧
      (SessionState.completed w).length = 2 ∧
      Complete [] (messagesOf (w.store.contextAt (contextKey "t" "x" "a")))
        (SessionState.completed w) := by
  have evaluated : ((conversation "t" "x" "a").execute (orderly (contextKey "t" "x" "a")) ⟨{}, [], []⟩
      [speaks "one", speaks "two", goesOn 0, goesOn 0, goesOn 1, goesOn 1]).any (fun w =>
        withinBudgets w && decide ((SessionState.completed w).length = 2)) = true := by
    decide +kernel
  obtain ⟨w, ran, passes⟩ := System.Run.exists_of_execute orderly_sound evaluated
  simp only [Bool.and_eq_true, decide_eq_true_eq] at passes
  obtain ⟨within, returned⟩ := passes
  have own : ∀ context ∈ ({} : InMemory).contextAt (contextKey "t" "x" "a"),
      context.sessionId = "a" := by
    rintro context ⟨⟩
  exact ⟨w, ran, returned, (sessions_kept "t" "x" "a").2 {} w own ran (withinBudgets_sound within)⟩

end Memory
