import BirthHub.Data.Greedy
import Mathlib.Data.List.Nodup
import Mathlib.Data.Rat.Floor

/-!
# Compression of conversations

A conversation is kept within a budget of tokens by leaving out its oldest messages, and never
its first message of the system. `compress_compressed` says what `compressConversationMessages`
keeps of messages that are distinct: the longest suffix within the budget, or one message.
-/

namespace Memory

open Data

/-! ## The source -/

inductive ConversationRole
  | assistant
  | system
  | tool
  | user
deriving DecidableEq

structure ConversationMessage where
  role : ConversationRole
  content : String
  createdAt : String
deriving DecidableEq

def defaultTokenBudget : ℚ := 8000

/-- `content.length`, in code units. -/
def codeUnits (content : String) : Nat :=
  (content.toList.map fun c => if c.toNat < 0x10000 then 1 else 2).sum

def estimateTokenCount (content : String) : ℚ := ⌈(codeUnits content : ℚ) / 4⌉

section Compression

variable {μ : Type} [DecidableEq μ] (read : μ → ConversationMessage)
  (tokenEstimator : String → ℚ)

def isSystem (message : μ) : Bool := (read message).role = .system

def messageTokens (message : μ) : ℚ := tokenEstimator (read message).content

/-- The loop of `compressConversationMessages`, over the messages from the last one on. -/
def selectMessages (safeBudget : ℚ) : List μ → List μ → ℚ → List μ
  | [], selected, _ => selected
  | message :: messages, selected, currentBudget =>
      let tokens := messageTokens read tokenEstimator message
      if currentBudget + tokens > safeBudget ∧ selected.length > 0 then selected
      else selectMessages safeBudget messages (selected ++ [message]) (currentBudget + tokens)

/-- `compressConversationMessages`; the messages are objects, that are told apart by what they
are and not by what they hold (`read`). -/
def compressConversationMessages (messages : List μ) (tokenBudget : ℚ) : List μ :=
  if messages.length ≤ 1 then messages
  else
    let safeBudget := max 1 tokenBudget
    let systemMessage := messages.find? (isSystem read)
    let reversibleMessages :=
      (messages.filter fun message => some message ≠ systemMessage).reverse
    let currentBudget := systemMessage.elim 0 (messageTokens read tokenEstimator)
    let selected := selectMessages read tokenEstimator safeBudget reversibleMessages []
      currentBudget
    let ordered := selected.reverse
    match systemMessage with
    | some message => message :: ordered
    | none => ordered

/-! ## What is kept -/

/-- The first message of the system, if there is one. -/
def systemOf (messages : List μ) : List μ := (messages.find? (isSystem read)).toList

/-- The messages but the first one of the system. -/
def othersOf (messages : List μ) : List μ := messages.eraseP (isSystem read)

def totalEstimate (messages : List μ) : ℚ := weigh (messageTokens read tokenEstimator) messages

/-- What may be kept besides the message of the system: a suffix of the others that is within
the bound with it, or the last one. -/
structure MayKeep (bound : ℚ) (messages suffix : List μ) : Prop where
  ends : suffix <:+ othersOf read messages
  fits : totalEstimate read tokenEstimator (systemOf read messages ++ suffix) ≤ bound ∨
    suffix.length = 1

/-- The result is the message of the system and the longest suffix that may be kept, and is
compressed to itself. -/
structure Compressed (tokenBudget bound : ℚ) (messages suffix result : List μ) : Prop where
  made : result = systemOf read messages ++ suffix
  may : MayKeep read tokenEstimator bound messages suffix
  some : othersOf read messages ≠ [] → suffix ≠ []
  longest : ∀ longer, MayKeep read tokenEstimator bound messages longer →
    longer.length ≤ suffix.length
  again : compressConversationMessages read tokenEstimator result tokenBudget = result

/-- The suffix that is kept, as what is taken greedily from the last message on. -/
def keptSuffix (messages : List μ) (tokenBudget : ℚ) : List μ :=
  (takeSome (messageTokens read tokenEstimator) (max 1 tokenBudget)
    (totalEstimate read tokenEstimator (systemOf read messages))
    (othersOf read messages).reverse).reverse

variable {read : μ → ConversationMessage} {tokenEstimator : String → ℚ}
  {messages suffix selected : List μ} {message : μ} {tokenBudget safeBudget currentBudget : ℚ}

/-! ## The loop -/

omit [DecidableEq μ] in
theorem selectMessages_selected (some : selected ≠ []) :
    selectMessages read tokenEstimator safeBudget messages selected currentBudget =
      selected ++ takeWithin (messageTokens read tokenEstimator) safeBudget currentBudget
        messages := by
  induction messages generalizing selected currentBudget with
  | nil => simp [selectMessages, takeWithin]
  | cons message messages ih =>
      have any : selected.length > 0 := List.length_pos_iff.mpr some
      unfold selectMessages takeWithin
      dsimp only
      rcases le_or_gt (currentBudget + messageTokens read tokenEstimator message) safeBudget
        with within | above
      · rw [if_neg (fun stops => absurd stops.1 (not_lt.mpr within)), if_pos within,
          ih (by simp), List.append_assoc, List.singleton_append]
      · rw [if_pos ⟨above, any⟩, if_neg (not_le.mpr above), List.append_nil]

omit [DecidableEq μ] in
theorem selectMessages_nil :
    selectMessages read tokenEstimator safeBudget messages [] currentBudget =
      takeSome (messageTokens read tokenEstimator) safeBudget currentBudget messages := by
  cases messages with
  | nil => rfl
  | cons message messages =>
      unfold selectMessages takeSome
      dsimp only
      rw [if_neg (fun stops => absurd stops.2 (Nat.lt_irrefl 0)),
        selectMessages_selected (by simp), List.nil_append, List.singleton_append]

/-! ## Messages that are distinct -/

theorem filter_eq_othersOf (distinct : messages.Nodup) :
    (messages.filter fun message => some message ≠ messages.find? (isSystem read)) =
      othersOf read messages := by
  unfold othersOf
  induction messages with
  | nil => rfl
  | cons first messages ih =>
      obtain ⟨fresh, distinct⟩ := List.nodup_cons.mp distinct
      cases system : isSystem read first with
      | true =>
          rw [List.find?_cons_of_pos system, List.eraseP_cons_of_pos system,
            List.filter_cons_of_neg (by simp)]
          refine List.filter_eq_self.mpr fun message mem => ?_
          have other : message ≠ first := fun same => fresh (same ▸ mem)
          simpa using other
      | false =>
          have user : ¬isSystem read first = true := by simp [system]
          have other : some first ≠ messages.find? (isSystem read) := fun same =>
            fresh (List.mem_of_find?_eq_some same.symm)
          rw [List.find?_cons_of_neg user, List.eraseP_cons_of_neg user,
            List.filter_cons_of_pos (by simpa using other), ih distinct]

theorem compress_eq (distinct : messages.Nodup) (several : 2 ≤ messages.length) :
    compressConversationMessages read tokenEstimator messages tokenBudget =
      systemOf read messages ++ keptSuffix read tokenEstimator messages tokenBudget := by
  unfold compressConversationMessages
  rw [if_neg (by omega)]
  dsimp only
  rw [filter_eq_othersOf distinct, selectMessages_nil]
  unfold keptSuffix systemOf totalEstimate
  cases messages.find? (isSystem read) with
  | none => rfl
  | some message => simp

omit [DecidableEq μ] in
theorem othersOf_ne_nil (several : 2 ≤ messages.length) : othersOf read messages ≠ [] := by
  intro none
  have most : messages.length ≤ (othersOf read messages).length + 1 := by
    unfold othersOf
    rw [List.length_eraseP]
    split <;> omega
  rw [none, List.length_nil] at most
  omega

section Ends

variable (ends : suffix <:+ othersOf read messages)

include ends

omit [DecidableEq μ] in
/-- Without a message of the system, all others are none. -/
theorem find?_suffix (user : messages.find? (isSystem read) = none) :
    suffix.find? (isSystem read) = none := by
  refine List.find?_eq_none.mpr fun message mem => ?_
  exact List.find?_eq_none.mp user message (List.mem_of_mem_eraseP (ends.subset mem))

omit [DecidableEq μ] in
theorem systemOf_kept : systemOf read (systemOf read messages ++ suffix) = systemOf read messages := by
  cases found : messages.find? (isSystem read) with
  | none => simp [systemOf, found, find?_suffix ends found]
  | some message =>
      have system := List.find?_some found
      simp [systemOf, found, system]

omit [DecidableEq μ] in
theorem othersOf_kept : othersOf read (systemOf read messages ++ suffix) = suffix := by
  cases found : messages.find? (isSystem read) with
  | none =>
      have users := List.find?_eq_none.mp (find?_suffix ends found)
      simpa [othersOf, systemOf, found] using List.eraseP_of_forall_not users
  | some message =>
      have system := List.find?_some found
      simp [othersOf, systemOf, found, system]

omit [DecidableEq μ] in
theorem nodup_kept (distinct : messages.Nodup) : (systemOf read messages ++ suffix).Nodup := by
  have kept : suffix.Nodup := (distinct.sublist List.eraseP_sublist).sublist ends.sublist
  cases found : messages.find? (isSystem read) with
  | none => simpa [systemOf, found] using kept
  | some message =>
      obtain ⟨system, before, after, rfl, users⟩ := List.find?_eq_some_iff_append.mp found
      have others : othersOf read (before ++ message :: after) = before ++ after := by
        unfold othersOf
        rw [List.eraseP_append_right _ (by simpa using users), List.eraseP_cons_of_pos system]
      rw [others] at ends
      have first := List.nodup_cons.mp (List.perm_middle.nodup_iff.mp distinct)
      have fresh : message ∉ suffix := fun mem => first.1 (ends.subset mem)
      simpa [systemOf, found] using And.intro fresh kept

end Ends

/-! ## The result -/

omit [DecidableEq μ] in
theorem mayKeep_iff : MayKeep read tokenEstimator safeBudget messages suffix ↔
    suffix.reverse <+: (othersOf read messages).reverse ∧
      MayTake (messageTokens read tokenEstimator) safeBudget
        (totalEstimate read tokenEstimator (systemOf read messages)) suffix.reverse := by
  unfold MayTake
  rw [List.reverse_prefix, weigh_reverse, List.length_reverse]
  constructor
  · intro may
    have fits := may.fits
    rw [totalEstimate, weigh_append] at fits
    exact ⟨may.ends, fits⟩
  · intro may
    refine ⟨may.1, ?_⟩
    rw [totalEstimate, weigh_append]
    exact may.2

/-- What was taken once is compressed to itself. -/
theorem compress_kept (distinct : messages.Nodup) (ends : suffix <:+ othersOf read messages)
    (taken : takeSome (messageTokens read tokenEstimator) (max 1 tokenBudget)
      (totalEstimate read tokenEstimator (systemOf read messages)) suffix.reverse =
        suffix.reverse) :
    compressConversationMessages read tokenEstimator (systemOf read messages ++ suffix)
      tokenBudget = systemOf read messages ++ suffix := by
  rcases Nat.lt_or_ge 1 (systemOf read messages ++ suffix).length with several | few
  · rw [compress_eq (nodup_kept ends distinct) several, keptSuffix, systemOf_kept ends,
      othersOf_kept ends, taken, List.reverse_reverse]
  · rw [compressConversationMessages, if_pos few]

section Kept

variable (nonneg : ∀ content, 0 ≤ tokenEstimator content)

include nonneg

omit [DecidableEq μ] in
theorem mayKeep_keptSuffix (some : othersOf read messages ≠ []) :
    MayKeep read tokenEstimator (max 1 tokenBudget) messages
      (keptSuffix read tokenEstimator messages tokenBudget) := by
  have weights (message : μ) : 0 ≤ messageTokens read tokenEstimator message := nonneg _
  refine mayKeep_iff.mpr ?_
  rw [keptSuffix, List.reverse_reverse]
  exact ⟨takeSome_isPrefix, mayTake_takeSome weights (by simpa using some)⟩

omit [DecidableEq μ] in
theorem length_le_keptSuffix (may : MayKeep read tokenEstimator (max 1 tokenBudget) messages suffix) :
    suffix.length ≤ (keptSuffix read tokenEstimator messages tokenBudget).length := by
  have weights (message : μ) : 0 ≤ messageTokens read tokenEstimator message := nonneg _
  obtain ⟨begins, fits⟩ := mayKeep_iff.mp may
  have longest := (prefix_takeSome weights begins fits).length_le
  rw [keptSuffix]
  rwa [List.length_reverse] at longest ⊢

/-- Messages that are distinct are compressed within the larger one of the budget and 1. -/
theorem compress_compressed (distinct : messages.Nodup) (several : 2 ≤ messages.length) :
    ∃ suffix, Compressed read tokenEstimator tokenBudget (max 1 tokenBudget) messages suffix
      (compressConversationMessages read tokenEstimator messages tokenBudget) := by
  have weights (message : μ) : 0 ≤ messageTokens read tokenEstimator message := nonneg _
  have some : othersOf read messages ≠ [] := othersOf_ne_nil several
  have may : MayKeep read tokenEstimator (max 1 tokenBudget) messages
      (keptSuffix read tokenEstimator messages tokenBudget) := mayKeep_keptSuffix nonneg some
  have made : compressConversationMessages read tokenEstimator messages tokenBudget =
      systemOf read messages ++ keptSuffix read tokenEstimator messages tokenBudget :=
    compress_eq distinct several
  refine ⟨_, made, may, fun _ => ?_, fun longer => length_le_keptSuffix nonneg, ?_⟩
  · rw [keptSuffix]
    simpa using takeSome_ne_nil (by simpa using some)
  · rw [made]
    apply compress_kept distinct may.ends
    rw [keptSuffix, List.reverse_reverse]
    exact takeSome_takeSome weights

end Kept

omit [DecidableEq μ] in
theorem systemOf_others_perm : (systemOf read messages ++ othersOf read messages).Perm messages := by
  unfold systemOf othersOf
  cases found : messages.find? (isSystem read) with
  | none =>
      have users := List.find?_eq_none.mp found
      rw [List.eraseP_of_forall_not users]
      exact .refl _
  | some message =>
      obtain ⟨system, before, after, rfl, users⟩ := List.find?_eq_some_iff_append.mp found
      rw [List.eraseP_append_right _ (by simpa using users), List.eraseP_cons_of_pos system]
      rw [Option.toList_some, List.singleton_append]
      exact List.perm_middle.symm

theorem compress_perm (distinct : messages.Nodup) (nonneg : ∀ content, 0 ≤ tokenEstimator content)
    (fits : totalEstimate read tokenEstimator messages ≤ tokenBudget) :
    (compressConversationMessages read tokenEstimator messages tokenBudget).Perm messages := by
  rcases Nat.lt_or_ge 1 messages.length with several | few
  · have all : (systemOf read messages ++ othersOf read messages).Perm messages :=
      systemOf_others_perm
    have may : MayKeep read tokenEstimator (max 1 tokenBudget) messages (othersOf read messages) := by
      refine ⟨List.suffix_rfl, .inl ?_⟩
      rw [totalEstimate, weigh_perm all]
      exact le_trans fits (le_max_right 1 tokenBudget)
    have ends : keptSuffix read tokenEstimator messages tokenBudget <:+ othersOf read messages :=
      (mayKeep_keptSuffix nonneg (othersOf_ne_nil several)).ends
    rw [compress_eq distinct several, ends.eq_of_length_le (length_le_keptSuffix nonneg may)]
    exact all
  · rw [compressConversationMessages, if_pos few]

end Compression

theorem estimateTokenCount_nonneg (content : String) : 0 ≤ estimateTokenCount content := by
  have nonneg : (0 : ℚ) ≤ (codeUnits content : ℚ) / 4 := by positivity
  exact Int.cast_nonneg (Int.ceil_nonneg nonneg)

/-! ## Three messages -/

def threeMessages : List ConversationMessage :=
  [⟨.user, "a", "1"⟩, ⟨.system, "b", "2"⟩, ⟨.user, "c", "3"⟩]

theorem threeMessages_compressed :
    ∃ suffix, Compressed id estimateTokenCount 1 (max 1 1) threeMessages suffix
      (compressConversationMessages id estimateTokenCount threeMessages 1) :=
  compress_compressed estimateTokenCount_nonneg (by decide) (by decide)

/-- Within a budget of one half all of three messages are kept, that are estimated at one quarter
each. -/
theorem threeMessages_aboveHalf :
    threeMessages.Nodup ∧ 2 ≤ threeMessages.length ∧ (0 : ℚ) < 1 / 2 ∧
      (∀ content : String, (0 : ℚ) ≤ (fun _ => 1 / 4) content) ∧
      ¬∃ suffix, Compressed id (fun _ => 1 / 4) (1 / 2) (1 / 2) threeMessages suffix
        (compressConversationMessages id (fun _ => 1 / 4) threeMessages (1 / 2)) := by
  refine ⟨by decide, by decide, by norm_num, fun _ => by norm_num, ?_⟩
  rintro ⟨suffix, compressed⟩
  have system : systemOf id threeMessages = [⟨.system, "b", "2"⟩] := by decide
  have others : othersOf id threeMessages = [⟨.user, "a", "1"⟩, ⟨.user, "c", "3"⟩] := by decide
  have result : compressConversationMessages id (fun _ => 1 / 4) threeMessages (1 / 2) =
      [⟨.system, "b", "2"⟩, ⟨.user, "a", "1"⟩, ⟨.user, "c", "3"⟩] := by
    rw [compress_eq (by decide) (by decide), keptSuffix, system, others]
    norm_num [totalEstimate, messageTokens, takeSome, takeWithin]
  have kept : suffix = [⟨.user, "a", "1"⟩, ⟨.user, "c", "3"⟩] := by
    have made := compressed.made
    rw [result, system] at made
    exact (List.cons.inj made).2.symm
  have fits := compressed.may.fits
  rw [kept, system] at fits
  norm_num [totalEstimate, messageTokens] at fits

end Memory
