import BirthHub.Data.Json
import BirthHub.Data.OrderedMap
import BirthHub.Effect.Counting
import BirthHub.Effect.Moves
import BirthHub.Effect.ReadModifyWrite
import BirthHub.Effect.Total

/-!
# The ban for card testing

`registerCheckoutDecline` and `isCheckoutIpTemporarilyBanned` of
`apps/api/src/modules/billing/service.ts`. The declines of an address are counted by a read and a
later write of one cache entry. As long as no call reads the counter while another one has read it
and not yet written, each call counts, and the address is banned once enough calls have ended.
-/

namespace Billing

open Data Effect

/-! ## The calls -/

inductive CheckoutCacheOp
  | readCacheValue (key : String)
  | writeCacheValue (key value : String) (ttlSeconds : Nat)

abbrev CheckoutCacheOp.Result : CheckoutCacheOp → Type
  | .readCacheValue _ => Option String
  | .writeCacheValue .. => Unit

abbrev CheckoutCacheIface : Iface where
  Op := CheckoutCacheOp
  Res := CheckoutCacheOp.Result
  Err := Thrown

def awaitCache (o : CheckoutCacheOp) : Prog CheckoutCacheIface o.Result :=
  Prog.perform (I := CheckoutCacheIface) o

/-- Of the configuration, which allows positive numbers only. -/
structure DeclineConfig where
  banThreshold : Nat
  tempBanSeconds : Nat
  positive : 0 < banThreshold

def checkoutDeclineCounterKey (ipAddress : String) : String :=
  "billing:checkout:declines:" ++ ipAddress

def checkoutBanKey (ipAddress : String) : String := "billing:checkout:ban:" ++ ipAddress

/-- `Number(value ?? "0")` of what the counter holds, which is digits; `none` is `NaN`. -/
def declineCount (value : Option String) : Option Nat :=
  let digits := (value.getD "0").toList
  if digits ≠ [] ∧ digits.all Char.isDigit then some (Nat.ofDigitChars 10 digits 0) else none

/-- `String(next)`. -/
def declineText : Option Nat → String
  | some next => next.repr
  | none => "NaN"

/-- `next >= config.STRIPE_DECLINE_BAN_THRESHOLD`. -/
def DeclineConfig.reachedBy (config : DeclineConfig) (next : Option Nat) : Bool :=
  next.any fun next => config.banThreshold ≤ next

def isCheckoutIpTemporarilyBanned (ipAddress : Option String) : Prog CheckoutCacheIface Bool :=
  match ipAddress.filter (· ≠ "") with
  | none => pure false
  | some ipAddress => do
      let value : Option String ← awaitCache (.readCacheValue (checkoutBanKey ipAddress))
      pure (value.any (· ≠ ""))

def registerCheckoutDecline (config : DeclineConfig) (ipAddress : Option String) :
    Prog CheckoutCacheIface (Option Nat) :=
  match ipAddress.filter (· ≠ "") with
  | none => pure (some 0)
  | some ipAddress => do
      let value : Option String ← awaitCache (.readCacheValue (checkoutDeclineCounterKey ipAddress))
      let next := (declineCount value).map (· + 1)
      awaitCache (.writeCacheValue (checkoutDeclineCounterKey ipAddress) (declineText next)
        config.tempBanSeconds)
      if config.reachedBy next then
        awaitCache (.writeCacheValue (checkoutBanKey ipAddress) "1" config.tempBanSeconds)
        pure next
      else pure next

/-! ## The cache -/

abbrev CheckoutCache : Type := OrderedMap String String

/-- What happens apart from the operations of the calls: one more call for the address, or
anything with the entries that are not about it. -/
inductive DeclineEvent
  | decline
  | others (cache : CheckoutCache)

/-- The calls for one address, none of whose operations fails and whose entries do not expire. -/
def declines (config : DeclineConfig) (ipAddress : String) :
    System CheckoutCacheIface Unit CheckoutCache (Option Nat) where
  Choice := Unit
  handle o _ cache :=
    match o with
    | .readCacheValue key => some (.ok (cache.get key), cache)
    | .writeCacheValue key value _ => some (.ok (), cache.set key value)
  program _ := registerCheckoutDecline config (some ipAddress)
  Env := DeclineEvent
  env event cache _ :=
    match event with
    | .decline => some { store := cache, spawn := [()] }
    | .others cache' =>
        if cache'.get (checkoutDeclineCounterKey ipAddress) =
              cache.get (checkoutDeclineCounterKey ipAddress) ∧
            cache'.get (checkoutBanKey ipAddress) = cache.get (checkoutBanKey ipAddress) then
          some { store := cache' }
        else none

abbrev DeclineWorld (β : Type) := World CheckoutCacheIface Unit CheckoutCache β

abbrev DeclineState := DeclineWorld (Prog CheckoutCacheIface (Option Nat))

/-- The call is about to read the counter. -/
def isReading (p : Prog CheckoutCacheIface (Option Nat)) : Bool :=
  match p.pending with
  | some (.readCacheValue _) => true
  | _ => false

/-- The call has read the counter and is to write it. -/
def isCounting (ipAddress : String) (p : Prog CheckoutCacheIface (Option Nat)) : Bool :=
  match p.pending with
  | some (.writeCacheValue key ..) => key = checkoutDeclineCounterKey ipAddress
  | _ => false

/-- No call reads the counter while another one has read it and not yet written. -/
def CountsOne (ipAddress : String) (w : DeclineState) : Act Unit DeclineEvent → Prop
  | .env _ => True
  | .run i _ => (∀ t ∈ w.threads[i]?, isReading t.body = true) →
      ∀ t ∈ w.threads, isCounting ipAddress t.body = false

/-- How many calls have returned. -/
def DeclineState.completed (w : DeclineState) : Nat :=
  w.threads.countP fun t => decide (t.body.outcome = .returned)

theorem checkoutBanKey_ne (ipAddress : String) :
    checkoutBanKey ipAddress ≠ checkoutDeclineCounterKey ipAddress := by
  unfold checkoutBanKey checkoutDeclineCounterKey
  intro same
  have chars := congrArg String.toList same
  simp at chars

theorem declineCount_text (next : Nat) : declineCount (some (declineText (some next))) = some next := by
  have digits : next.repr.toList = Nat.toDigits 10 next := Nat.toList_repr
  have all : (Nat.toDigits 10 next).all Char.isDigit = true := List.all_eq_true.mpr
    fun c inside => Nat.isDigit_of_mem_toDigits (by norm_num) (by norm_num) inside
  rw [declineCount, declineText, Option.getD_some, digits, if_pos ⟨Nat.toDigits_ne_nil, all⟩,
    Nat.ofDigitChars_ten_toDigits]

/-! ## The stages of a call -/

inductive DeclineStage
  | reading
  | counting (found : Option Nat)
  | banning (next : Option Nat)
  | ended (next : Option Nat)
  | gone

/-- What the stage is to the counter. -/
def DeclineStage.cell : DeclineStage → CellStage (Option Nat)
  | reading => .reading
  | counting found => .writing found
  | banning _ | ended _ => .written
  | gone => .gone

inductive DeclineMove (config : DeclineConfig) (ipAddress : String) :
    Unit → DeclineStage → (o : CheckoutCacheOp) → CheckoutCacheIface.Answer o → DeclineStage → Prop
  | read {value : Option String} : DeclineMove config ipAddress () .reading
      (.readCacheValue (checkoutDeclineCounterKey ipAddress)) (.ok value)
      (.counting (declineCount value))
  | count {found : Option Nat} (low : config.reachedBy (found.map (· + 1)) = false) :
      DeclineMove config ipAddress () (.counting found)
        (.writeCacheValue (checkoutDeclineCounterKey ipAddress) (declineText (found.map (· + 1)))
          config.tempBanSeconds) (.ok ()) (.ended (found.map (· + 1)))
  | countLast {found : Option Nat} (high : config.reachedBy (found.map (· + 1)) = true) :
      DeclineMove config ipAddress () (.counting found)
        (.writeCacheValue (checkoutDeclineCounterKey ipAddress) (declineText (found.map (· + 1)))
          config.tempBanSeconds) (.ok ()) (.banning (found.map (· + 1)))
  | ban {next : Option Nat} : DeclineMove config ipAddress () (.banning next)
      (.writeCacheValue (checkoutBanKey ipAddress) "1" config.tempBanSeconds) (.ok ()) (.ended next)
  | fail {stage : DeclineStage} {o : CheckoutCacheOp} {e : Thrown} :
      DeclineMove config ipAddress () stage o (.error e) .gone

/-- A call returns what it has counted. -/
def declineEnds (_ : Unit) : Except Thrown (Option Nat) → DeclineStage → Prop
  | .ok next, stage => stage = .ended next
  | .error _, stage => stage = .gone

section

variable {config : DeclineConfig} {ipAddress : String}

theorem register_follows (given : ipAddress ≠ "") :
    (registerCheckoutDecline config (some ipAddress)).Follows (DeclineMove config ipAddress ())
      (declineEnds ()) .reading := by
  have some : (some ipAddress).filter (· ≠ "") = .some ipAddress :=
    Option.filter_some_pos (decide_eq_true given)
  rw [registerCheckoutDecline, some]
  intro read
  cases read with
  | error e => exact ⟨.gone, .fail, rfl⟩
  | ok value =>
      refine ⟨.counting (declineCount value), .read, fun written => ?_⟩
      cases written with
      | error e => exact ⟨.gone, .fail, rfl⟩
      | ok _ =>
          cases reached : config.reachedBy ((declineCount value).map (· + 1)) with
          | false =>
              exact ⟨_, .count reached, rfl⟩
          | true =>
              refine ⟨_, .countLast reached, fun banned => ?_⟩
              cases banned with
              | error e => exact ⟨.gone, .fail, rfl⟩
              | ok _ => exact ⟨_, .ban, rfl⟩

/-- The stages of the calls for an address. -/
def declineStages (config : DeclineConfig) (ipAddress : String) :
    Discipline CheckoutCacheIface Unit (Option Nat) :=
  movesDiscipline (declines config ipAddress) (fun _ => .reading) (DeclineMove config ipAddress)
    declineEnds

theorem declineStages_starts (given : ipAddress ≠ "") (call : Unit) :
    ((declines config ipAddress).program call).Follows ((declineStages config ipAddress).step call)
      ((declineStages config ipAddress).ends call) ((declineStages config ipAddress).start call) :=
  (register_follows given).marked

abbrev StagedDecline := Thread Unit (Marked DeclineStage)

/-- The counter as a number, and the calls for it. -/
def counterCell (ipAddress : String) (a : DeclineWorld (Marked DeclineStage)) :
    Cell Unit (Option Nat) :=
  ⟨declineCount (a.store.get (checkoutDeclineCounterKey ipAddress)),
    a.threads.map fun u : StagedDecline => (u.tag, u.body.stage.cell)⟩

/-- The call has ended below the threshold. -/
def DeclineStage.low (config : DeclineConfig) : DeclineStage → Bool
  | ended next => !config.reachedBy next
  | _ => false

/-- How many calls have ended below the threshold. -/
def countLow (config : DeclineConfig) (a : DeclineWorld (Marked DeclineStage)) : Nat :=
  a.threads.countP fun u => u.body.stage.low config

structure Counting (config : DeclineConfig) (ipAddress : String) (first : Nat)
    (a : DeclineWorld (Marked DeclineStage)) : Prop where
  serial : Cell.Serial (fun _ value => value.map (· + 1)) (some first) (counterCell ipAddress a)
  number : ∃ n, declineCount (a.store.get (checkoutDeclineCounterKey ipAddress)) = some n ∧
    countLow config a ≤ n
  below : countLow config a < config.banThreshold
  high : ∀ u ∈ a.threads, ∀ next, u.body.stage = .banning next → config.reachedBy next = true
  banned : ∀ u ∈ a.threads, ∀ next, u.body.stage = .ended next → config.reachedBy next = true →
    a.store.get (checkoutBanKey ipAddress) = some "1"

variable {w : DeclineState} {a : DeclineWorld (Marked DeclineStage)} {first : Nat}

theorem Counting.start {cache : CheckoutCache}
    (counted : declineCount (cache.get (checkoutDeclineCounterKey ipAddress)) = some first) :
    Counting config ipAddress first ⟨cache, [], []⟩ where
  serial := by
    have cell : counterCell ipAddress ⟨cache, [], []⟩ = ⟨some first, []⟩ := by
      rw [counterCell, counted]
      rfl
    rw [cell]
    exact .start
  number := ⟨first, counted, Nat.zero_le _⟩
  below := config.positive
  high _ inside := (List.not_mem_nil inside).elim
  banned _ inside := (List.not_mem_nil inside).elim

/-- A call at the stage at which it counts has read and not yet written. -/
theorem isCounting_of_stage {p : Prog CheckoutCacheIface (Option Nat)} {s : Marked DeclineStage}
    (follows : p.Follows ((declineStages config ipAddress).step ())
      ((declineStages config ipAddress).ends ()) s)
    (writes : s.stage.cell.isWriting = true) : isCounting ipAddress p = true := by
  cases p with
  | pure next =>
      have ended : s.stage = .ended next := follows.2
      rw [ended] at writes
      cases writes
  | throw e =>
      have gone : s.stage = .gone := follows.2
      rw [gone] at writes
      cases writes
  | op o k =>
      cases stage : s.stage with
      | counting found =>
          cases o with
          | readCacheValue key =>
              obtain ⟨⟨stage', _⟩, ⟨-, move⟩, -⟩ := follows (.ok none)
              rw [stage] at move
              cases move
          | writeCacheValue key value ttlSeconds =>
              obtain ⟨⟨stage', _⟩, ⟨-, move⟩, -⟩ := follows (.ok ())
              rw [stage] at move
              cases move <;> exact decide_eq_true rfl
      | _ =>
          rw [stage] at writes
          cases writes

theorem ended_of_returned {p : Prog CheckoutCacheIface (Option Nat)} {s : Marked DeclineStage}
    (follows : p.Follows ((declineStages config ipAddress).step ())
      ((declineStages config ipAddress).ends ()) s)
    (returned : p.outcome = .returned) : ∃ next, s.stage = .ended next := by
  cases p with
  | pure next => exact ⟨next, follows.2⟩
  | throw e => cases returned
  | op o k => cases returned

/-- Calls of which none reads while another one is to write, step by step. -/
theorem Counting.run {i : Nat} {choice : Unit} {t : Thread Unit (Prog CheckoutCacheIface (Option Nat))}
    {o : CheckoutCacheOp} {k : CheckoutCacheIface.Answer o → Prog CheckoutCacheIface (Option Nat)}
    {answer : CheckoutCacheIface.Answer o} {cache : CheckoutCache} {u : StagedDecline}
    {s' : Marked DeclineStage} (inv : Counting config ipAddress first a)
    (refines : (declineStages config ipAddress).Refines w a)
    (countsOne : CountsOne ipAddress w (.run i choice)) (found : w.threads[i]? = some t)
    (pending : t.body = .op o k) (there : a.threads[i]? = some u)
    (answered : (declines config ipAddress).handle o choice a.store = some (answer, cache))
    (step : (declineStages config ipAddress).step u.tag u.body o answer s') :
    Counting config ipAddress first (a.advance i s' cache ⟨i, o, answer⟩) := by
  have move : DeclineMove config ipAddress () u.body.stage o answer s'.stage := step.2
  have seen : (counterCell ipAddress a).calls[i]? = some ((), u.body.stage.cell) := by
    simp [counterCell, there]
  have cell : counterCell ipAddress (a.advance i s' cache ⟨i, o, answer⟩) =
      ⟨declineCount (cache.get (checkoutDeclineCounterKey ipAddress)),
        (counterCell ipAddress a).calls.set i ((), s'.stage.cell)⟩ := by
    rw [counterCell, World.map_advance there]
    rfl
  have count : countLow config (a.advance i s' cache ⟨i, o, answer⟩) +
      (if u.body.stage.low config then 1 else 0) =
        countLow config a + if s'.stage.low config then 1 else 0 := World.countP_advance
          (p := fun s : Marked DeclineStage => s.stage.low config) there
  obtain ⟨n, number, atMost⟩ := inv.number
  have below := inv.below
  -- a call that reads is not alone only if another one is to write
  have alone (reads : isReading t.body = true) :
      ∀ call ∈ (counterCell ipAddress a).calls, call.2.isWriting = false := by
    intro call inside
    obtain ⟨u', member, rfl⟩ := List.mem_map.mp inside
    obtain ⟨j, there'⟩ := List.mem_iff_getElem?.mp member
    obtain ⟨t', found', _, _, follows⟩ := refines.thread_of_stage there'
    by_contra writes
    have idle := countsOne (fun t' same => by
      rw [found] at same
      rwa [← Option.some.inj same]) t' (List.mem_of_getElem? found')
    rw [isCounting_of_stage follows (Bool.eq_true_of_not_eq_false writes)] at idle
    cases idle
  have counted (n : Nat) : declineCount ((a.store.set (checkoutDeclineCounterKey ipAddress)
      (declineText (some (n + 1)))).get (checkoutDeclineCounterKey ipAddress)) = some (n + 1) := by
    rw [OrderedMap.get_set, if_pos rfl, declineCount_text]
  have unbanned (value : String) : (a.store.set (checkoutDeclineCounterKey ipAddress) value).get
      (checkoutBanKey ipAddress) = a.store.get (checkoutBanKey ipAddress) := by
    rw [OrderedMap.get_set, if_neg (checkoutBanKey_ne ipAddress)]
  rcases stages : (u.body.stage, s'.stage) with ⟨before, after⟩
  obtain ⟨stage, stage'⟩ := Prod.mk.inj stages
  rw [stage, stage'] at move
  rw [stage] at seen
  rw [stage'] at cell
  rw [stage, stage'] at count
  cases move with
  | read =>
      cases answered
      simp only [DeclineStage.low, Bool.false_eq_true, if_false, Nat.add_zero] at count
      refine ⟨?_, ⟨n, number, by omega⟩, by omega, fun u' inside next => ?_,
        fun u' inside next ended => ?_⟩
      · rw [cell]
        exact inv.serial.step (.read seen (alone (by rw [pending]; rfl)))
      · intro banning
        rcases World.mem_advance there inside with rfl | earlier
        · rw [stage'] at banning
          cases banning
        · exact inv.high u' earlier next banning
      · rcases World.mem_advance there inside with rfl | earlier
        · rw [stage'] at ended
          cases ended
        · exact inv.banned u' earlier next ended
  | @count found low =>
      cases answered
      obtain rfl : found = some n := (inv.serial.current seen).trans number
      have reached : n + 1 < config.banThreshold := by
        simpa [DeclineConfig.reachedBy] using low
      simp only [DeclineStage.low, low, Bool.not_false, Bool.false_eq_true,
        if_true, if_false, Nat.add_zero] at count
      refine ⟨?_, ⟨n + 1, counted n, by omega⟩, by omega, fun u' inside next => ?_,
        fun u' inside next ended => ?_⟩
      · rw [cell, Option.map_some, counted]
        exact inv.serial.step (.write seen)
      · intro banning
        rcases World.mem_advance there inside with rfl | earlier
        · rw [stage'] at banning
          cases banning
        · exact inv.high u' earlier next banning
      · intro reached
        rcases World.mem_advance there inside with rfl | earlier
        · rw [stage'] at ended
          cases ended
          rw [low] at reached
          cases reached
        · exact (unbanned _).trans (inv.banned u' earlier next ended reached)
  | @countLast found high =>
      cases answered
      obtain rfl : found = some n := (inv.serial.current seen).trans number
      simp only [DeclineStage.low, Bool.false_eq_true, if_false, Nat.add_zero] at count
      refine ⟨?_, ⟨n + 1, counted n, by omega⟩, by omega, fun u' inside next => ?_,
        fun u' inside next ended => ?_⟩
      · rw [cell, Option.map_some, counted]
        exact inv.serial.step (.write seen)
      · intro banning
        rcases World.mem_advance there inside with rfl | earlier
        · rw [stage'] at banning
          cases banning
          exact high
        · exact inv.high u' earlier next banning
      · intro reached
        rcases World.mem_advance there inside with rfl | earlier
        · rw [stage'] at ended
          cases ended
        · exact (unbanned _).trans (inv.banned u' earlier next ended reached)
  | @ban next =>
      cases answered
      have high := inv.high u (List.mem_of_getElem? there) next stage
      simp only [DeclineStage.low, high, Bool.not_true, Bool.false_eq_true, if_false,
        Nat.add_zero] at count
      have kept : (a.store.set (checkoutBanKey ipAddress) "1").get
          (checkoutDeclineCounterKey ipAddress) =
            a.store.get (checkoutDeclineCounterKey ipAddress) := by
        rw [OrderedMap.get_set, if_neg (checkoutBanKey_ne ipAddress).symm]
      refine ⟨?_, ⟨n, by rw [World.advance_store, kept, number], by omega⟩, by omega,
        fun u' inside next => ?_, fun u' inside next ended _ => ?_⟩
      · rw [cell, kept]
        have same : (counterCell ipAddress a).calls.set i ((), (DeclineStage.ended next).cell) =
            (counterCell ipAddress a).calls := by
          obtain ⟨bound, own⟩ := List.getElem?_eq_some_iff.mp seen
          exact (congrArg (List.set _ i) own.symm).trans (List.set_getElem_self bound)
        rw [same]
        exact inv.serial.step .idle
      · intro banning
        rcases World.mem_advance there inside with rfl | earlier
        · rw [stage'] at banning
          cases banning
        · exact inv.high u' earlier next banning
      · rw [World.advance_store, OrderedMap.get_set, if_pos rfl]
  | fail => cases o <;> cases answered

theorem Counting.env {event : DeclineEvent} {c : Change Unit CheckoutCache}
    {outcomes : List (Thread Unit Outcome)} {begin : Unit → Marked DeclineStage}
    (inv : Counting config ipAddress first a)
    (changed : (declines config ipAddress).env event a.store outcomes = some c)
    (begins : ∀ call, (begin call).stage = .reading) :
    Counting config ipAddress first (a.change begin c) := by
  cases event with
  | decline =>
      cases changed
      have reading : (begin ()).stage.low config = false := by
        rw [begins]
        rfl
      have count : countLow config (a.change begin { store := a.store, spawn := [()] }) =
          countLow config a :=
        World.countP_change (p := fun s : Marked DeclineStage => s.stage.low config) rfl
          fun _ => reading
      have earlier {u : StagedDecline}
          (inside : u ∈ (a.change begin { store := a.store, spawn := [()] }).threads) :
          u.body.stage = .reading ∨ u ∈ a.threads := by
        rcases List.mem_append.mp inside with before | new
        · exact .inr before
        · rw [List.mem_singleton.mp new]
          exact .inl (begins ())
      refine ⟨?_, count ▸ inv.number, count ▸ inv.below, fun u inside next banning => ?_,
        fun u inside next ended => ?_⟩
      · have started := inv.serial.step (.start ())
        rw [counterCell, World.map_change rfl]
        rwa [counterCell, show CellStage.reading = (begin ()).stage.cell by rw [begins]; rfl]
          at started
      · rcases earlier inside with reading | before
        · rw [reading] at banning
          cases banning
        · exact inv.high u before next banning
      · rcases earlier inside with reading | before
        · rw [reading] at ended
          cases ended
        · exact inv.banned u before next ended
  | others cache =>
      obtain ⟨⟨counter, ban⟩, changed⟩ := Option.ite_none_right_eq_some.mp changed
      cases changed
      have threads : (a.change begin { store := cache }).threads = a.threads := by
        simp [World.change]
      refine ⟨?_, ?_, ?_, ?_, ?_⟩
      · rw [counterCell, threads, World.change_store, counter]
        exact inv.serial
      · rw [countLow, threads, World.change_store, counter]
        exact inv.number
      · rw [countLow, threads]
        exact inv.below
      · rw [threads]
        exact inv.high
      · rw [threads, World.change_store, ban]
        exact inv.banned

/-- Where no call reads the counter while another one is to write it, the address is banned once
as many calls as the threshold have returned. -/
theorem banned_of_completed (given : ipAddress ≠ "") {cache : CheckoutCache}
    (counted : declineCount (cache.get (checkoutDeclineCounterKey ipAddress)) = some first)
    (reached : (declines config ipAddress).Run (CountsOne ipAddress) ⟨cache, [], []⟩ w)
    (enough : config.banThreshold ≤ w.completed) :
    (declines config ipAddress).Ends (fun answer _ => answer = .ok true)
      (isCheckoutIpTemporarilyBanned (some ipAddress)) w.store := by
  have first : (declineStages config ipAddress).Refines ⟨cache, [], []⟩ ⟨cache, [], []⟩ :=
    ⟨rfl, rfl, rfl, fun found => by simp at found⟩
  obtain ⟨a, refines, inv⟩ := System.Run.invariant (declineStages_starts given)
    (fun inv refines countsOne found pending there answered step =>
      inv.run refines countsOne found pending there answered step)
    (fun inv _ _ changed => inv.env changed fun _ => rfl) first (Counting.start counted) reached
  have banned : w.store.get (checkoutBanKey ipAddress) = some "1" := by
    -- otherwise every call that has returned has ended below the threshold
    by_contra free
    have low : w.completed ≤ countLow config a := by
      refine countP_le_of_places refines.length.symm fun {i t u} found there returned => ?_
      obtain ⟨_, _, follows⟩ := refines.follows found there
      obtain ⟨next, ended⟩ := ended_of_returned follows (of_decide_eq_true returned)
      rw [ended, DeclineStage.low, Bool.not_eq_true']
      by_contra high
      have high := Bool.eq_true_of_not_eq_false high
      exact free (refines.store ▸ inv.banned u (List.mem_of_getElem? there) next ended high)
    have below := inv.below
    omega
  have some : (some ipAddress).filter (· ≠ "") = .some ipAddress :=
    Option.filter_some_pos (decide_eq_true given)
  rw [isCheckoutIpTemporarilyBanned, some]
  refine .performBind ⟨(), rfl⟩ (fun _ _ answered => (Option.some.inj answered).symm) ?_
  show Except.ok _ = _
  rw [banned]
  rfl

end

/-! ### Two declines -/

/-- Two declines ban an address. -/
def twoDeclines : DeclineConfig := ⟨2, 900, Nat.two_pos⟩

def countsOne (ipAddress : String) (w : DeclineState) : Act Unit DeclineEvent → Bool
  | .env _ => true
  | .run i _ => !(w.threads[i]?).all (fun t => isReading t.body) ||
      w.threads.all fun t => !isCounting ipAddress t.body

theorem countsOne_sound {ipAddress : String} (w : DeclineState) (act : Act Unit DeclineEvent)
    (passes : countsOne ipAddress w act = true) : CountsOne ipAddress w act := by
  cases act with
  | env => trivial
  | run i choice =>
      intro reads t inside
      rcases Bool.or_eq_true_iff.mp passes with idle | alone
      · have all : (w.threads[i]?).all (fun t => isReading t.body) = true := by
          cases found : w.threads[i]? with
          | none => rfl
          | some t => exact reads t found
        rw [all] at idle
        cases idle
      · simpa using List.all_eq_true.mp alone t inside

/-- Two calls, and the operations of both in this order. -/
def declineActs (order : List Nat) : List (Act Unit DeclineEvent) :=
  .env .decline :: .env .decline :: order.map (.run · ())

/-- Two declines, one after the other, ban the address. -/
theorem twoDeclines_ban :
    ∃ w, (declines twoDeclines "203.0.113.9").Run (CountsOne "203.0.113.9") ⟨.empty, [], []⟩ w ∧
      DeclineState.completed w = 2 ∧
      (declines twoDeclines "203.0.113.9").Ends (fun answer _ => answer = .ok true)
        (isCheckoutIpTemporarilyBanned (some "203.0.113.9")) w.store := by
  have evaluated : ((declines twoDeclines "203.0.113.9").execute (countsOne "203.0.113.9")
      ⟨.empty, [], []⟩ (declineActs [0, 0, 1, 1, 1])).any
        (fun w => decide (DeclineState.completed w = 2)) = true := by decide +kernel
  obtain ⟨w, ran, completed⟩ := System.Run.exists_of_execute countsOne_sound evaluated
  have completed := of_decide_eq_true completed
  exact ⟨w, ran, completed, banned_of_completed (by decide) (show _ = some 0 by decide +kernel) ran
    completed.ge⟩

/-- Two declines that read the counter before either writes it count as one. -/
theorem twoDeclines_lost :
    ∃ w, (declines twoDeclines "203.0.113.9").Run (fun _ _ => True) ⟨.empty, [], []⟩ w ∧
      DeclineState.completed w = 2 ∧
      ¬ (declines twoDeclines "203.0.113.9").Ends (fun answer _ => answer = .ok true)
        (isCheckoutIpTemporarilyBanned (some "203.0.113.9")) w.store := by
  have evaluated : ((declines twoDeclines "203.0.113.9").execute (fun _ _ => true)
      ⟨.empty, [], []⟩ (declineActs [0, 1, 0, 1])).any (fun w =>
        decide (DeclineState.completed w = 2) &&
          (w.store.get (checkoutBanKey "203.0.113.9")).isNone) = true := by decide +kernel
  obtain ⟨w, ran, lost⟩ := System.Run.exists_of_execute (fun _ _ _ => trivial) evaluated
  obtain ⟨completed, free⟩ := Bool.and_eq_true_iff.mp lost
  refine ⟨w, ran, of_decide_eq_true completed, fun banned => ?_⟩
  have none : w.store.get (checkoutBanKey "203.0.113.9") = none := Option.isNone_iff_eq_none.mp free
  have answer : Except.ok ((w.store.get (checkoutBanKey "203.0.113.9")).any (· ≠ "")) =
      (.ok true : Except Thrown Bool) := banned.2 () _ _ rfl
  rw [none] at answer
  cases answer

end Billing
