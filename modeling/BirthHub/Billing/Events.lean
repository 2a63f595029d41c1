import BirthHub.Billing.Service
import BirthHub.Effect.Rely

/-!
# Acknowledged events

Stripe delivers an event until it is acknowledged, and any number of deliveries are served at a
time. An acknowledged event has been processed (`acknowledged_processed`): whatever fails, and even
when locks and keys of the cache expire at any time, the webhook answers without an error only once
the transaction of the event has committed. The row of the event decides, not the cache.
-/

namespace Billing

open Data Effect

/-- What happens beside the operations of the deliveries. -/
inductive Happening
  | arrives (event : StripeEvent)
  /-- Locks and keys of the cache expire, or are set by others. -/
  | expires (cache : List (String × String)) (locks : List (String × Nat))

/-- Deliveries arrive at any time, and each awaits its operations. -/
def stripeWebhooks (gracePeriodDays : Int) : System BillingIface StripeEvent BillingStore Bool where
  Choice := BillingChoice
  handle := BillingStore.handle gracePeriodDays
  program := stripeWebhook
  Env := Happening
  env happening store _ := match happening with
    | .arrives event => some { store, spawn := [event] }
    | .expires cache locks => some { store := { store with cache, locks } }

/-- The answer with which the transaction of the event commits. -/
def Commits (eventId : String) : (o : BillingOp) → BillingIface.Answer o → Prop
  | .processEvent event, .ok _ => event.id = eventId
  | _, _ => False

/-- An answer that does not say that the event has been processed. -/
def Unprocessed (eventId : String) : (o : BillingOp) → BillingIface.Answer o → Prop
  | .findBillingEvent id, .ok found => id = eventId → found ≠ some .processed
  | .createBillingEvent _, .ok status => status ≠ .processed
  | o, answer => ¬ Commits eventId o answer

/-- Only the transaction marks an event as processed. -/
def BillingOp.Spares : BillingOp → Prop
  | .setBillingEvent _ status => status ≠ .processed
  | _ => True

def rememberProcessed (eventId : String) : Prog BillingIface Unit :=
  ignoreErrors (awaitBilling (.writeCache (stripeWebhookIdempotencyKey eventId) "processed"))

/-- The part of `handleStripeEvent` that goes on from the row of the event. -/
def processFrom (event : StripeEvent) (status : BillingEventStatus) : Prog BillingIface Bool :=
  if status = .processed then (rememberProcessed event.id).bind fun _ => pure true
  else (awaitBilling (.setBillingEvent event.id .processing)).bind fun _ =>
    ((awaitBilling (.processEvent event)).tryCatch fun e =>
      (awaitBilling (.setBillingEvent event.id .failed)).bind fun _ => .throw e).bind fun context =>
        (rememberProcessed event.id).bind fun _ =>
          (ignoreErrors (afterCommit event context)).bind fun _ => pure false

section

variable {gracePeriodDays : Int} {event : StripeEvent} {eventId : String}

theorem afterCommit_within {context : StripeBillingEventContext} :
    (afterCommit event context).Within BillingOp.Spares := by
  refine .bind (awaitAll_within fun p inside => ?_) fun _ => ?_
  · rcases List.mem_cons.mp inside with rfl | inside
    · exact .ite trivial (.perform trivial)
    · obtain ⟨tenantId, _, rfl⟩ := Option.map_eq_some_iff.mp (Option.mem_toList.mp inside)
      exact .perform trivial
  · cases context.organizationId <;> cases context.tenantId <;> cases event.data.syncsCrm <;>
      first | trivial | exact .perform trivial

theorem ignoreErrors_within {p : Prog BillingIface Unit} (within : p.Within BillingOp.Spares) :
    (ignoreErrors p).Within BillingOp.Spares :=
  within.tryCatch fun _ => trivial

theorem processFrom_within {status : BillingEventStatus} :
    (processFrom event status).Within BillingOp.Spares := by
  have remember : (rememberProcessed event.id).Within BillingOp.Spares :=
    ignoreErrors_within (.perform trivial)
  refine .ite (remember.bind fun _ => trivial) (.bind (.perform nofun) fun _ => ?_)
  refine .bind (.tryCatch (.perform trivial) fun _ => ?_) fun _ => remember.bind fun _ => ?_
  · exact .bind (.perform nofun) fun _ => trivial
  · exact .bind (ignoreErrors_within afterCommit_within) fun _ => trivial

theorem stripeWebhook_within : (stripeWebhook event).Within BillingOp.Spares := by
  refine .bind (.perform trivial) fun _ =>
    .finallyDo ?_ (ignoreErrors_within (.perform trivial))
  refine .bind (.bind (.perform trivial) fun cached => ?_) fun _ =>
    .ite trivial (.bind (.perform trivial) fun found => ?_)
  · split
    · trivial
    · refine .bind (.perform trivial) fun _ => .ite trivial (.bind (.perform trivial) fun _ => ?_)
      trivial
  · cases found with
    | some status => exact processFrom_within
    | none =>
        refine .bind (.tryCatch (.perform trivial) fun _ => .ite ?_ trivial) fun _ =>
          processFrom_within
        refine .bind (.perform trivial) fun existing => ?_
        cases existing <;> trivial

theorem createReceivedBillingEvent_unprocessed :
    (createReceivedBillingEvent eventId).Under (fun _ => True) (Unprocessed eventId) fun
      | .ok status => status ≠ .processed
      | .error _ => True := by
  refine ⟨trivial, fun r received => ?_⟩
  cases r with
  | ok status => exact received
  | error e =>
      dsimp only [Prog.tryCatch]
      split
      · refine Prog.Under.performBind trivial (fun found unprocessed => ?_) fun _ _ => trivial
        cases found with
        | some status =>
            rintro rfl
            exact unprocessed rfl rfl
        | none => trivial
      · trivial

theorem processFrom_unprocessed {status : BillingEventStatus} (new : status ≠ .processed) :
    (processFrom event status).Under (fun _ => True) (Unprocessed event.id)
      fun x => ∃ e, x = .error e := by
  rw [processFrom, if_neg new]
  refine Prog.Under.performBind trivial (fun _ _ => ?_) fun e _ => ⟨e, rfl⟩
  refine ⟨trivial, fun r failed => ?_⟩
  cases r with
  | ok context => exact (failed rfl).elim
  | error e =>
      refine ⟨trivial, fun r _ => ?_⟩
      cases r <;> exact ⟨_, rfl⟩

/-- As long as nothing says that the event has been processed the webhook fails. -/
theorem stripeWebhook_unprocessed :
    (stripeWebhook event).Under (fun _ => True) (Unprocessed event.id)
      fun x => ∃ e, x = .error e := by
  refine Prog.Under.performBind trivial (fun token _ => ?_) fun e _ => ⟨e, rfl⟩
  refine Prog.Under.finallyDo ?_ ⟨trivial, fun r _ => by cases r <;> trivial⟩
  have cached : (isCachedAsProcessed event.id).Under (fun _ => True) (Unprocessed event.id)
      (fun x => x ≠ .ok true) := by
    refine Prog.Under.performBind trivial (fun cached _ => ?_) fun _ _ => nofun
    split
    · exact nofun
    · refine Prog.Under.performBind trivial (fun record unprocessed => ?_) fun _ _ => nofun
      split
      · exact absurd ‹_› (unprocessed rfl)
      · exact Prog.Under.performBind trivial (fun _ _ => nofun) fun _ _ => nofun
  refine Prog.Under.bind (cached.mono fun x ends => ?_)
  rcases x with e | _ | _
  · exact ⟨e, rfl⟩
  · refine Prog.Under.performBind trivial (fun found unprocessed => ?_) fun e _ => ⟨e, rfl⟩
    rcases found with _ | status
    · refine Prog.Under.bind (createReceivedBillingEvent_unprocessed.mono fun x new => ?_)
      rcases x with e | status
      · exact ⟨e, rfl⟩
      · exact processFrom_unprocessed new
    · exact processFrom_unprocessed fun same => unprocessed rfl (congrArg some same)
  · exact (ends rfl).elim

theorem transact_billingEvents {α : Type} {store store' : BillingStore} {transaction : Tx α}
    {answer : Except Thrown α} (ran : store.transact transaction = (answer, store')) :
    store'.billingEvents = store.billingEvents := by
  unfold BillingStore.transact at ran
  split at ran <;> cases ran <;> rfl

theorem handle_unprocessed {store store' : BillingStore} {o : BillingOp} {choice : BillingChoice}
    {answer : BillingIface.Answer o} (new : (eventId, .processed) ∉ store.billingEvents)
    (spares : o.Spares) (silent : ¬ Commits eventId o answer)
    (answered : store.handle gracePeriodDays o choice = some (answer, store')) :
    Unprocessed eventId o answer ∧ (eventId, .processed) ∉ store'.billingEvents := by
  unfold BillingStore.handle at answered
  split at answered
  · cases answered
    exact ⟨by cases o <;> exact silent, new⟩
  cases o with
  | findBillingEvent id =>
      cases answered
      refine ⟨fun same found => ?_, new⟩
      obtain ⟨before, after, rows, _⟩ := List.lookup_eq_some_iff.mp found
      exact new (same ▸ rows ▸ by simp)
  | createBillingEvent id =>
      simp only [BillingStore.perform] at answered
      split at answered <;> cases answered
      · exact ⟨silent, new⟩
      · exact ⟨nofun, by simp [new]⟩
  | setBillingEvent id status =>
      simp only [BillingStore.perform] at answered
      split at answered <;> cases answered
      · refine ⟨silent, fun inside => ?_⟩
        obtain ⟨row, there, same⟩ := List.mem_map.mp inside
        split at same
        · exact spares (congrArg Prod.snd same)
        · exact new (same ▸ there)
      · exact ⟨silent, new⟩
  | processEvent event =>
      simp only [BillingStore.perform] at answered
      split at answered
      · split at answered <;> rename_i ran <;> cases answered
        · refine ⟨silent, fun inside => ?_⟩
          obtain ⟨row, there, same⟩ := List.mem_map.mp inside
          split at same
          · exact silent (congrArg Prod.fst same)
          · exact new (same ▸ transact_billingEvents ran ▸ there)
        · exact ⟨silent, transact_billingEvents ran ▸ new⟩
      · cases answered
        exact ⟨silent, new⟩
  | createPlan | setCanceled =>
      exact ⟨silent, transact_billingEvents (Option.some.inj answered) ▸ new⟩
  | _ =>
      simp only [BillingStore.perform] at answered
      (repeat' split at answered) <;> cases answered <;> exact ⟨silent, new⟩

/-- **Nothing is lost.** A delivery that is acknowledged was of an event whose transaction has
committed in the run. -/
theorem acknowledged_processed {store : BillingStore}
    {guard : World BillingIface StripeEvent BillingStore (Prog BillingIface Bool) →
      Act BillingChoice Happening → Prop}
    {w : World BillingIface StripeEvent BillingStore (Prog BillingIface Bool)}
    {t : Thread StripeEvent (Prog BillingIface Bool)} {duplicate : Bool}
    (new : (t.tag.id, .processed) ∉ store.billingEvents)
    (reached : (stripeWebhooks gracePeriodDays).Run guard ⟨store, [], []⟩ w)
    (served : t ∈ w.threads) (acknowledged : t.body = .pure duplicate) :
    ∃ event ∈ w.trace, Commits t.tag.id event.op event.answer := by
  by_contra silent
  have kept := (reached.steady
    (J := fun store => (t.tag.id, .processed) ∉ store.billingEvents) (T := fun _ _ => True)
    (P := fun _ event p => p.Within BillingOp.Spares ∧ (event.id = t.tag.id →
      p.Under (fun _ => True) (Unprocessed t.tag.id) fun x => ∃ e, x = .error e))
    (N := fun event => ¬ Commits t.tag.id event.op event.answer)
    (fun _ => id)
    (fun _ event => ⟨stripeWebhook_within, fun own => own ▸ stripeWebhook_unprocessed⟩)
    (fun {i event o k choice store answer store'} new holds answered silent => ?_)
    (fun {event store threads c} new happened => ?_) new
    (fun _ inside => (List.not_mem_nil inside).elim) fun event inside commits =>
      silent ⟨event, inside, commits⟩).2 t served
  · obtain ⟨e, same⟩ := acknowledged ▸ kept.2 rfl
    cases same
  · obtain ⟨unprocessed, new'⟩ := handle_unprocessed new holds.1.1 silent answered
    exact ⟨new', trivial, holds.1.2 _, fun own => (holds.2 own).2 _ unprocessed⟩
  · cases event <;> cases happened <;> exact ⟨new, trivial⟩

end

/-- An event that changes nothing is acknowledged. -/
theorem ping_processed : ∃ w : World BillingIface StripeEvent BillingStore (Prog BillingIface Bool),
    ∃ event ∈ w.trace, Commits "ping" event.op event.answer := by
  obtain ⟨w, reached, served⟩ := System.Run.exists_of_execute (fun _ _ _ => trivial)
    (show ((stripeWebhooks 3).execute (fun _ _ => true) ⟨{ db := {} }, [], []⟩
      (.env (.arrives ⟨"ping", .other⟩) :: List.replicate 8 (.run 0 {}))).any
        (fun w => w.threads.any fun t =>
          decide (t.tag.id = "ping") && decide (t.body.outcome = .returned)) = true by decide)
  obtain ⟨⟨event, body, settled⟩, inside, same⟩ := List.any_eq_true.mp served
  simp only [Bool.and_eq_true, decide_eq_true_eq] at same
  cases body with
  | pure duplicate =>
      exact ⟨w, same.1 ▸ acknowledged_processed (List.not_mem_nil) reached inside rfl⟩
  | throw e => cases same.2
  | op o k => cases same.2

end Billing
