import BirthHub.Tasks.Model

/-!
# The producer and the consumer of a task

The API signs a task by an encoding of its tenant and request, and names the request as
the id of the job; the worker expects the id that the queue gave the job, and a MAC. No
job that the API puts on the queue is one that the worker accepts.
-/

namespace Tasks

open Data

/-- What a worker finds when the queue delivers a job to it: the data again, parsed, and
then validated. -/
def deliver (isDatetime : String → Bool) (signPayload : String → String → String)
    (fallbackSecret : String) (tenantSecret : Option String) (now : String) (jobId : String)
    (data : TaskJob) : Except Thrown String := do
  let payload ← parseTaskJob isDatetime data
  validateLegacyTaskJob signPayload { fallbackSecret, jobId, payload, tenantSecret, now }

/-- A digest of 32 bytes, in hexadecimal. -/
def IsDigest (digest : String) : Prop :=
  digest.length = 64 ∧ ∀ c ∈ digest.toList, isHexDigit c = true

section

variable {isDatetime : String → Bool} {config : QueueConfig} {queue queue' : TaskQueue}
  {payload : TaskJob} {jobId : String}

/-- A sequence that returns has gone on from what its first part returned. -/
theorem run_bind_ok {ε σ α β : Type} {x : ExceptT ε (StateM σ) α} {f : α → ExceptT ε (StateM σ) β}
    {b : β} {s s' : σ} (ran : (x >>= f).run.run s = (.ok b, s')) :
    ∃ a s₁, x.run.run s = (.ok a, s₁) ∧ (f a).run.run s₁ = (.ok b, s') := by
  rw [ExceptT.run_bind, StateT.run_bind] at ran
  rcases first : x.run.run s with ⟨_ | a, s₁⟩
  · rw [first] at ran
    cases ran
  · rw [first] at ran
    exact ⟨a, s₁, rfl, ran⟩

theorem assertTenantQueueRateLimit_ok {tenantId : Option String}
    (passed : (assertTenantQueueRateLimit config tenantId).run.run queue = (.ok (), queue')) :
    queue'.jobs = queue.jobs ∧ queue'.counter = queue.counter := by
  unfold assertTenantQueueRateLimit at passed
  split at passed
  · obtain ⟨_, _, read, passed⟩ := run_bind_ok passed
    cases read
    obtain ⟨_, _, counted, passed⟩ := run_bind_ok passed
    cases counted
    split at passed
    · cases passed
    · cases passed
      exact ⟨rfl, rfl⟩
  · cases passed
    exact ⟨rfl, rfl⟩

theorem enqueueTask_ok
    (enqueued : (enqueueTask isDatetime config payload).run.run queue = (.ok jobId, queue')) :
    jobId = toString (queue.counter + 1) ∧ queue'.jobs = queue.jobs ++ [(jobId, payload)] := by
  obtain ⟨validated, _, parsed, ran₁⟩ := run_bind_ok enqueued
  obtain ⟨_, queue₁, limited, ran₂⟩ := run_bind_ok ran₁
  obtain ⟨_, _, read, ran₃⟩ := run_bind_ok ran₂
  cases read
  unfold parseTaskJob at parsed
  split at parsed
  · cases parsed
    obtain ⟨jobs, counter⟩ := assertTenantQueueRateLimit_ok limited
    dsimp only at ran₃
    split at ran₃
    · cases ran₃
    · cases ran₃
      rw [counter, jobs]
      exact ⟨rfl, rfl⟩
  · cases parsed

/-- A task that the route accepts becomes the job of its request, under the next number. -/
theorem postTask_ok {now : String} {budget : Except BudgetError Unit} {context : RequestContext}
    {body : TaskRequest}
    (posted : (postTask isDatetime config now budget context body).run.run queue =
      (.ok jobId, queue')) :
    ∃ organizationId tenantId userId, given context.tenantId = some tenantId ∧
      jobId = toString (queue.counter + 1) ∧
      queue'.jobs = queue.jobs ++
        [(jobId, taskJobOf now context.requestId organizationId tenantId userId body)] := by
  unfold postTask at posted
  split at posted
  · rename_i organizationId tenantId userId _ tenant _
    obtain ⟨_, _, passed, ran⟩ := run_bind_ok posted
    cases budget with
    | error e => cases passed
    | ok _ =>
        cases passed
        rw [ExceptT.run_adapt, StateT.run_map] at ran
        rcases enqueued : (enqueueTask isDatetime config
          (taskJobOf now context.requestId organizationId tenantId userId body)).run.run queue with
          ⟨_ | id, queue₁⟩
        · rw [enqueued] at ran
          cases ran
        · rw [enqueued] at ran
          cases ran
          obtain ⟨number, jobs⟩ := enqueueTask_ok enqueued
          exact ⟨organizationId, tenantId, userId, tenant, number, jobs⟩
  · cases posted

/-! ## The signature of the route -/

/-- The bytes that the route encodes end in a colon and a decimal number when the request is
named by one. -/
theorem utf8_tenant_number {tenantId : String} {n : Nat} :
    ∃ digits, utf8 (tenantId ++ ":" ++ toString n) = utf8 tenantId ++ 58 :: digits ∧
      (∀ d ∈ digits, 48 ≤ d ∧ d ≤ 57) ∧ digits ≠ [] := by
  obtain ⟨digit, _, _⟩ := Number.toString_digits (n := n)
  have range : ∀ c ∈ (toString n).toList, 48 ≤ c.toNat ∧ c.toNat ≤ 57 := by
    intro c inside
    have is := digit c inside
    simp only [Char.isDigit, Bool.and_eq_true, decide_eq_true_eq, ge_iff_le] at is
    exact is
  have number : utf8 (toString n) = (toString n).toList.map Char.toNat :=
    utf8_ascii fun c inside => by have := range c inside; omega
  refine ⟨(toString n).toList.map Char.toNat, ?_, ?_, by simp⟩
  · rw [utf8_append, utf8_append, number, utf8_ascii (s := ":") (by simp)]
    simp
  · intro d inside
    obtain ⟨c, there, rfl⟩ := List.mem_map.mp inside
    exact range c there

/-- In whole groups the signature of the route has one of four characters. -/
theorem base64url_marked {tenantId signature : String} {n : Nat}
    (signs : base64url (tenantId ++ ":" ++ toString n) = signature)
    (whole : 4 ∣ signature.length) : ∃ c ∈ signature.toList, c ∈ ['D', 'T', 'j', 'z'] := by
  subst signs
  obtain ⟨digits, bytes, digit, inhabited⟩ := @utf8_tenant_number tenantId n
  simp only [base64url, ← String.length_toList, String.toList_ofList, bytes] at whole ⊢
  exact mem_base64urlBytes_of_number digit inhabited (three_dvd_length whole)

theorem base64url_ne_digest {tenantId digest : String} {n : Nat} (hex : IsDigest digest) :
    base64url (tenantId ++ ":" ++ toString n) ≠ digest := by
  intro signs
  obtain ⟨c, inside, marked⟩ := base64url_marked signs (by rw [hex.1]; decide)
  have digit := hex.2 c inside
  revert digit
  fin_cases marked <;> decide

theorem base64url_ne_unsigned {tenantId : String} {n : Nat} :
    base64url (tenantId ++ ":" ++ toString n) ≠ "unsigned" := by
  intro signs
  obtain ⟨c, inside, marked⟩ := base64url_marked signs (by decide)
  revert inside
  fin_cases marked <;> decide

/-! ## No job is accepted -/

/-- A worker accepts no job that the route has put on the queue, whatever the request, the
queue and the secrets. -/
theorem posted_rejected {now : String} {budget : Except BudgetError Unit}
    {context : RequestContext} {body : TaskRequest} {signPayload : String → String → String}
    (digest : ∀ payload secret, IsDigest (signPayload payload secret))
    (posted : (postTask isDatetime config now budget context body).run.run queue =
      (.ok jobId, queue')) :
    ∃ job, queue'.jobs = queue.jobs ++ [(jobId, job)] ∧
      ∀ isDatetime' fallbackSecret tenantSecret now',
        ∃ e, deliver isDatetime' signPayload fallbackSecret tenantSecret now' jobId job = .error e := by
  obtain ⟨organizationId, tenantId, userId, _, number, jobs⟩ := postTask_ok posted
  refine ⟨_, jobs, fun isDatetime' fallbackSecret tenantSecret now' => ?_⟩
  cases delivered : deliver isDatetime' signPayload fallbackSecret tenantSecret now' jobId
    (taskJobOf now context.requestId organizationId tenantId userId body) with
  | error e => exact ⟨e, rfl⟩
  | ok accepted =>
      unfold deliver parseTaskJob at delivered
      split at delivered
      · obtain ⟨_, _, _, sameJob, signed⟩ := validateLegacyTaskJob_ok delivered
        have requested : context.requestId = toString (queue.counter + 1) := sameJob.trans number
        have signature : (taskJobOf now context.requestId organizationId tenantId userId
            body).signature = base64url (tenantId ++ ":" ++ toString (queue.counter + 1)) :=
          congrArg (fun requestId => base64url (tenantId ++ ":" ++ requestId)) requested
        rcases signed with unsigned | signed
        · exact (base64url_ne_unsigned (signature.symm.trans unsigned)).elim
        · exact (base64url_ne_digest (digest _ _) (signature.symm.trans signed)).elim
      · cases delivered

end

/-! ### Two requests -/

/-- A request of a signed-in user. -/
def sessionContext (requestId : String) : RequestContext where
  organizationId := some "org_1"
  requestId
  tenantId := some "tenant_a"
  userId := some "user_1"

def scopedAt : String := "2026-03-13T00:00:00.000Z"

/-- The job of a request for a session sync. -/
def syncJob (requestId : String) : TaskJob :=
  taskJobOf scopedAt requestId "org_1" "tenant_a" "user_1" { type := .syncSession }

/-- The first task that is put on an empty queue. -/
def postSync (requestId : String) : Except ApiError String × TaskQueue :=
  (postTask (fun _ => true) {} scopedAt (.ok ()) (sessionContext requestId)
    { type := .syncSession }).run.run {}

/-- The HMAC-SHA256 of the job of request `1` under the secret `fallback`. -/
def syncDigest : String := "3126619bcfb1bd0c4cd0f986a0fa9a413f50611ac8b2ad2fba2fb0ddc6faf514"

/-- A job of the route, with the id that the queue gave it, is rejected. -/
theorem syncJob_rejected : (postSync "req_1").1 = .ok "1" ∧
    (postSync "req_1").2.jobs = [("1", syncJob "req_1")] ∧
    ∀ signPayload fallbackSecret tenantSecret now, deliver (fun _ => true) signPayload fallbackSecret
      tenantSecret now "1" (syncJob "req_1") = .error (error "JOB_CONTEXT_ID_MISMATCH") :=
  ⟨rfl, rfl, fun _ _ _ _ => rfl⟩

/-- So is the job of a client that names its request as the queue will number the job. -/
theorem numberedJob_rejected : ∃ e, deliver (fun _ => true) (fun _ _ => syncDigest) "fallback" none
    scopedAt "1" (syncJob "1") = .error e := by
  have posted : postSync "1" = (.ok "1", (postSync "1").2) := rfl
  have hex : IsDigest syncDigest := by
    have digits : syncDigest.toList.all isHexDigit = true := by decide
    exact ⟨by decide, List.all_eq_true.mp digits⟩
  obtain ⟨job, jobs, rejected⟩ := posted_rejected (fun _ _ => hex) posted
  have same : [("1", syncJob "1")] = [("1", job)] := jobs
  rw [(Prod.mk.inj (List.cons.inj same).1).2]
  exact rejected _ _ _ _

end Tasks
