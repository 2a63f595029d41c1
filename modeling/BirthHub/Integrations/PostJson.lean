import BirthHub.Data.Json

/-!
# Requests of the integrations

`postJson` of `packages/integrations/src/clients/http.ts` sends a request up to `retries + 1` times.
The status of an answer is looked at within the `try`: the error of one that is not worth another
attempt is thrown there, caught as a failure of the network would be, and followed by another
request. Numbers of retries and of milliseconds are whole.
-/

namespace Integrations

open Data

structure HttpRequestOptions where
  apiKey : Option String := none
  timeoutMs : Option Nat := none
  retries : Option Nat := none
  retryDelayMs : Option Nat := none
  headers : Option (List (String × String)) := none

/-- What is passed to `fetch`, and when it is aborted. -/
structure Request where
  url : String
  headers : Json
  body : String
  timeoutMs : Nat

/-- A response, whose body is read as a text or as JSON; reading it fails with the message of an
error. -/
structure Response where
  status : Nat
  text : Except String String
  json : Except String Json

/-- `response.ok`. -/
def Response.ok (response : Response) : Bool := 200 ≤ response.status && response.status ≤ 299

/-- What a request is answered with. -/
inductive Answer
  | failure (message : String)
  | received (response : Response)

inductive Event
  | fetch (request : Request)
  | sleep (ms : Nat)

def isRetryableStatus (status : Nat) : Bool :=
  status == 408 || status == 409 || status == 425 || status == 429 || 500 ≤ status

/-! ## The loop -/

/-- How the `try` of one attempt ends. -/
inductive Attempt
  | returned (result : Except Thrown Json)
  | continued
  | caught (error : Thrown)

/-- The `try` of an attempt, after the request. -/
def attemptOf (retries attempt : Nat) : Answer → Attempt
  | .failure message => .caught (error message)
  | .received response =>
      if response.ok then .returned (response.json.mapError error)
      else
        match response.text with
        | .error message => .caught (error message)
        | .ok body =>
            if attempt < retries ∧ isRetryableStatus response.status then .continued
            else .caught (error ("HTTP " ++ toString response.status ++ ": " ++ body))

section Loop

variable (answer : Nat → Answer) (request : Request) (retries retryDelayMs : Nat)

/-- The loop from an attempt on, for as many rounds as are given. -/
def attempts : Nat → Nat → Option Thrown → List Event × Except Thrown Json
  | rounds + 1, attempt, lastError =>
      if attempt ≤ retries then
        let delay := Event.sleep (retryDelayMs * (attempt + 1))
        match attemptOf retries attempt (answer attempt) with
        | .returned result => ([.fetch request], result)
        | .continued =>
            let (events, result) := attempts rounds (attempt + 1) lastError
            (.fetch request :: delay :: events, result)
        | .caught error =>
            let (events, result) := attempts rounds (attempt + 1) (some error)
            if attempt < retries then (.fetch request :: delay :: events, result)
            else (.fetch request :: events, result)
      else ([], .error (lastError.getD (error "Failed to call external API")))
  | 0, _, lastError => ([], .error (lastError.getD (error "Failed to call external API")))

end Loop

/-- `postJson`, where the requests are answered in turn: what it sends and when it sleeps, and what
it returns or throws. -/
def postJson (answer : Nat → Answer) (url : String) (payload : Json)
    (options : HttpRequestOptions := {}) : List Event × Except Thrown Json :=
  let timeoutMs := options.timeoutMs.getD 10000
  let retries := options.retries.getD 2
  let retryDelayMs := options.retryDelayMs.getD 250
  let authorization :=
    match options.apiKey with
    | some apiKey => if apiKey = "" then [] else [("authorization", Json.str ("Bearer " ++ apiKey))]
    | none => []
  let request : Request := {
    url
    headers := Json.fromEntries ([("content-type", .str "application/json"),
      ("user-agent", .str "birthub-integrations/1.0")] ++ authorization ++
        (options.headers.getD []).map fun header => (header.1, .str header.2))
    body := payload.stringify
    timeoutMs }
  attempts answer request retries retryDelayMs (retries + 1) 0 none

/-! ## What an answer comes to -/

def Event.isFetch : Event → Bool
  | .fetch _ => true
  | .sleep _ => false

/-- The number of requests. -/
def requests (events : List Event) : Nat := events.countP Event.isFetch

def Answer.ok : Answer → Bool
  | .failure _ => false
  | .received response => response.ok

/-- What the caller is told of the last answer: the body of a success, or an error. -/
def Answer.outcome : Answer → Except Thrown Json
  | .failure message => .error (error message)
  | .received response =>
      if response.ok then response.json.mapError error
      else
        match response.text with
        | .error message => .error (error message)
        | .ok body => .error (error ("HTTP " ++ toString response.status ++ ": " ++ body))

/-- A status after which another request may be sent: 408, 409, 425, 429 or 5xx. -/
def Retryable (status : Nat) : Prop :=
  status = 408 ∨ status = 409 ∨ status = 425 ∨ status = 429 ∨ status / 100 = 5

/-- A failure of the network, or a response with such a status. -/
def Answer.Retryable : Answer → Prop
  | .failure _ => True
  | .received response => Integrations.Retryable response.status

section Loop

variable {answer : Nat → Answer} {request : Request} {retries retryDelayMs rounds attempt : Nat}
  {lastError : Option Thrown}

/-- The loop ends with the first success, or with the last attempt. -/
structure EndsAt (answer : Nat → Answer) (retries attempt last : Nat)
    (run : List Event × Except Thrown Json) : Prop where
  from' : attempt ≤ last
  within : last ≤ retries
  before : ∀ i, attempt ≤ i → i < last → (answer i).ok = false
  reason : (answer last).ok = true ∨ last = retries
  sent : attempt + requests run.1 = last + 1
  result : run.2 = (answer last).outcome

theorem attempts_ok (left : attempt ≤ retries) (success : (answer attempt).ok = true) :
    attempts answer request retries retryDelayMs (rounds + 1) attempt lastError =
      ([.fetch request], (answer attempt).outcome) := by
  rw [attempts, if_pos left]
  cases given : answer attempt with
  | failure message =>
      rw [given] at success
      cases success
  | received response =>
      rw [given] at success
      have ok : response.ok = true := success
      simp only [attemptOf, Answer.outcome, if_pos ok]

theorem attempts_last (failed : (answer retries).ok = false) :
    attempts answer request retries retryDelayMs (rounds + 1) retries lastError =
      ([.fetch request], (answer retries).outcome) := by
  have done (rounds : Nat) (error : Thrown) :
      attempts answer request retries retryDelayMs rounds (retries + 1) (some error) =
        ([], .error error) := by
    cases rounds with
    | zero => rfl
    | succ rounds => rw [attempts, if_neg (Nat.not_succ_le_self retries)]; rfl
  rw [attempts, if_pos (le_refl retries)]
  cases given : answer retries with
  | failure message => simp [attemptOf, Answer.outcome, done]
  | received response =>
      rw [given] at failed
      have refused : response.ok = false := failed
      cases read : response.text with
      | error message => simp [attemptOf, Answer.outcome, refused, read, done]
      | ok body => simp [attemptOf, Answer.outcome, refused, read, done]

/-- After any other answer that is not a success the loop sleeps and goes on. -/
theorem attempts_again (request : Request) (retryDelayMs rounds : Nat) (lastError : Option Thrown)
    (left : attempt < retries) (failed : (answer attempt).ok = false) :
    ∃ lastError', attempts answer request retries retryDelayMs (rounds + 1) attempt lastError =
      (.fetch request :: .sleep (retryDelayMs * (attempt + 1)) ::
        (attempts answer request retries retryDelayMs rounds (attempt + 1) lastError').1,
      (attempts answer request retries retryDelayMs rounds (attempt + 1) lastError').2) := by
  rw [attempts, if_pos left.le]
  cases given : answer attempt with
  | failure message => exact ⟨some (error message), by simp [attemptOf, left]⟩
  | received response =>
      rw [given] at failed
      have refused : response.ok = false := failed
      cases read : response.text with
      | error message => exact ⟨some (error message), by simp [attemptOf, refused, read, left]⟩
      | ok body =>
          by_cases again : isRetryableStatus response.status = true
          · exact ⟨lastError, by simp [attemptOf, refused, read, left, again]⟩
          · exact ⟨some (error ("HTTP " ++ toString response.status ++ ": " ++ body)),
              by simp [attemptOf, refused, read, left, again]⟩

/-- The whole loop, by induction on the rounds that are left. -/
theorem attempts_endsAt (left : attempt ≤ retries) (enough : retries < attempt + rounds) :
    ∃ last, EndsAt answer retries attempt last
      (attempts answer request retries retryDelayMs rounds attempt lastError) := by
  induction rounds generalizing attempt lastError with
  | zero => omega
  | succ rounds ih =>
      cases success : (answer attempt).ok with
      | true =>
          rw [attempts_ok left success]
          exact ⟨attempt, le_refl _, left, fun i late early => by omega, .inl success, rfl, rfl⟩
      | false =>
          rcases left.lt_or_eq with more | rfl
          · obtain ⟨lastError', next⟩ :=
              attempts_again request retryDelayMs rounds lastError more success
            obtain ⟨last, ends⟩ := @ih (attempt + 1) lastError' more (by omega)
            rw [next]
            refine ⟨last, by have := ends.from'; omega, ends.within, fun i late early => ?_,
              ends.reason, ?_, ends.result⟩
            · rcases late.lt_or_eq with later | rfl
              · exact ends.before i later early
              · exact success
            · have sent := ends.sent
              simp only [requests, List.countP_cons, Event.isFetch] at sent ⊢
              simp at sent ⊢
              omega
          · rw [attempts_last success]
            exact ⟨attempt, le_refl _, le_refl _, fun i late early => by omega, .inr rfl, rfl, rfl⟩

end Loop

/-! ## The discipline of retries -/

variable {answer : Nat → Answer}

/-- What is asked of the requests and of the result. -/
structure Disciplined (answer : Nat → Answer) (retries : Nat)
    (run : List Event × Except Thrown Json) : Prop where
  bounded : requests run.1 ≤ retries + 1
  /-- Another request follows only an answer after which one may be sent. -/
  retryable : ∀ i, i + 1 < requests run.1 → (answer i).Retryable
  result : (∃ last, requests run.1 = last + 1 ∧ (answer last).ok = true ∧
      (∀ i < last, (answer i).ok = false) ∧ run.2 = (answer last).outcome) ∨
    ∃ last, requests run.1 = last + 1 ∧ (∀ i ≤ last, (answer i).ok = false) ∧
      run.2 = (answer last).outcome

theorem postJson_endsAt (answer : Nat → Answer) (url : String) (payload : Json)
    (options : HttpRequestOptions) : ∃ last,
    EndsAt answer (options.retries.getD 2) 0 last (postJson answer url payload options) :=
  attempts_endsAt (Nat.zero_le _) (by omega)

/-- The number of requests and the result are as they should be in any case. -/
theorem EndsAt.disciplined {retries last : Nat} {run : List Event × Except Thrown Json}
    (ends : EndsAt answer retries 0 last run) (worth : ∀ i < last, (answer i).Retryable) :
    Disciplined answer retries run where
  bounded := by
    have sent := ends.sent
    have within := ends.within
    omega
  retryable i more := worth i (by have sent := ends.sent; omega)
  result := by
    have sent : requests run.1 = last + 1 := by
      have sent := ends.sent
      omega
    have before (i : Nat) (early : i < last) : (answer i).ok = false :=
      ends.before i (Nat.zero_le i) early
    cases success : (answer last).ok with
    | true => exact .inl ⟨last, sent, success, before, ends.result⟩
    | false =>
        refine .inr ⟨last, sent, fun i early => ?_, ends.result⟩
        rcases early.lt_or_eq with earlier | rfl
        · exact before i earlier
        · exact success

/-- **When `postJson` keeps the discipline.** Just when no response with another status than those
that may be retried comes before the last attempt, unless after a success. -/
theorem postJson_disciplined (answer : Nat → Answer) (url : String) (payload : Json)
    (options : HttpRequestOptions) :
    Disciplined answer (options.retries.getD 2) (postJson answer url payload options) ↔
      ∀ i < options.retries.getD 2, (∀ j ≤ i, (answer j).ok = false) → (answer i).Retryable := by
  obtain ⟨last, ends⟩ := postJson_endsAt answer url payload options
  have before (i : Nat) (early : i < last) : (answer i).ok = false :=
    ends.before i (Nat.zero_le i) early
  constructor
  · intro disciplined i early failed
    refine disciplined.retryable i ?_
    have sent := ends.sent
    have later : i < last := by
      by_contra late
      rcases ends.reason with success | final
      · rw [failed last (by omega)] at success
        cases success
      · omega
    omega
  · intro worth
    refine ends.disciplined fun i early => ?_
    have within := ends.within
    exact worth i (by omega) fun j earlier => before j (by omega)

/-- A server that answers 400 is asked three times. -/
theorem badRequest_repeated : ¬Disciplined (fun _ => .received ⟨400, .ok "", .ok .null⟩) 2
    (postJson (fun _ => .received ⟨400, .ok "", .ok .null⟩) "https://api/charges" .null) := by
  intro disciplined
  have worth := disciplined.retryable 0 (by decide)
  revert worth
  simp [Answer.Retryable, Retryable]

end Integrations
