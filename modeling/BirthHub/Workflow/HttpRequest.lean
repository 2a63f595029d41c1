import BirthHub.Effect.Prog
import BirthHub.Http.Host
import BirthHub.Workflow.Interpolation

/-!
# The HTTP request of a step

`executeHttpRequestNode` of `packages/workflows-core/src/nodes/httpRequest.ts`, with the guard on
the host of its URL. The rate limiter, the circuit breaker of the host, `fetch` and the body of
the response are awaited; the parser of URLs and the HMAC are parameters.

The guard compares the text of the host with a few literals. The hosts of the local machine that
it lets through are listed for each kind of host, and they are all that it lets through.
-/

namespace Workflow

open Data Effect Http

inductive HttpMethod
  | DELETE
  | GET
  | PATCH
  | POST
  | PUT
deriving DecidableEq, Repr

/-- `HttpRequestNodeConfig`, with `auth.bearer` as a member of its own. -/
structure HttpRequestNodeConfig where
  url : String
  bearer : Option String := none
  body : Option Json := none
  headers : Option (List (String × String)) := none
  method : Option HttpMethod := none
  timeout_ms : Option Nat := none
  webhookSecret : Option String := none

/-- `interpolateValue(config, context)`. -/
def HttpRequestNodeConfig.interpolate (config : HttpRequestNodeConfig) (context : Json) :
    HttpRequestNodeConfig where
  url := interpolateTemplate config.url context
  bearer := config.bearer.map (interpolateTemplate · context)
  body := config.body.map (interpolateValue context)
  headers := config.headers.map fun headers =>
    (headers.filter fun header => header.1 ≠ "__proto__").map fun header =>
      (header.1, interpolateTemplate header.2 context)
  method := config.method
  timeout_ms := config.timeout_ms
  webhookSecret := config.webhookSecret.map (interpolateTemplate · context)

/-- What the runtime provides. -/
structure Web where
  newURL : String → Except Thrown URL
  /-- The error of a header with an invalid name or value. -/
  invalidHeader : String → String → Thrown
  /-- `createHmac("sha256", secret).update(payload).digest("hex")`. -/
  hmac : String → String → String

/-! ## Headers -/

/-- The characters of the name of a header. -/
def isTokenChar (c : Char) : Bool :=
  c.isAlphanum || "!#$%&'*+-.^_`|~".toList.contains c

def isHeaderSpace (c : Char) : Bool := c == ' ' || c == '\t' || c == '\n' || c == '\r'

/-- The value of a header without the white space around it. -/
def normalizeHeader (value : String) : List Char :=
  ((value.toList.dropWhile isHeaderSpace).reverse.dropWhile isHeaderSpace).reverse

structure Headers where
  entries : List (String × String)

namespace Headers

/-- A header with its name in lower case, if its name and its value are valid. -/
def checked (web : Web) (name value : String) : Except Thrown (String × String) :=
  let normalized := normalizeHeader value
  if name ≠ "" ∧ name.toList.all isTokenChar ∧
      normalized.all (fun c => c.toNat < 256 && c != '\x00' && c != '\n' && c != '\r') then
    .ok (name.toLower, String.ofList normalized)
  else .error (web.invalidHeader name value)

/-- `new Headers(record)`. -/
def ofRecord (web : Web) : List (String × String) → Except Thrown Headers
  | [] => .ok ⟨[]⟩
  | (name, value) :: record => do
      let header ← checked web name value
      let headers ← ofRecord web record
      return ⟨header :: headers.entries⟩

def has (headers : Headers) (name : String) : Bool :=
  headers.entries.any fun header => header.1 == name.toLower

def set (web : Web) (headers : Headers) (name value : String) : Except Thrown Headers := do
  let header ← checked web name value
  return ⟨headers.entries.filter (fun other => other.1 != header.1) ++ [header]⟩

end Headers

/-! ## The request -/

/-- What is passed to `fetch`, where `url` is passed as its text. -/
structure HttpRequest where
  url : URL
  body : Option String
  headers : Headers
  method : HttpMethod
  timeoutMs : Nat

structure HttpResponse where
  headers : List (String × String)
  status : Nat

inductive HttpOp
  /-- `rateLimiter.consume(key, limit, windowSeconds)`. -/
  | consume (key : String) (limit windowSeconds : Nat)
  /-- `breaker.fire`, which throws where the circuit of the host is open. -/
  | fire (host : List Char)
  | fetch (request : HttpRequest)
  /-- `response.json()`, or `response.text()`. -/
  | readBody (json : Bool)

def HttpIface : Iface where
  Op := HttpOp
  Res
    | .consume _ _ _ => Unit
    | .fire _ => Unit
    | .fetch _ => HttpResponse
    | .readBody _ => Json
  Err := Thrown

structure HttpResult where
  body : Json
  headers : List (String × String)
  status : Nat

def blockedHosts : List (List Char) :=
  ["localhost".toList, "0.0.0.0".toList, "127.0.0.1".toList, "::1".toList,
    "host.docker.internal".toList]

def assertSafeUrl (web : Web) (rawUrl : String) : Except Thrown URL := do
  let parsed ← web.newURL rawUrl
  let normalizedHost := toLowerCase parsed.hostname
  if normalizedHost ∈ blockedHosts then
    throw (error "SSRF_GUARD_BLOCKED_HOST")
  if ".internal".toList <:+ normalizedHost then
    throw (error "SSRF_GUARD_BLOCKED_INTERNAL_DOMAIN")
  return parsed

/-- `contentType.includes("application/json")`. -/
def isJsonResponse (response : HttpResponse) : Bool :=
  (response.headers.lookup "content-type").any fun contentType =>
    "application/json".toList <:+: contentType.toList

/-- The headers of the request. -/
def requestHeaders (web : Web) (interpolated : HttpRequestNodeConfig) (body : Option Json) :
    Except Thrown Headers := do
  let headers ← Headers.ofRecord web (interpolated.headers.getD [])
  let headers ← match interpolated.bearer.filter (· ≠ "") with
    | some bearer => headers.set web "Authorization" ("Bearer " ++ bearer)
    | none => pure headers
  match body with
  | none => return headers
  | some body =>
      let headers ←
        if headers.has "Content-Type" then pure headers
        else headers.set web "Content-Type" "application/json"
      match interpolated.webhookSecret.filter (· ≠ "") with
      | some secret => headers.set web "X-BirthHub-Signature" (web.hmac secret body.stringify)
      | none => return headers

/-- The request behind the circuit breaker of its host. -/
def performRequest (request : HttpRequest) : Prog HttpIface HttpResult := do
  Prog.perform (I := HttpIface) (.fire request.url.hostText)
  let response ← Prog.perform (I := HttpIface) (.fetch request)
  let body ← Prog.perform (I := HttpIface) (.readBody (isJsonResponse response))
  return { body, headers := response.headers, status := response.status }

def executeHttpRequestNode (web : Web) (config : HttpRequestNodeConfig) (context : Json)
    (rateLimiter : Bool) : Prog HttpIface HttpResult := do
  let interpolated := config.interpolate context
  let safeUrl ← Prog.ofExcept (assertSafeUrl web interpolated.url)
  let timeoutMs := min (max (interpolated.timeout_ms.getD 2500) 1) 10000
  -- a body is kept where no method is given, although the request is a GET then
  let body := if interpolated.method = some .GET then none else interpolated.body
  let headers ← Prog.ofExcept (requestHeaders web interpolated body)
  if rateLimiter then
    let tenantId := ((context.member "tenantId").map Json.text).getD "undefined"
    Prog.perform (I := HttpIface)
      (.consume ("httpreq:" ++ tenantId ++ ":" ++ String.ofList safeUrl.hostText) 10 1)
  performRequest {
    url := safeUrl
    body := body.map Json.stringify
    headers
    method := interpolated.method.getD .GET
    timeoutMs }



/-! ## What the guard lets through -/

/-- The host denotes the local machine or an internal name. -/
def DenotesLocal : Host → Prop
  | .name n => IsNamed "localhost".toList n.text ∨ IsBelow "localhost".toList n.text ∨
      IsBelow "internal".toList n.text
  | .ipv4 address => address.Loopback ∨ address.Unspecified
  | .ipv6 address => address.Loopback ∨ address.Unspecified ∨
      ∃ mapped ∈ address.mapped, mapped.Loopback
  | .empty => False

/-- The hosts of the local machine and the internal names that no literal of the guard is the
text of. -/
def EscapesGuard : Host → Prop
  | .name n => toLowerCase n.text = "localhost.".toList ∨
      ".localhost".toList <:+ toLowerCase n.text ∨ ".localhost.".toList <:+ toLowerCase n.text ∨
      ".internal.".toList <:+ toLowerCase n.text
  | .ipv4 address => address.Loopback ∧ address ≠ ⟨127, 0, 0, 1⟩
  | .ipv6 address => address.Loopback ∨ address.Unspecified ∨
      ∃ mapped ∈ address.mapped, mapped.Loopback
  | .empty => False

/-- The guard does not throw for a host. -/
def PassesGuard (host : Host) : Prop :=
  toLowerCase host.serialize ∉ blockedHosts ∧ ¬ ".internal".toList <:+ toLowerCase host.serialize

section

variable {web : Web} {url : String} {host : Host}

theorem assertSafeUrl_ok {safeUrl : URL} :
    assertSafeUrl web url = .ok safeUrl ↔ web.newURL url = .ok safeUrl ∧ PassesGuard safeUrl.host := by
  unfold assertSafeUrl PassesGuard
  cases web.newURL url with
  | error e => simp [bind, Except.bind]
  | ok parsed =>
      simp only [bind, Except.bind]
      by_cases named : toLowerCase parsed.hostname ∈ blockedHosts
      · rw [if_pos named]
        refine ⟨fun threw => (by cases threw), ?_⟩
        rintro ⟨⟨⟩, passes, _⟩
        exact (passes named).elim
      rw [if_neg named]
      by_cases internal : ".internal".toList <:+ toLowerCase parsed.hostname
      · rw [if_pos internal]
        refine ⟨fun threw => (by cases threw), ?_⟩
        rintro ⟨⟨⟩, _, passes⟩
        exact (passes internal).elim
      rw [if_neg internal]
      constructor
      · rintro ⟨⟩
        exact ⟨rfl, named, internal⟩
      · rintro ⟨⟨⟩, _⟩
        rfl

/-- A text with an end that no literal of the guard has passes it. -/
theorem passes_of_suffix {part text : List Char}
    (ends : part <:+ text)
    (apart : ∀ blocked ∈ blockedHosts, ¬ part <:+ blocked)
    (outside : ¬ part <:+ ".internal".toList ∧ ¬ ".internal".toList <:+ part) :
    text ∉ blockedHosts ∧ ¬ ".internal".toList <:+ text := by
  refine ⟨fun blocked => apart text blocked ends, fun internal => ?_⟩
  rcases List.suffix_or_suffix_of_suffix ends internal with short | short
  · exact outside.1 short
  · exact outside.2 short

theorem escapesGuard_name {n : HostName} :
    PassesGuard (.name n) ∧ DenotesLocal (.name n) ↔ EscapesGuard (.name n) := by
  have localhost : ¬ ['.'] <:+ "localhost".toList := by decide
  have internal : ¬ ['.'] <:+ "internal".toList := by decide
  simp only [DenotesLocal, isNamed_iff localhost, isBelow_iff localhost (by decide),
    isBelow_iff internal (by decide)]
  have dot : "localhost".toList ++ ['.'] = "localhost.".toList := by decide
  have sub : '.' :: "localhost".toList = ".localhost".toList := by decide
  have subDot : '.' :: "localhost.".toList = ".localhost.".toList := by decide
  have below : '.' :: "internal".toList = ".internal".toList := by decide
  have belowDot : '.' :: ("internal".toList ++ ['.']) = ".internal.".toList := by decide
  rw [dot, sub, subDot, below, belowDot]
  unfold PassesGuard EscapesGuard
  dsimp only [Host.serialize]
  generalize toLowerCase n.text = text
  constructor
  · rintro ⟨⟨named, outside⟩, (same | same) | (ends | ends) | ends | ends⟩
    · exact (named (same ▸ by decide)).elim
    · exact .inl same
    · exact .inr (.inl ends)
    · exact .inr (.inr (.inl ends))
    · exact (outside ends).elim
    · exact .inr (.inr (.inr ends))
  · rintro (rfl | ends | ends | ends)
    · exact ⟨by decide, .inl (.inr rfl)⟩
    · exact ⟨passes_of_suffix ends (by decide) (by decide), .inr (.inl (.inl ends))⟩
    · exact ⟨passes_of_suffix ends (by decide) (by decide), .inr (.inl (.inr ends))⟩
    · exact ⟨passes_of_suffix ends (by decide) (by decide), .inr (.inr (.inr ends))⟩

theorem blockedHosts_ipv4 {address : IPv4} :
    toLowerCase address.serialize ∈ blockedHosts ↔
      address = ⟨0, 0, 0, 0⟩ ∨ address = ⟨127, 0, 0, 1⟩ := by
  rw [IPv4.toLowerCase_serialize]
  have zeros : "0.0.0.0".toList = IPv4.serialize ⟨0, 0, 0, 0⟩ := by decide
  have loopback : "127.0.0.1".toList = IPv4.serialize ⟨127, 0, 0, 1⟩ := by decide
  simp only [blockedHosts, List.mem_cons, List.not_mem_nil, or_false]
  constructor
  · rintro (same | same | same | same | same)
    · exact (address.serialize_ne (by decide) same).elim
    · exact .inl (IPv4.serialize_inj (same.trans zeros))
    · exact .inr (IPv4.serialize_inj (same.trans loopback))
    · exact (address.serialize_ne (by decide) same).elim
    · exact (address.serialize_ne (by decide) same).elim
  · rintro (rfl | rfl)
    · exact .inr (.inl zeros.symm)
    · exact .inr (.inr (.inl loopback.symm))

/-- **What escapes the guard** is local and passes it, for every kind of host. -/
theorem escapesGuard_iff : PassesGuard host ∧ DenotesLocal host ↔ EscapesGuard host := by
  cases host with
  | name n => exact escapesGuard_name
  | ipv4 address =>
      unfold PassesGuard
      rw [Host.serialize, blockedHosts_ipv4, not_or]
      have outside : ¬ ".internal".toList <:+ toLowerCase address.serialize :=
        address.not_suffix (by decide)
      constructor
      · rintro ⟨⟨⟨given, named⟩, _⟩, loopback | unspecified⟩
        · exact ⟨loopback, named⟩
        · exact (given unspecified).elim
      · rintro ⟨loopback, named⟩
        refine ⟨⟨⟨?_, named⟩, outside⟩, .inl loopback⟩
        rintro rfl
        rw [IPv4.Loopback] at loopback
        revert loopback
        decide
  | ipv6 address =>
      refine ⟨fun passes => passes.2, fun escapes => ⟨⟨?_, ?_⟩, escapes⟩⟩
      · rw [toLowerCase_ipv6]
        have first : ∀ blocked ∈ blockedHosts, blocked.head? ≠ some '[' := by decide
        exact fun blocked => first _ blocked rfl
      · have parts : ".internal".toList = ".interna".toList ++ ['l'] := by decide
        rw [parts]
        exact ipv6_not_suffix (by decide)
  | empty =>
      exact ⟨fun passes => passes.2, False.elim⟩

/-! ## The requests of a step -/

theorem Prog.Within.ofExceptBind {I : Iface} {α β : Type} {A : I.Op → Prop} {x : Except I.Err α}
    {f : α → Prog I β} (rest : ∀ a, x = .ok a → (f a).Within A) :
    (Prog.ofExcept x >>= f).Within A := by
  cases x with
  | error e => trivial
  | ok a => exact rest a rfl

/-- Whatever the configuration is that comes to a URL, and however the limiter, the circuit
breaker and the network answer, the step sends requests to hosts that are not local only. -/
def RequestsOnlyRemote (web : Web) (url : String) : Prop :=
  ∀ config context rateLimiter, (config.interpolate context).url = url →
    (executeHttpRequestNode web config context rateLimiter).Within fun (o : HttpOp) =>
      ∀ request, o = .fetch request → ¬ DenotesLocal request.url.host

theorem performRequest_within {A : HttpOp → Prop} {request : HttpRequest}
    (fire : A (.fire request.url.hostText)) (fetch : A (.fetch request))
    (read : ∀ json, A (.readBody json)) : (performRequest request).Within A := by
  unfold performRequest
  refine Prog.Within.bind (Prog.Within.perform fire) fun _ => ?_
  refine Prog.Within.bind (Prog.Within.perform fetch) fun response => ?_
  refine Prog.Within.bind (Prog.Within.perform (read _)) fun _ => ?_
  trivial

/-- Every request goes to the URL that passed the guard. -/
theorem executeHttpRequestNode_within (web : Web) (config : HttpRequestNodeConfig) (context : Json)
    (rateLimiter : Bool) :
    (executeHttpRequestNode web config context rateLimiter).Within fun (o : HttpOp) =>
      ∀ request, o = .fetch request →
        assertSafeUrl web (config.interpolate context).url = .ok request.url := by
  unfold executeHttpRequestNode
  refine Prog.Within.ofExceptBind fun safeUrl guarded => ?_
  refine Prog.Within.ofExceptBind fun headers _ => ?_
  have sent (request : HttpRequest) (same : request.url = safeUrl) :
      (performRequest request).Within fun (o : HttpOp) => ∀ request, o = .fetch request →
        assertSafeUrl web (config.interpolate context).url = .ok request.url := by
    refine performRequest_within (fun _ other => (by cases other)) ?_ fun _ _ other => (by cases other)
    intro other own
    rw [← HttpOp.fetch.inj own, same]
    exact guarded
  refine Prog.Within.ite ?_ (sent _ rfl)
  exact Prog.Within.bind (Prog.Within.perform fun _ other => (by cases other)) fun _ => sent _ rfl

/-- A configuration that comes to a URL in a context that holds it. -/
theorem interpolateTemplate_token (url : String) :
    interpolateTemplate "\x7b\x7burl\x7d\x7d" (.object [("url", .string url)]) = url := by
  have chars : "\x7b\x7burl\x7d\x7d".toList = ['{', '{', 'u', 'r', 'l', '}', '}'] := by decide
  have token : tokenAt ['{', '{', 'u', 'r', 'l', '}', '}'] = some ("url", 7) := by decide
  have segments : pathSegments "url" = ["url"] := by decide
  have text : tokenText "url" (.object [("url", .string url)]) = url := by
    rw [tokenText, resolvePath, segments]
    rfl
  rw [interpolateTemplate, chars, replaceTokens, token]
  dsimp only
  rw [text]
  simp [replaceTokens]

/-- **The HTTP request step sends requests to remote hosts only just when** the host of its URL is
none of those that escape the guard. -/
theorem requestsOnlyRemote_iff (web : Web) (url : String) :
    RequestsOnlyRemote web url ↔
      ∀ parsed, web.newURL url = .ok parsed → ¬ EscapesGuard parsed.host := by
  constructor
  · intro only parsed parses escapes
    obtain ⟨passes, isLocal⟩ := escapesGuard_iff.mpr escapes
    have guarded : assertSafeUrl web url = .ok parsed := assertSafeUrl_ok.mpr ⟨parses, passes⟩
    have within := only { url := "\x7b\x7burl\x7d\x7d" } (.object [("url", .string url)]) false
      (interpolateTemplate_token url)
    have interpolated : (HttpRequestNodeConfig.interpolate { url := "\x7b\x7burl\x7d\x7d" }
        (.object [("url", .string url)])).url = url := interpolateTemplate_token url
    simp only [executeHttpRequestNode, interpolated, guarded] at within
    exact (within.2 (.ok ())).1 _ rfl isLocal
  · intro remote config context rateLimiter same
    refine Prog.Within.mono (fun o sent request isFetch isLocal => ?_)
      (executeHttpRequestNode_within web config context rateLimiter)
    have guarded := sent request isFetch
    rw [same] at guarded
    obtain ⟨parses, passes⟩ := assertSafeUrl_ok.mp guarded
    exact remote request.url parses (escapesGuard_iff.mp ⟨passes, isLocal⟩)

/-- The loopback address of IPv6 in a URL. -/
def loopbackUrl : URL where
  scheme := "http"
  host := .ipv6 ⟨[0, 0, 0, 0, 0, 0, 0, 1], rfl⟩
  port := none
  path := "/"
  searchParams := []

/-- A runtime that knows one URL. -/
def loopbackWeb : Web where
  newURL text := if text = "http://[::1]/" then .ok loopbackUrl else .error (error "Invalid URL")
  invalidHeader _ _ := error "Invalid header"
  hmac _ payload := payload

/-- A request to the loopback address of IPv6 passes: its text has brackets. -/
theorem ipv6Loopback_not_remote : ¬ RequestsOnlyRemote loopbackWeb "http://[::1]/" := by
  intro only
  have same : interpolateTemplate "http://[::1]/" .null = "http://[::1]/" := by decide
  have passes : PassesGuard loopbackUrl.host := ⟨by decide, by decide⟩
  have guarded : assertSafeUrl loopbackWeb "http://[::1]/" = .ok loopbackUrl :=
    assertSafeUrl_ok.mpr ⟨rfl, passes⟩
  have within := only { url := "http://[::1]/" } .null false same
  simp only [executeHttpRequestNode, HttpRequestNodeConfig.interpolate, same, guarded] at within
  exact (within.2 (.ok ())).1 _ rfl (.inl rfl)

end

end Workflow
