import BirthHub.Agents.Policy
import BirthHub.Effect.Prog
import BirthHub.Http.Net

/-!
# The HTTP tool of agents

`HttpTool` of `packages/agents-core/src/tools/httpTool.ts`: the guard on hosts, the allowlist of
the tenant and the loop of attempts. The input is one that the schema has parsed.

The guard recognises addresses by the start of their text, if the text is an address at all. Of
the hosts that it should block, those that it misses are listed for each kind of host.
-/

namespace Agents

open Data Effect Http

/-- The context of a call, with the domains that it may reach. -/
structure HttpToolContext extends ToolExecutionContext where
  allowlistedDomains : Option (List String) := none

structure HttpToolInput where
  url : String
  body : Option Json := none
  headers : List (String × String) := []
  method : String := "GET"
  query : List (String × String) := []
  retries : Nat := 2
  timeoutMs : Option Nat := none

structure HttpTool where
  allowlistByTenant : List (String × List String) := []
  timeoutMs : Nat := 30000

/-- `RequestInit`, with the time limit of its signal. -/
structure RequestInit where
  headers : List (String × String)
  method : String
  timeoutMs : Nat
  body : Option String

structure ToolResponse where
  status : Nat
  headers : List (String × String)

structure HttpToolOutput where
  attempt : Nat
  body : Json
  headers : List (String × String)
  status : Nat

inductive ToolOp
  | fetch (url : URL) (init : RequestInit)
  /-- `response.json()`, or `response.text()`. -/
  | readBody (json : Bool)
  /-- `Math.floor(Math.random() * 120)`. -/
  | jitter
  | sleep (milliseconds : Nat)

def ToolIface : Iface where
  Op := ToolOp
  Res
    | .fetch _ _ => ToolResponse
    | .readBody _ => Json
    | .jitter => Fin 120
    | .sleep _ => Unit
  Err := Thrown

/-! ## The guard -/

/-- `/^172\.(1[6-9]|2\d|3[0-1])\./.test(hostname)`. -/
def startsPrivate172 : List Char → Bool
  | '1' :: '7' :: '2' :: '.' :: first :: second :: '.' :: _ =>
      (first == '1' && "6789".toList.contains second) ||
      (first == '2' && "0123456789".toList.contains second) ||
      (first == '3' && "01".toList.contains second)
  | _ => false

def isPrivateIpAddress (hostname : List Char) : Bool :=
  if isIP hostname = 0 then false
  else
    hostname == "0.0.0.0".toList ||
    hostname == "::1".toList ||
    "10.".toList.isPrefixOf hostname ||
    "127.".toList.isPrefixOf hostname ||
    "192.168.".toList.isPrefixOf hostname ||
    startsPrivate172 hostname ||
    "fc".toList.isPrefixOf hostname ||
    "fd".toList.isPrefixOf hostname

def isBlockedHost (hostname : List Char) : Bool :=
  let normalized := toLowerCase hostname
  normalized == "localhost".toList ||
  ".localhost".toList.isSuffixOf normalized ||
  ".local".toList.isSuffixOf normalized ||
  normalized == "0.0.0.0".toList ||
  normalized == "127.0.0.1".toList ||
  normalized == "::1".toList ||
  isPrivateIpAddress normalized

/-- `hostAllowed`, where `lower` is `toLowerCase` on the domains of the list. -/
def hostAllowed (lower : String → String) (hostname : List Char) (allowlist : List String) : Bool :=
  if allowlist.length = 0 then true
  else
    allowlist.any fun domain =>
      let normalizedDomain := (lower domain).toList
      toLowerCase hostname == normalizedDomain ||
        ('.' :: normalizedDomain).isSuffixOf (toLowerCase hostname)

/-! ## The request -/

/-- `url.searchParams.set(key, value)`: the first parameter of that name is kept. -/
def setSearchParam (params : List (String × String)) (key value : String) :
    List (String × String) :=
  match params with
  | [] => [(key, value)]
  | param :: params =>
      if param.1 = key then (key, value) :: params.filter fun other => other.1 ≠ key
      else param :: setSearchParam params key value

/-- The URL with the query of the input. -/
def withQuery (url : URL) (query : List (String × String)) : URL :=
  { url with
    searchParams := query.foldl (fun params q => setSearchParam params q.1 q.2) url.searchParams }

namespace HttpTool

/-- The domains that a call may reach; all if there are none. -/
def allowlist (tool : HttpTool) (context : HttpToolContext) : List String :=
  (context.allowlistedDomains.or (tool.allowlistByTenant.lookup context.tenantId)).getD []

/-- One attempt. -/
def send (url : URL) (init : RequestInit) (attempt : Nat) : Prog ToolIface HttpToolOutput := do
  let response ← Prog.perform (I := ToolIface) (.fetch url init)
  let contentType := (response.headers.lookup "content-type").getD ""
  let body ← Prog.perform (I := ToolIface)
    (.readBody (decide ("application/json".toList <:+: contentType.toList)))
  return { attempt, body, headers := response.headers, status := response.status }

/-- The loop of attempts from one on, with the number of attempts after it. -/
def attempts (url : URL) (init : RequestInit) : (attempt more : Nat) → Prog ToolIface HttpToolOutput
  | attempt, 0 => send url init attempt
  | attempt, more + 1 =>
      (send url init attempt).tryCatch fun _ => do
        let jitter ← Prog.perform (I := ToolIface) .jitter
        Prog.perform (I := ToolIface) (.sleep (200 * attempt + Fin.val jitter))
        attempts url init (attempt + 1) more

def execute (tool : HttpTool) (lower : String → String) (newURL : String → Except Thrown URL)
    (input : HttpToolInput) (context : HttpToolContext) : Prog ToolIface HttpToolOutput := do
  let parsed ← Prog.ofExcept (newURL input.url)
  let url := withQuery parsed input.query
  if isBlockedHost url.hostname then
    .throw (error ("HTTP tool blocked host '" ++ String.ofList url.hostname ++ "' to prevent SSRF."))
  else if !hostAllowed lower url.hostname (tool.allowlist context) then
    .throw (error ("HTTP tool blocked domain '" ++ String.ofList url.hostname ++
      "' because it is outside tenant allowlist."))
  else
    let requestBody := input.body.map fun body =>
      match body with
      | .string s => s
      | body => body.stringify
    attempts url {
      headers := input.headers
      method := input.method
      timeoutMs := input.timeoutMs.getD tool.timeoutMs
      body := requestBody } 1 input.retries

end HttpTool



/-! ## What the guard misses -/

/-- The tool must not reach the host. -/
def IsDeniedHost : Host → Prop
  | .name n => IsNamed "localhost".toList n.text ∨ IsBelow "localhost".toList n.text ∨
      IsBelow "local".toList n.text
  | .ipv4 address => address.Loopback ∨ address.Unspecified ∨ address.LinkLocal ∨ address.Private
  | .ipv6 address => address.Loopback ∨ address.UniqueLocal ∨
      ∃ mapped ∈ address.mapped, mapped.Private
  | .empty => False

/-- The denied hosts that the guard takes for others. -/
def IsMissedHost : Host → Prop
  | .name n => toLowerCase n.text = "localhost.".toList ∨
      ".localhost.".toList <:+ toLowerCase n.text ∨ ".local.".toList <:+ toLowerCase n.text
  | .ipv4 address => address.LinkLocal
  | .ipv6 address => address.Loopback ∨ address.UniqueLocal ∨
      ∃ mapped ∈ address.mapped, mapped.Private
  | .empty => False

section

variable {host : Host}

theorem startsPrivate172_append {text rest : List Char} (matched : startsPrivate172 text = true) :
    startsPrivate172 (text ++ rest) = true := by
  unfold startsPrivate172 at matched
  split at matched
  · exact matched
  · cases matched

/-- The regular expression matches the texts that start with 172 and a number from 16 to 31. -/
theorem startsPrivate172_iff {text : List Char} :
    startsPrivate172 text = true ↔
      ∃ k : Fin 16, "172.".toList ++ (decimal (16 + k.val) ++ ['.']) <+: text := by
  have start : "172.".toList = ['1', '7', '2', '.'] := by decide
  constructor
  · intro matched
    unfold startsPrivate172 at matched
    split at matched
    · rename_i first second rest
      suffices number : ∃ k : Fin 16, [first, second] = decimal (16 + k.val) by
        obtain ⟨k, digits⟩ := number
        refine ⟨k, ?_⟩
        rw [start, ← digits]
        exact ⟨rest, rfl⟩
      have ones : "6789".toList = ['6', '7', '8', '9'] := by decide
      have twos : "0123456789".toList = ['0', '1', '2', '3', '4', '5', '6', '7', '8', '9'] := by
        decide
      have threes : "01".toList = ['0', '1'] := by decide
      simp only [ones, twos, threes, Bool.or_eq_true, Bool.and_eq_true, beq_iff_eq,
        List.contains_iff_mem, List.mem_cons, List.not_mem_nil, or_false] at matched
      rcases matched with (⟨rfl, mem⟩ | ⟨rfl, mem⟩) | ⟨rfl, mem⟩
      · rcases mem with rfl | rfl | rfl | rfl <;> decide
      · rcases mem with rfl | rfl | rfl | rfl | rfl | rfl | rfl | rfl | rfl | rfl <;> decide
      · rcases mem with rfl | rfl <;> decide
    · cases matched
  · rintro ⟨k, rest, rfl⟩
    refine startsPrivate172_append ?_
    revert k
    decide

theorem startsPrivate172_serialize (address : IPv4) :
    startsPrivate172 address.serialize = true ↔
      address.a = 172 ∧ 16 ≤ address.b ∧ address.b ≤ 31 := by
  have start172 : "172.".toList = decimal (172 : Fin 256).val ++ ['.'] := by decide
  have starts (n : Fin 256) : "172.".toList ++ (decimal n.val ++ ['.']) <+: address.serialize ↔
      address.a = 172 ∧ address.b = n := by
    rw [start172, List.append_assoc]
    exact IPv4.starts_two_iff
  rw [startsPrivate172_iff, Fin.le_def, Fin.le_def]
  constructor
  · rintro ⟨k, ends⟩
    obtain ⟨first, second⟩ := (starts ⟨16 + k.val, by omega⟩).mp ends
    rw [second]
    have small := k.isLt
    refine ⟨first, Nat.le_add_right 16 _, ?_⟩
    have bound : 16 + k.val ≤ 31 := by omega
    exact bound
  · rintro ⟨first, least, greatest⟩
    have least' : 16 ≤ address.b.val := least
    have greatest' : address.b.val ≤ 31 := greatest
    refine ⟨⟨address.b.val - 16, by omega⟩, ?_⟩
    rw [Nat.add_sub_cancel' least']
    exact (starts address.b).mpr ⟨first, rfl⟩

/-- The texts of private addresses, with the loopback and the unspecified ones. -/
theorem isPrivateIpAddress_serialize (address : IPv4) :
    isPrivateIpAddress address.serialize = true ↔
      address.Unspecified ∨ address.Loopback ∨ address.Private := by
  have zeros : "0.0.0.0".toList = IPv4.serialize ⟨0, 0, 0, 0⟩ := by decide
  have ten : "10.".toList = decimal (10 : Fin 256).val ++ ['.'] := by decide
  have loopback : "127.".toList = decimal (127 : Fin 256).val ++ ['.'] := by decide
  have local192 : "192.168.".toList =
      decimal (192 : Fin 256).val ++ '.' :: (decimal (168 : Fin 256).val ++ ['.']) := by
    decide
  have unspecified : address.serialize = "0.0.0.0".toList ↔ address.Unspecified := by
    rw [zeros]
    exact ⟨IPv4.serialize_inj, fun same => congrArg _ same⟩
  have fc : ¬ "fc".toList <+: address.serialize := fun starts =>
    address.not_subset (by decide) starts.subset
  have fd : ¬ "fd".toList <+: address.serialize := fun starts =>
    address.not_subset (by decide) starts.subset
  have colons : address.serialize ≠ "::1".toList := address.serialize_ne (by decide)
  rw [isPrivateIpAddress, isIP_serialize, if_neg (by decide), ten, loopback, local192]
  simp only [Bool.or_eq_true, beq_iff_eq, List.isPrefixOf_iff_prefix, unspecified, colons,
    startsPrivate172_serialize, IPv4.starts_iff, IPv4.starts_two_iff, fc, fd, or_false]
  unfold IPv4.Loopback IPv4.Private
  tauto

theorem isBlockedHost_eq_false {hostname : List Char} :
    isBlockedHost hostname = false ↔
      toLowerCase hostname ∉ ["localhost".toList, "0.0.0.0".toList, "127.0.0.1".toList, "::1".toList] ∧
      ¬ ".localhost".toList <:+ toLowerCase hostname ∧ ¬ ".local".toList <:+ toLowerCase hostname ∧
      isPrivateIpAddress (toLowerCase hostname) = false := by
  simp only [isBlockedHost, ← Bool.not_eq_true, Bool.or_eq_true, beq_iff_eq,
    List.isSuffixOf_iff_suffix, List.mem_cons, List.not_mem_nil, or_false, not_or]
  constructor
  · rintro ⟨⟨⟨⟨⟨⟨a, b⟩, c⟩, d⟩, e⟩, f⟩, g⟩
    exact ⟨⟨a, d, e, f⟩, b, c, g⟩
  · rintro ⟨⟨a, d, e, f⟩, b, c, g⟩
    exact ⟨⟨⟨⟨⟨⟨a, b⟩, c⟩, d⟩, e⟩, f⟩, g⟩

/-- Names keep clear of the colon in lower case. -/
theorem colon_notMem_toLowerCase (n : HostName) : ':' ∉ toLowerCase n.text := by
  intro mem
  obtain ⟨c, inside, lower⟩ := List.mem_map.mp mem
  by_cases upper : c.isUpper = true
  · rw [Char.toLower_eq_of_isUpper upper] at lower
    rw [Char.isUpper, decide_eq_true_eq] at upper
    have least : 65 ≤ c.toNat := UInt32.le_iff_toNat_le.mp upper.1
    have greatest : c.toNat ≤ 90 := UInt32.le_iff_toNat_le.mp upper.2
    clear upper
    generalize c.toNat = code at lower least greatest
    interval_cases code <;> revert lower <;> decide
  · rw [Char.toLower_eq_of_not_isUpper upper] at lower
    exact n.colonless (lower ▸ inside)

/-- A name with an end that no blocked name has passes. -/
theorem not_isBlockedHost_of_suffix {n : HostName} {part : List Char}
    (ends : part <:+ toLowerCase n.text)
    (apart : ∀ blocked ∈ ["localhost".toList, "0.0.0.0".toList, "127.0.0.1".toList, "::1".toList,
      ".localhost".toList, ".local".toList], ¬ part <:+ blocked)
    (outside : ¬ ".localhost".toList <:+ part ∧ ¬ ".local".toList <:+ part)
    (letter : part.any (fun c => !c.isDigit && c != '.') = true) : isBlockedHost n.text = false := by
  obtain ⟨c, mem, other⟩ := List.any_eq_true.mp letter
  rw [Bool.and_eq_true, Bool.not_eq_true', bne_iff_ne] at other
  refine isBlockedHost_eq_false.mpr ⟨fun blocked => ?_, fun internal => ?_, fun internal => ?_, ?_⟩
  · refine apart _ (List.mem_of_mem_take (i := 4) ?_) ends
    exact blocked
  · rcases List.suffix_or_suffix_of_suffix ends internal with short | short
    · exact apart _ (by simp) short
    · exact outside.1 short
  · rcases List.suffix_or_suffix_of_suffix ends internal with short | short
    · exact apart _ (by simp) short
    · exact outside.2 short
  · have noAddress := isIP_of_colonless (colon_notMem_toLowerCase n) ⟨c, ends.subset mem, other⟩
    rw [isPrivateIpAddress, if_pos noAddress]

theorem isMissedHost_name {n : HostName} :
    isBlockedHost n.text = false ∧ IsDeniedHost (.name n) ↔ IsMissedHost (.name n) := by
  have localhost : ¬ ['.'] <:+ "localhost".toList := by decide
  have localName : ¬ ['.'] <:+ "local".toList := by decide
  have dot : "localhost".toList ++ ['.'] = "localhost.".toList := by decide
  have sub : '.' :: "localhost".toList = ".localhost".toList := by decide
  have subDot : '.' :: "localhost.".toList = ".localhost.".toList := by decide
  have below : '.' :: "local".toList = ".local".toList := by decide
  have belowDot : '.' :: ("local".toList ++ ['.']) = ".local.".toList := by decide
  simp only [IsDeniedHost, isNamed_iff localhost, isBelow_iff localhost (by decide),
    isBelow_iff localName (by decide)]
  rw [dot, sub, subDot, below, belowDot, IsMissedHost]
  constructor
  · rintro ⟨passes, (same | same) | (ends | ends) | ends | ends⟩
    · refine ((isBlockedHost_eq_false.mp passes).1 ?_).elim
      rw [same]
      exact List.mem_cons_self
    · exact .inl same
    · exact ((isBlockedHost_eq_false.mp passes).2.1 ends).elim
    · exact .inr (.inl ends)
    · exact ((isBlockedHost_eq_false.mp passes).2.2.1 ends).elim
    · exact .inr (.inr ends)
  · rintro (same | ends | ends)
    · have ends : "localhost.".toList <:+ toLowerCase n.text := by rw [same]
      exact ⟨not_isBlockedHost_of_suffix ends (by decide) (by decide)
        (by decide), .inl (.inr same)⟩
    · exact ⟨not_isBlockedHost_of_suffix ends (by decide) (by decide)
        (by decide), .inr (.inl (.inr ends))⟩
    · exact ⟨not_isBlockedHost_of_suffix ends (by decide) (by decide)
        (by decide), .inr (.inr (.inr ends))⟩

theorem isBlockedHost_ipv4 (address : IPv4) :
    isBlockedHost address.serialize = false ↔
      ¬ address.Unspecified ∧ ¬ address.Loopback ∧ ¬ address.Private := by
  have zeros : "0.0.0.0".toList = IPv4.serialize ⟨0, 0, 0, 0⟩ := by decide
  have one : "127.0.0.1".toList = IPv4.serialize ⟨127, 0, 0, 1⟩ := by decide
  have outside : ¬ ".localhost".toList <:+ toLowerCase address.serialize :=
    address.not_suffix (by decide)
  have outside' : ¬ ".local".toList <:+ toLowerCase address.serialize :=
    address.not_suffix (by decide)
  rw [isBlockedHost_eq_false, IPv4.toLowerCase_serialize, ← Bool.not_eq_true,
    isPrivateIpAddress_serialize]
  rw [IPv4.toLowerCase_serialize] at outside outside'
  rw [not_or, not_or]
  refine ⟨fun passes => passes.2.2.2, fun others => ⟨?_, outside, outside', others⟩⟩
  · simp only [List.mem_cons, List.not_mem_nil, or_false, not_or]
    refine ⟨address.serialize_ne (by decide), fun same => ?_, fun same => ?_,
      address.serialize_ne (by decide)⟩
    · exact others.1 (IPv4.serialize_inj (same.trans zeros))
    · exact others.2.1 (congrArg IPv4.a (IPv4.serialize_inj (same.trans one)))

/-- **What the guard misses** is denied and not blocked, for every kind of host. -/
theorem isMissedHost_iff :
    isBlockedHost host.serialize = false ∧ IsDeniedHost host ↔ IsMissedHost host := by
  cases host with
  | name n => exact isMissedHost_name
  | ipv4 address =>
      rw [Host.serialize, isBlockedHost_ipv4]
      simp only [IsDeniedHost, IsMissedHost]
      refine ⟨fun denied => by tauto, fun linkLocal => ⟨⟨?_, ?_, ?_⟩, .inr (.inr (.inl linkLocal))⟩⟩
      · rintro rfl
        exact absurd linkLocal.1 (by decide)
      · exact fun loopback => absurd (linkLocal.1.symm.trans loopback) (by decide)
      · rintro (ten | ⟨other, _⟩ | ⟨other, _⟩)
        · exact absurd (linkLocal.1.symm.trans ten) (by decide)
        · exact absurd (linkLocal.1.symm.trans other) (by decide)
        · exact absurd (linkLocal.1.symm.trans other) (by decide)
  | ipv6 address =>
      refine ⟨fun denied => denied.2, fun missed => ⟨isBlockedHost_eq_false.mpr ?_, missed⟩⟩
      have sub : ".localhost".toList = ".localhos".toList ++ ['t'] := by decide
      have below : ".local".toList = ".loca".toList ++ ['l'] := by decide
      refine ⟨?_, sub ▸ ipv6_not_suffix (by decide), below ▸ ipv6_not_suffix (by decide), ?_⟩
      · rw [toLowerCase_ipv6]
        have first : ∀ blocked ∈ ["localhost".toList, "0.0.0.0".toList, "127.0.0.1".toList,
            "::1".toList], blocked.head? ≠ some '[' := by decide
        exact fun blocked => first _ blocked rfl
      · rw [toLowerCase_ipv6, isPrivateIpAddress, if_pos (isIP_bracket _)]
  | empty => exact ⟨fun denied => denied.2, False.elim⟩

end

/-! ## The calls of the tool -/

section

variable {lower : String → String}

/-- The host is a domain of the list or below one. -/
def IsListed (lower : String → String) (allowlist : List String) (host : Host) : Prop :=
  ∃ domain ∈ allowlist, toLowerCase host.serialize = (lower domain).toList ∨
    '.' :: (lower domain).toList <:+ toLowerCase host.serialize

/-- Whatever comes back from the network, the tool calls `fetch` only for hosts that are not denied
and, where there is an allowlist, are on it. -/
def CallsOnlyAllowed (tool : HttpTool) (lower : String → String)
    (newURL : String → Except Thrown URL) (input : HttpToolInput) (context : HttpToolContext) :
    Prop :=
  (tool.execute lower newURL input context).Within fun (o : ToolOp) =>
    ∀ url init, o = .fetch url init → ¬ IsDeniedHost url.host ∧
      (tool.allowlist context ≠ [] → IsListed lower (tool.allowlist context) url.host)

theorem hostAllowed_iff {host : Host} {allowlist : List String} :
    hostAllowed lower host.serialize allowlist = true ↔
      (allowlist ≠ [] → IsListed lower allowlist host) := by
  unfold hostAllowed IsListed
  by_cases empty : allowlist = []
  · simp [empty]
  · rw [if_neg (fun none => empty (List.length_eq_zero_iff.mp none)), List.any_eq_true]
    simp [empty]

theorem attempts_within {A : ToolOp → Prop} {url : URL} {init : RequestInit} {attempt more : Nat}
    (fetch : A (.fetch url init)) (rest : ∀ o : ToolOp, (∀ url init, o ≠ .fetch url init) → A o) :
    (HttpTool.attempts url init attempt more).Within A := by
  have send (attempt : Nat) : (HttpTool.send url init attempt).Within A := by
    refine Prog.Within.bind (Prog.Within.perform fetch) fun response => ?_
    refine Prog.Within.bind (Prog.Within.perform (rest _ fun _ _ other => (by cases other))) fun _ => ?_
    trivial
  induction more generalizing attempt with
  | zero => exact send attempt
  | succ more ih =>
      refine Prog.Within.tryCatch (send attempt) fun _ => ?_
      refine Prog.Within.bind (Prog.Within.perform (rest _ fun _ _ other => (by cases other))) fun _ => ?_
      refine Prog.Within.bind (Prog.Within.perform (rest _ fun _ _ other => (by cases other))) fun _ => ?_
      exact ih

/-- A host that is neither blocked nor outside the allowlist gets the attempts. -/
theorem execute_attempts {tool : HttpTool} {newURL : String → Except Thrown URL}
    {input : HttpToolInput} {context : HttpToolContext} {url : URL}
    (parses : newURL input.url = .ok url) (passes : isBlockedHost url.hostname = false)
    (allowed : hostAllowed lower url.hostname (tool.allowlist context) = true) :
    ∃ init, tool.execute lower newURL input context =
      HttpTool.attempts (withQuery url input.query) init 1 input.retries := by
  have host : (withQuery url input.query).hostname = url.hostname := rfl
  unfold HttpTool.execute
  rw [parses]
  simp only [Prog.ofExcept, bind, Prog.bind]
  rw [host, if_neg (by rw [passes]; decide), if_neg (by rw [allowed]; decide)]
  exact ⟨_, rfl⟩

/-- There is at least one attempt. -/
theorem fetch_of_attempts_within {A : ToolOp → Prop} {url : URL} {init : RequestInit}
    {attempt more : Nat} (within : (HttpTool.attempts url init attempt more).Within A) :
    A (.fetch url init) := by
  cases more with
  | zero => exact within.1
  | succ more => exact within.1

/-- A host that is blocked or outside the allowlist gets none. -/
theorem execute_within {A : ToolOp → Prop} {tool : HttpTool} {newURL : String → Except Thrown URL}
    {input : HttpToolInput} {context : HttpToolContext} {url : URL}
    (parses : newURL input.url = .ok url)
    (refused : isBlockedHost url.hostname = true ∨
      hostAllowed lower url.hostname (tool.allowlist context) = false) :
    (tool.execute lower newURL input context).Within A := by
  have host : (withQuery url input.query).hostname = url.hostname := rfl
  unfold HttpTool.execute
  rw [parses]
  simp only [Prog.ofExcept, bind, Prog.bind]
  rw [host]
  rcases refused with blocked | outside
  · rw [if_pos blocked]
    trivial
  · refine Prog.Within.ite trivial ?_
    rw [if_pos (by rw [outside]; decide)]
    trivial

/-- A denied host that is neither blocked nor outside the allowlist is reached. -/
theorem not_callsOnlyAllowed {tool : HttpTool} {newURL : String → Except Thrown URL}
    {input : HttpToolInput} {context : HttpToolContext} {url : URL}
    (parses : newURL input.url = .ok url) (passes : isBlockedHost url.hostname = false)
    (allowed : hostAllowed lower url.hostname (tool.allowlist context) = true)
    (denied : IsDeniedHost url.host) : ¬ CallsOnlyAllowed tool lower newURL input context := by
  intro within
  obtain ⟨init, sent⟩ := execute_attempts parses passes allowed
  rw [CallsOnlyAllowed, sent] at within
  exact (fetch_of_attempts_within within _ _ rfl).1 denied

/-- **The tool calls `fetch` only for hosts that it may reach just when** the host of the URL is
none that the guard misses, or is not on the allowlist. -/
theorem callsOnlyAllowed_iff (tool : HttpTool) (lower : String → String)
    (newURL : String → Except Thrown URL) (input : HttpToolInput) (context : HttpToolContext) :
    CallsOnlyAllowed tool lower newURL input context ↔
      ∀ url, newURL input.url = .ok url → IsMissedHost url.host →
        hostAllowed lower url.hostname (tool.allowlist context) = false := by
  constructor
  · intro within url parses missed
    obtain ⟨passes, denied⟩ := isMissedHost_iff.mpr missed
    by_contra allowed
    exact not_callsOnlyAllowed parses passes (eq_true_of_ne_false allowed) denied within
  · intro known
    unfold CallsOnlyAllowed
    cases parses : newURL input.url with
    | error e =>
        unfold HttpTool.execute
        rw [parses]
        trivial
    | ok url =>
        cases passes : isBlockedHost url.hostname with
        | true => exact execute_within parses (.inl passes)
        | false =>
            cases allowed : hostAllowed lower url.hostname (tool.allowlist context) with
            | false => exact execute_within parses (.inr allowed)
            | true =>
                obtain ⟨init, sent⟩ := execute_attempts parses passes allowed
                rw [sent]
                refine attempts_within ?_ fun o other url init fetch => (other url init fetch).elim
                intro other init fetch
                obtain ⟨rfl, _⟩ := ToolOp.fetch.inj fetch
                refine ⟨fun denied => ?_, hostAllowed_iff.mp allowed⟩
                have missed : IsMissedHost url.host := isMissedHost_iff.mp ⟨passes, denied⟩
                rw [known url parses missed] at allowed
                cases allowed

/-- A cloud metadata service, at a link-local address. -/
def metadataUrl : URL where
  scheme := "http"
  host := .ipv4 ⟨169, 254, 169, 254⟩
  port := none
  path := "/"
  searchParams := []

/-- A parser that knows one URL. -/
def parseMetadataUrl (text : String) : Except Thrown URL :=
  if text = "http://169.254.169.254/" then .ok metadataUrl else .error (error "Invalid URL")

/-- The tool of a tenant without an allowlist fetches from a link-local address. -/
theorem linkLocal_not_allowed :
    ¬ CallsOnlyAllowed {} id parseMetadataUrl { url := "http://169.254.169.254/" }
      { agentId := "agent", tenantId := "tenant" } :=
  not_callsOnlyAllowed (if_pos rfl) (by decide +kernel) rfl (.inr (.inr (.inl ⟨rfl, rfl⟩)))

end

end Agents
