import BirthHub.Workflow.Interpolation

/-!
# What interpolation keeps

Interpolation should give back the configuration with the tokens of its strings replaced, each by
the text that its path has in the data of the context, and nothing else changed. It does, but for
tokens whose path goes on to something inherited, such as `constructor`, and for members with the
name `__proto__`, which are lost.
-/

namespace Workflow

open Data

variable {text text' : String → String} {context value : Json} {s cs rest out : List Char} {c : Char}

/-! ## Texts -/

/-- A token at the start of a text, with its expression and what follows it. -/
structure TokenFirst (s expression rest : List Char) : Prop where
  given : expression ≠ []
  plain : ∀ c ∈ expression, c ≠ '\x7b' ∧ c ≠ '\x7d'
  split : s = '\x7b' :: '\x7b' :: (expression ++ '\x7d' :: '\x7d' :: rest)

/-- The text is read from left to right: each token gives way to its text, and every other
character stays. What a token gives way to is not read again. -/
inductive Rendered (text : String → String) : List Char → List Char → Prop
  | nil : Rendered text [] []
  | token {s expression rest out : List Char} (first : TokenFirst s expression rest)
      (more : Rendered text rest out) :
      Rendered text s ((text (trim (String.ofList expression))).toList ++ out)
  | char {c : Char} {cs out : List Char}
      (none : ∀ expression rest, ¬ TokenFirst (c :: cs) expression rest)
      (more : Rendered text cs out) : Rendered text (c :: cs) (c :: out)

theorem takeWhile_plain {expression : List Char} (plain : ∀ c ∈ expression, c ≠ '\x7b' ∧ c ≠ '\x7d')
    (rest : List Char) :
    (expression ++ '\x7d' :: rest).takeWhile (fun c => decide (c ≠ '\x7b' ∧ c ≠ '\x7d')) =
      expression := by
  induction expression with
  | nil => rfl
  | cons c expression ih =>
      rw [List.cons_append, List.takeWhile_cons, if_pos (by simpa using plain c List.mem_cons_self),
        ih fun d inside => plain d (List.mem_cons_of_mem _ inside)]

theorem tokenAt_of_first {expression : List Char} (first : TokenFirst s expression rest) :
    tokenAt s = some (trim (String.ofList expression), expression.length + 4) := by
  obtain ⟨given, plain, rfl⟩ := first
  have taken := takeWhile_plain plain ('\x7d' :: rest)
  simp only [tokenAt, taken, List.drop_left]
  rw [if_neg (by simpa using given)]

theorem first_of_tokenAt {expression : String} {length : Nat}
    (found : tokenAt s = some (expression, length)) :
    ∃ inner rest, TokenFirst s inner rest ∧ expression = trim (String.ofList inner) ∧
      length = inner.length + 4 := by
  unfold tokenAt at found
  split at found
  · rename_i tail
    dsimp only at found
    split at found
    · cases found
    · rename_i given
      split at found
      · rename_i rest closed
        cases found
        refine ⟨_, rest, ⟨by simpa using given, ?_, ?_⟩, rfl, rfl⟩
        · intro c inside
          simpa using List.mem_takeWhile_imp inside
        · rw [← closed, List.prefix_iff_eq_append.mp (List.takeWhile_prefix _)]
      · cases found
  · cases found

theorem replaceTokens_skip (skip : Nat) :
    replaceTokens text skip s = replaceTokens text 0 (s.drop skip) := by
  induction s generalizing skip with
  | nil => cases skip <;> rfl
  | cons c cs ih =>
      cases skip with
      | zero => rfl
      | succ skip => rw [replaceTokens, ih, List.drop_succ_cons]

theorem replaceTokens_found {expression : String} {length : Nat}
    (found : tokenAt (c :: cs) = some (expression, length)) :
    replaceTokens text 0 (c :: cs) =
      (text expression).toList ++ replaceTokens text (length - 1) cs := by
  rw [replaceTokens, found]

theorem replaceTokens_none (none : tokenAt (c :: cs) = none) :
    replaceTokens text 0 (c :: cs) = c :: replaceTokens text 0 cs := by
  rw [replaceTokens, none]

theorem replaceTokens_token {expression : List Char} (first : TokenFirst s expression rest) :
    replaceTokens text 0 s =
      (text (trim (String.ofList expression))).toList ++ replaceTokens text 0 rest := by
  have found := tokenAt_of_first first
  obtain ⟨given, plain, rfl⟩ := first
  rw [replaceTokens_found found, replaceTokens_skip]
  have length : expression.length + 4 - 1 = (expression ++ ['\x7d', '\x7d']).length + 1 := by simp
  have split : expression ++ '\x7d' :: '\x7d' :: rest = (expression ++ ['\x7d', '\x7d']) ++ rest := by
    simp
  rw [length, List.drop_succ_cons, split, List.drop_left]

theorem rendered (text : String → String) (s : List Char) :
    Rendered text s (replaceTokens text 0 s) := by
  induction enough : s.length using Nat.strong_induction_on generalizing s with
  | _ n ih =>
      subst enough
      cases s with
      | nil => exact .nil
      | cons c cs =>
          cases found : tokenAt (c :: cs) with
          | none =>
              rw [replaceTokens_none found]
              refine .char (fun expression rest first => ?_) (ih _ (Nat.lt_succ_self _) cs rfl)
              rw [tokenAt_of_first first] at found
              cases found
          | some token =>
              obtain ⟨inner, rest, first, _⟩ := first_of_tokenAt found
              rw [replaceTokens_token first]
              refine .token first (ih _ ?_ rest rfl)
              rw [first.split]
              simp only [List.length_cons, List.length_append]
              omega

theorem Rendered.eq (shown : Rendered text s out) : out = replaceTokens text 0 s := by
  induction shown with
  | nil => rfl
  | token first more ih => rw [replaceTokens_token first, ih]
  | @char c cs out none more ih =>
      rw [replaceTokens_none, ih]
      cases found : tokenAt (c :: cs) with
      | none => rfl
      | some token =>
          obtain ⟨inner, rest, first, _⟩ := first_of_tokenAt found
          exact (none inner rest first).elim

theorem rendered_iff : Rendered text s out ↔ out = replaceTokens text 0 s :=
  ⟨Rendered.eq, fun same => same ▸ rendered text s⟩

/-- The expressions of the tokens of a text, after `skip` characters. -/
def tokens : (skip : Nat) → List Char → List String
  | _, [] => []
  | skip + 1, _ :: cs => tokens skip cs
  | 0, c :: cs =>
      match tokenAt (c :: cs) with
      | some (expression, length) => expression :: tokens (length - 1) cs
      | none => tokens 0 cs

theorem replaceTokens_congr {skip : Nat} (same : ∀ e ∈ tokens skip s, text e = text' e) :
    replaceTokens text skip s = replaceTokens text' skip s := by
  induction s generalizing skip with
  | nil => cases skip <;> rfl
  | cons c cs ih =>
      cases skip with
      | succ skip => exact ih same
      | zero =>
          rw [tokens] at same
          cases found : tokenAt (c :: cs) with
          | none =>
              rw [found] at same
              rw [replaceTokens_none found, replaceTokens_none found, ih same]
          | some token =>
              obtain ⟨expression, length⟩ := token
              rw [found] at same
              rw [replaceTokens_found found, replaceTokens_found found,
                same expression List.mem_cons_self,
                ih fun e inside => same e (List.mem_cons_of_mem _ inside)]

theorem replaceTokens_length {text text' : String → String} {skip : Nat}
    (longer : ∀ e ∈ tokens skip s, (text e).length ≤ (text' e).length) :
    (replaceTokens text skip s).length ≤ (replaceTokens text' skip s).length ∧
    ((∃ e ∈ tokens skip s, (text e).length < (text' e).length) →
      (replaceTokens text skip s).length < (replaceTokens text' skip s).length) := by
  induction s generalizing skip with
  | nil => cases skip <;> simp [replaceTokens, tokens]
  | cons c cs ih =>
      cases skip with
      | succ skip => exact ih longer
      | zero =>
          rw [tokens] at longer ⊢
          cases found : tokenAt (c :: cs) with
          | none =>
              rw [found] at longer
              rw [replaceTokens_none found, replaceTokens_none found, List.length_cons,
                List.length_cons]
              obtain ⟨whole, strict⟩ := ih longer
              exact ⟨Nat.succ_le_succ whole, fun some => Nat.succ_lt_succ (strict some)⟩
          | some token =>
              obtain ⟨expression, length⟩ := token
              rw [found] at longer
              rw [replaceTokens_found found, replaceTokens_found found, List.length_append,
                List.length_append, String.length_toList, String.length_toList]
              have first := longer expression List.mem_cons_self
              obtain ⟨whole, strict⟩ := ih fun e inside => longer e (List.mem_cons_of_mem _ inside)
              refine ⟨by omega, ?_⟩
              rintro ⟨e, inside, shorter⟩
              rcases List.mem_cons.mp inside with rfl | inside
              · omega
              · have rest := strict ⟨e, inside, shorter⟩
                omega

theorem tokens_eq_nil {skip : Nat} (none : ∀ before after, s = before ++ after →
    ∀ expression rest, ¬ TokenFirst after expression rest) : tokens skip s = [] := by
  induction s generalizing skip with
  | nil => cases skip <;> rfl
  | cons c cs ih =>
      have later : ∀ before after, cs = before ++ after →
          ∀ expression rest, ¬ TokenFirst after expression rest := by
        intro before after split
        exact none (c :: before) after (by rw [split, List.cons_append])
      cases skip with
      | succ skip => exact ih later
      | zero =>
          rw [tokens]
          cases found : tokenAt (c :: cs) with
          | none => exact ih later
          | some token =>
              obtain ⟨inner, rest, first, _⟩ := first_of_tokenAt found
              exact (none [] (c :: cs) rfl inner rest first).elim

theorem replaceTokens_plain (none : tokens 0 s = []) : replaceTokens text 0 s = s := by
  induction s with
  | nil => rfl
  | cons c cs ih =>
      rw [tokens] at none
      cases found : tokenAt (c :: cs) with
      | none =>
          rw [found] at none
          rw [replaceTokens_none found, ih none]
      | some token =>
          rw [found] at none
          cases none

/-! ## Paths -/

/-- The value at a path in the data of a value. -/
def ownPath : Json → List String → Option Json
  | value, [] => some value
  | value, segment :: segments => (segmentValue value segment).bind (ownPath · segments)

/-- The text of the value at a path in the context's own data. -/
def ownText (context : Json) (expression : String) : String :=
  match ownPath context (pathSegments expression) with
  | none => ""
  | some value => valueText value

/-- From the prototype of all objects, the path ends there or at one of its methods. -/
def endsInObjectPrototype : List String → Bool
  | [] => true
  | segment :: segments => segment ∈ objectMethods && segments.isEmpty

/-- From the prototype of arrays, the path ends there, at its length or at a method, or it goes on
from its own prototype. -/
def endsInArrayPrototype : List String → Bool
  | [] => true
  | segment :: segments =>
      if segment = "__proto__" then endsInObjectPrototype segments
      else (segment = "length" || segment ∈ arrayMethods) && segments.isEmpty

/-- The path goes from a value to something inherited that has a text. -/
def endsInherited : Json → String → List String → Bool
  | .object _, segment, segments =>
      if segment = "__proto__" then endsInObjectPrototype segments
      else segment ∈ objectMethods && segments.isEmpty
  | .array _, segment, segments =>
      if segment = "__proto__" then endsInArrayPrototype segments
      else segment ∈ arrayMethods && segments.isEmpty
  | _, _, _ => false

/-- The path follows the data of the value for a while, and ends in something inherited. -/
def strays : Json → List String → Bool
  | _, [] => false
  | value, segment :: segments =>
      match segmentValue value segment with
      | some next => strays next segments
      | none => endsInherited value segment segments

theorem follow_method {segments : List String} :
    reachedText (follow .method segments) ≠ "" ↔ segments = [] := by
  cases segments with
  | nil => simp [follow, reachedText]
  | cons segment segments => simp [follow, Reached.property, reachedText]

theorem follow_null {segments : List String} :
    reachedText (follow (.own .null) segments) = "" := by
  cases segments with
  | nil => rfl
  | cons segment segments => simp [follow, Reached.property, segmentValue, inheritedProperty, reachedText]

theorem follow_objectPrototype {segments : List String} :
    reachedText (follow .objectPrototype segments) ≠ "" ↔
      endsInObjectPrototype segments = true := by
  cases segments with
  | nil => simp [follow, reachedText, endsInObjectPrototype]
  | cons segment segments =>
      rw [follow, Reached.property, endsInObjectPrototype]
      by_cases proto : segment = "__proto__"
      · subst proto
        simp [follow_null, objectMethods]
      · rw [if_neg proto]
        by_cases inside : segment ∈ objectMethods
        · simp [inside, follow_method]
        · simp [inside, reachedText]

theorem follow_number {n : Number} {segments : List String} :
    reachedText (follow (.own (.number n)) segments) ≠ "" ↔
      segments = [] ∧ (Json.number n).stringify ≠ "" := by
  cases segments with
  | nil => simp [follow, reachedText, valueText]
  | cons segment segments => simp [follow, Reached.property, segmentValue, inheritedProperty, reachedText]

theorem follow_arrayPrototype {segments : List String} :
    reachedText (follow .arrayPrototype segments) ≠ "" ↔ endsInArrayPrototype segments = true := by
  cases segments with
  | nil => simp [follow, reachedText, endsInArrayPrototype]
  | cons segment segments =>
      rw [follow, Reached.property, endsInArrayPrototype]
      by_cases proto : segment = "__proto__"
      · rw [if_pos proto, if_pos proto]
        exact follow_objectPrototype
      · rw [if_neg proto, if_neg proto]
        by_cases length : segment = "length"
        · have zero : (Json.number (.ofNat 0)).stringify ≠ "" := by decide
          simp [length, Json.nat, follow_number, zero]
        · by_cases inside : segment ∈ arrayMethods
          · simp [inside, length, follow_method]
          · simp [inside, length, reachedText]

/-- What is inherited has a text exactly where the path ends in it. -/
theorem follow_inherited {segment : String} {segments : List String} :
    reachedText ((inheritedProperty value segment).bind (follow · segments)) ≠ "" ↔
      endsInherited value segment segments = true := by
  cases value with
  | object members =>
      rw [inheritedProperty, endsInherited]
      by_cases proto : segment = "__proto__"
      · rw [if_pos proto, if_pos proto]
        exact follow_objectPrototype
      · rw [if_neg proto, if_neg proto]
        by_cases inside : segment ∈ objectMethods
        · simp [inside, follow_method]
        · simp [inside, reachedText]
  | array items =>
      rw [inheritedProperty, endsInherited]
      by_cases proto : segment = "__proto__"
      · rw [if_pos proto, if_pos proto]
        exact follow_arrayPrototype
      · rw [if_neg proto, if_neg proto]
        by_cases inside : segment ∈ arrayMethods
        · simp [inside, follow_method]
        · simp [inside, reachedText]
  | null | bool b | number n | string s => simp [inheritedProperty, endsInherited, reachedText]

/-- A path that strays has a text where the data have none; the others have the text of the data. -/
theorem follow_own (value : Json) (segments : List String) :
    (strays value segments = false → reachedText (follow (.own value) segments) =
      reachedText ((ownPath value segments).map .own)) ∧
    (strays value segments = true → reachedText (follow (.own value) segments) ≠ "" ∧
      ownPath value segments = none) := by
  induction segments generalizing value with
  | nil => simp [strays, follow, ownPath]
  | cons segment segments ih =>
      rw [strays, follow, Reached.property, ownPath]
      cases found : segmentValue value segment with
      | some next => simpa using ih next
      | none =>
          have inherits : reachedText
              ((inheritedProperty value segment).bind (follow · segments)) ≠ "" ↔
              endsInherited value segment segments = true := follow_inherited
          dsimp only [Option.map_none, Option.none_or, Option.bind_none]
          refine ⟨fun kept => ?_, fun lost => ⟨inherits.mpr lost, rfl⟩⟩
          by_contra shown
          rw [inherits.mp shown] at kept
          cases kept

theorem ownText_eq {expression : String} : ownText context expression =
    reachedText ((ownPath context (pathSegments expression)).map .own) := by
  unfold ownText
  cases ownPath context (pathSegments expression) <;> rfl

/-- A token has the text of the data exactly when its path does not stray. -/
theorem tokenText_own {expression : String} :
    (tokenText expression context = ownText context expression ↔
      strays context (pathSegments expression) = false) ∧
    (ownText context expression).length ≤ (tokenText expression context).length := by
  obtain ⟨kept, lost⟩ := follow_own context (pathSegments expression)
  rw [tokenText, resolvePath, ownText_eq]
  cases stray : strays context (pathSegments expression) with
  | false =>
      rw [kept stray]
      exact ⟨⟨fun _ => rfl, fun _ => rfl⟩, Nat.le_refl _⟩
  | true =>
      obtain ⟨shown, missing⟩ := lost stray
      rw [missing]
      exact ⟨⟨fun same => (shown same).elim, nofun⟩, Nat.zero_le _⟩

/-- A template is rendered from the data of the context exactly when no path of it strays. -/
theorem rendered_own {template : String} :
    Rendered (ownText context) template.toList (interpolateTemplate template context).toList ↔
      ∀ e ∈ tokens 0 template.toList, strays context (pathSegments e) = false := by
  rw [rendered_iff, interpolateTemplate, String.toList_ofList]
  constructor
  · intro same e inside
    by_contra stray
    obtain ⟨shown, missing⟩ := (follow_own ..).2 (Bool.eq_true_of_not_eq_false stray)
    have longer : (ownText context e).length < (tokenText e context).length := by
      rw [ownText_eq, missing, tokenText, resolvePath]
      exact Nat.pos_of_ne_zero fun empty => shown (String.length_eq_zero_iff.mp empty)
    have strict : (replaceTokens (ownText context) 0 template.toList).length <
        (replaceTokens (tokenText · context) 0 template.toList).length :=
      (replaceTokens_length fun e _ => tokenText_own.2).2 ⟨e, inside, longer⟩
    rw [same] at strict
    exact Nat.lt_irrefl _ strict
  · intro own
    exact replaceTokens_congr fun e inside => tokenText_own.1.mpr (own e inside)

/-! ## Values -/

mutual

/-- The result is the value with its strings rendered from the data of the context. -/
def Interpolates (context : Json) : Json → Json → Prop
  | .null, .null => True
  | .bool b, .bool b' => b = b'
  | .number n, .number n' => n = n'
  | .string s, .string t => Rendered (ownText context) s.toList t.toList
  | .array items, .array items' => InterpolatesItems context items items'
  | .object members, .object members' => InterpolatesMembers context members members'
  | _, _ => False

def InterpolatesItems (context : Json) : List Json → List Json → Prop
  | [], [] => True
  | item :: items, item' :: items' =>
      Interpolates context item item' ∧ InterpolatesItems context items items'
  | _, _ => False

def InterpolatesMembers (context : Json) :
    List (String × Json) → List (String × Json) → Prop
  | [], [] => True
  | (key, value) :: members, (key', value') :: members' =>
      key = key' ∧ Interpolates context value value' ∧
        InterpolatesMembers context members members'
  | _, _ => False

end

mutual

/-- No token of the value has a path that strays, and no member has the name `__proto__`. -/
def StaysInData (context : Json) : Json → Prop
  | .string s => ∀ e ∈ tokens 0 s.toList, strays context (pathSegments e) = false
  | .array items => ItemsStay context items
  | .object members => MembersStay context members
  | _ => True

def ItemsStay (context : Json) : List Json → Prop
  | [] => True
  | item :: items => StaysInData context item ∧ ItemsStay context items

def MembersStay (context : Json) : List (String × Json) → Prop
  | [] => True
  | (key, value) :: members =>
      key ≠ "__proto__" ∧ StaysInData context value ∧ MembersStay context members

end

theorem InterpolatesMembers.length {members members' : List (String × Json)}
    (renders : InterpolatesMembers context members members') :
    members.length = members'.length := by
  induction members generalizing members' with
  | nil =>
      cases members' with
      | nil => rfl
      | cons => exact renders.elim
  | cons member members ih =>
      cases members' with
      | nil => exact renders.elim
      | cons => exact congrArg (· + 1) (ih renders.2.2)

theorem interpolateMembers_length (context : Json) (members : List (String × Json)) :
    (interpolateMembers context members).length ≤ members.length := by
  induction members with
  | nil => exact Nat.le_refl 0
  | cons member members ih =>
      obtain ⟨key, value⟩ := member
      rw [interpolateMembers]
      split
      · exact Nat.le_succ_of_le ih
      · exact Nat.succ_le_succ ih

mutual

theorem interpolates_iff : ∀ value : Json,
    Interpolates context value (interpolateValue context value) ↔ StaysInData context value
  | .null | .bool _ | .number _ => by simp [interpolateValue, Interpolates, StaysInData]
  | .string s => by
      rw [interpolateValue, Interpolates, StaysInData]
      exact rendered_own
  | .array items => by
      rw [interpolateValue, Interpolates, StaysInData]
      exact interpolatesItems_iff items
  | .object members => by
      rw [interpolateValue, Interpolates, StaysInData]
      exact interpolatesMembers_iff members

theorem interpolatesItems_iff : ∀ items : List Json,
    InterpolatesItems context items (interpolateItems context items) ↔ ItemsStay context items
  | [] => by simp [interpolateItems, InterpolatesItems, ItemsStay]
  | item :: items => by
      rw [interpolateItems, InterpolatesItems, ItemsStay, interpolates_iff item,
        interpolatesItems_iff items]

theorem interpolatesMembers_iff : ∀ members : List (String × Json),
    InterpolatesMembers context members (interpolateMembers context members) ↔
      MembersStay context members
  | [] => by simp [interpolateMembers, InterpolatesMembers, MembersStay]
  | (key, value) :: members => by
      rw [interpolateMembers, MembersStay]
      split
      · -- the member is lost, so the result is too short
        rename_i hidden
        refine ⟨fun renders => ?_, fun stays => (stays.1 hidden).elim⟩
        have shorter := interpolateMembers_length context members
        have same := renders.length
        rw [List.length_cons] at same
        omega
      · rename_i named
        rw [InterpolatesMembers, interpolates_iff value, interpolatesMembers_iff members]
        exact and_congr_left fun _ => ⟨fun _ => named, fun _ => rfl⟩

end

/-- Interpolation keeps the shape of a value, renders its strings in one pass from the data of the
context, and leaves strings without tokens alone. -/
structure StructurePreserving (context value : Json) : Prop where
  interpolates : Interpolates context value (interpolateValue context value)
  untouched : ∀ s : String, (∀ before after, s.toList = before ++ after →
    ∀ expression rest, ¬ TokenFirst after expression rest) → interpolateTemplate s context = s

/-- **Interpolation keeps the structure of what it may read.** It does so for a value exactly when
no token's path strays from the context's data and no member has the name `__proto__`. -/
theorem structurePreserving_iff :
    StructurePreserving context value ↔ StaysInData context value := by
  constructor
  · intro preserving
    exact (interpolates_iff value).mp preserving.interpolates
  · intro stays
    refine ⟨(interpolates_iff value).mpr stays, fun s none => ?_⟩
    rw [interpolateTemplate, replaceTokens_plain (tokens_eq_nil none), String.ofList_toList]

/-- A token that names what every object inherits. -/
theorem inherited_not_preserving :
    ¬ StructurePreserving (.object []) (.string "\x7b\x7bconstructor\x7d\x7d") := by
  intro preserving
  have stays := (interpolates_iff _).mp preserving.interpolates
  have stray := stays "constructor" (by decide)
  revert stray
  decide

end Workflow
