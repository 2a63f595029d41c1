import BirthHub.Data.Entries
import BirthHub.Data.JsonParse

/-!
# JavaScript values and JSON values

`Json.ofValue` is the JavaScript value that `JSON.parse` makes of a JSON value: a number is
kept as a decimal, and the members of an object are set one after another. A JavaScript value
has the members of its objects in property order, each once (`Json.IsValue`); written and
parsed again it has the same text.
-/

namespace Data

/-! ## Numbers -/

namespace Number

/-- The decimal of a number that has one. -/
def ofRat (q : ℚ) : Number :=
  .finite (q < 0) (q * 10 ^ q.den.log2).num.natAbs (-q.den.log2)

theorem factorization_le_log2 {p n : Nat} (positive : n ≠ 0) : n.factorization p ≤ n.log2 := by
  by_cases prime : p.Prime
  · rw [Nat.log2_eq_log_two]
    refine Nat.le_log_of_pow_le (by norm_num) ?_
    exact (Nat.pow_le_pow_left prime.two_le _).trans (Nat.ordProj_le p positive)
  · rw [Nat.factorization_eq_zero_of_not_prime _ prime]
    exact Nat.zero_le _

theorem dvd_pow_log2 {n m : Nat} (positive : n ≠ 0) (decimal : n ∣ 10 ^ m) :
    n ∣ 10 ^ n.log2 := by
  rw [← Nat.factorization_le_iff_dvd positive (by positivity)] at decimal ⊢
  intro p
  have bound := decimal p
  rw [Nat.factorization_pow, Finsupp.smul_apply, smul_eq_mul] at bound ⊢
  by_cases divides : (10 : Nat).factorization p = 0
  · rw [divides, Nat.mul_zero] at bound ⊢
    exact bound
  · exact (factorization_le_log2 positive).trans
      (Nat.le_mul_of_pos_right _ (Nat.pos_of_ne_zero divides))

/-- The denominator of a decimal divides a power of ten. -/
theorem den_dvd_pow {n : Int} {exponent : Int} :
    ((n : ℚ) * 10 ^ exponent).den ∣ 10 ^ (-exponent).toNat := by
  have fraction : (n : ℚ) * 10 ^ exponent =
      Rat.divInt (n * 10 ^ exponent.toNat) (10 ^ (-exponent).toNat) := by
    rw [Rat.divInt_eq_div]
    push_cast
    have split : exponent = exponent.toNat - (-exponent).toNat := by omega
    have ten : (10 : ℚ) ≠ 0 := by norm_num
    conv_lhs => rw [split, zpow_sub₀ ten, zpow_natCast, zpow_natCast]
    rw [mul_div_assoc]
  rw [fraction]
  exact_mod_cast Rat.den_dvd (n * 10 ^ exponent.toNat) (10 ^ (-exponent).toNat)

theorem value_ofRat {n : Number} {q : ℚ} (finite : n.value = some q) :
    (ofRat q).value = some q := by
  cases n with
  | infinite | nan => cases finite
  | finite negative digits exponent =>
      have decimal : q.den ∣ 10 ^ (-exponent).toNat := by
        obtain rfl := Option.some.inj finite
        have signed : ((if negative then -1 else 1) * (digits : ℚ)) =
            (((if negative then -1 else 1) * digits : Int) : ℚ) := by
          split <;> push_cast <;> rfl
        rw [signed]
        exact den_dvd_pow
      obtain ⟨c, scaled⟩ := dvd_pow_log2 q.den_nz decimal
      have whole : q * 10 ^ q.den.log2 = ((q.num * c : Int) : ℚ) := by
        have cast : (10 : ℚ) ^ q.den.log2 = q.den * c := by exact_mod_cast scaled
        rw [cast, ← mul_assoc, Rat.mul_den_eq_num]
        push_cast
        rfl
      have power : (0 : ℚ) < 10 ^ q.den.log2 := by positivity
      have sign : (if q < 0 then -1 else 1 : ℚ) * ((q.num * c).natAbs : ℚ) = (q.num * c : Int) := by
        rw [← Int.cast_natCast, Int.natCast_natAbs]
        split
        · rename_i negative
          have below : ((q.num * c : Int) : ℚ) < 0 := whole ▸ mul_neg_of_neg_of_pos negative power
          rw [abs_of_neg (by exact_mod_cast below)]
          push_cast
          ring
        · rename_i positive
          have above : (0 : ℚ) ≤ (q.num * c : Int) :=
            whole ▸ mul_nonneg (not_lt.mp positive) power.le
          rw [abs_of_nonneg (by exact_mod_cast above), one_mul]
      rw [ofRat, value, whole, Rat.num_intCast]
      simp only [decide_eq_true_eq]
      rw [sign, ← whole, zpow_neg, zpow_natCast, mul_inv_cancel_right₀ power.ne']

theorem eq_of_value {d d' : Nat} {e e' : Int} (ends : d % 10 ≠ 0) (ends' : d' % 10 ≠ 0)
    (same : (d : ℚ) * 10 ^ e = d' * 10 ^ e') : d = d' ∧ e = e' := by
  wlog below : e ≤ e' generalizing d d' e e'
  · exact (this ends' ends same.symm (by omega)).imp Eq.symm Eq.symm
  have ten : (10 : ℚ) ≠ 0 := by norm_num
  obtain ⟨k, rfl⟩ : ∃ k : Nat, e' = e + k := ⟨(e' - e).toNat, by omega⟩
  rw [zpow_add₀ ten, zpow_natCast, mul_comm ((10 : ℚ) ^ e), ← mul_assoc,
    mul_left_inj' (zpow_ne_zero e ten)] at same
  have equal : d = d' * 10 ^ k := by exact_mod_cast same
  cases k with
  | zero => exact ⟨by simpa using equal, by simp⟩
  | succ k =>
      rw [equal, pow_succ, ← mul_assoc, Nat.mul_mod_left] at ends
      exact (ends rfl).elim

theorem stripZeros_ends {fuel digits : Nat} {exponent : Int} (given : digits ≠ 0)
    (enough : digits ≤ fuel) : (stripZeros fuel digits exponent).1 % 10 ≠ 0 := by
  induction fuel generalizing digits exponent with
  | zero => omega
  | succ fuel ih =>
      simp only [stripZeros]
      split
      · exact ih (by omega) (by omega)
      · dsimp only
        omega

theorem toString_eq_of_value {n n' : Number} {q : ℚ} (finite : n.value = some q)
    (finite' : n'.value = some q) : n.toString = n'.toString := by
  have printed {n : Number} (finite : n.value = some q) (zero : q ≠ 0) :
      ∃ digits exponent, n.toString = (if q < 0 then "-" else "") ++ layout digits exponent ∧
        digits % 10 ≠ 0 ∧ |q| = digits * 10 ^ exponent := by
    cases n with
    | infinite | nan => cases finite
    | finite negative digits exponent =>
        obtain rfl := Option.some.inj finite
        have given : digits ≠ 0 := by
          rintro rfl
          simp at zero
        have positive : (0 : ℚ) < digits * 10 ^ exponent := by positivity
        refine ⟨(stripZeros digits digits exponent).1, (stripZeros digits digits exponent).2, ?_,
          stripZeros_ends given le_rfl, ?_⟩
        · rw [toString, if_neg given]
          cases negative
          · simp [not_lt.mpr positive.le]
          · simp [positive]
        · rw [stripZeros_value, mul_assoc, abs_mul, abs_of_pos positive]
          cases negative <;> simp
  have nothing {n : Number} (finite : n.value = some 0) : n.toString = "0" := by
    cases n with
    | infinite | nan => cases finite
    | finite negative digits exponent =>
        have none : digits = 0 := by
          have product := Option.some.inj finite
          by_contra given
          cases negative <;> simp [given, zpow_ne_zero] at product
        rw [toString, if_pos none]
  by_cases zero : q = 0
  · rw [nothing (zero ▸ finite), nothing (zero ▸ finite')]
  · obtain ⟨digits, exponent, text, ends, value⟩ := printed finite zero
    obtain ⟨digits', exponent', text', ends', value'⟩ := printed finite' zero
    obtain ⟨rfl, rfl⟩ := eq_of_value ends ends' (value.symm.trans value')
    rw [text, text']

end Number

/-! ## Values -/

namespace Json

mutual

/-- The value that `JSON.parse` returns. -/
def ofValue : Value → Json
  | .null => .null
  | .bool b => .bool b
  | .number q => .number (.ofRat q)
  | .string s => .string s
  | .array items => .array (ofItems items)
  | .object members => fromEntries (ofMembers members)

def ofItems : List Value → List Json
  | [] => []
  | item :: items => ofValue item :: ofItems items

def ofMembers : List (String × Value) → List (String × Json)
  | [] => []
  | (key, value) :: members => (key, ofValue value) :: ofMembers members

end

mutual

/-- The members of every object are in property order, each once. -/
def IsValue : Json → Prop
  | .array items => AreValues items
  | .object members => fromEntries members = .object members ∧ AreMembers members
  | _ => True

def AreValues : List Json → Prop
  | [] => True
  | item :: items => IsValue item ∧ AreValues items

def AreMembers : List (String × Json) → Prop
  | [] => True
  | (_, value) :: members => IsValue value ∧ AreMembers members

end

/-! ### Members with other values -/

section Entries

variable {change : String × Json → String × Json} {members : List (String × Json)}

theorem setMember_mapEntries (same : ∀ entry, (change entry).1 = entry.1) (entry : String × Json) :
    setMember (members.map change) (change entry).1 (change entry).2 =
      (setMember members entry.1 entry.2).map change := by
  have named : (members.map change).any (·.1 == entry.1) = members.any (·.1 == entry.1) := by
    rw [List.any_map]
    exact congrArg members.any (funext fun member => by rw [Function.comp_apply, same])
  unfold setMember
  rw [same entry, named]
  split
  · rw [List.map_map, List.map_map]
    refine List.map_congr_left fun member _ => ?_
    simp only [Function.comp, same]
    split
    · exact congrArg (·, (change entry).2) (same entry).symm
    · rfl
  · rw [List.map_append]
    exact congrArg (fun key => members.map change ++ [(key, (change entry).2)]) (same entry).symm

theorem propertyOrder_mapEntries (same : ∀ entry, (change entry).1 = entry.1) :
    propertyOrder (members.map change) = (propertyOrder members).map change := by
  let before (a b : String × Json) : Prop := (arrayIndex a.1).getD 0 ≤ (arrayIndex b.1).getD 0
  have sorted (indexed : List (String × Json)) :
      (indexed.map change).insertionSort before = (indexed.insertionSort before).map change :=
    (List.map_insertionSort (r := before) (s := before) change indexed
      fun a _ b _ => by simp only [before, same]).symm
  unfold propertyOrder
  rw [List.filter_map, List.filter_map, List.map_append]
  simp only [Function.comp_def, same]
  exact congrArg (· ++ _) (sorted _)

theorem fromEntries_mapEntries (same : ∀ entry, (change entry).1 = entry.1)
    (ordered : fromEntries members = .object members) :
    fromEntries (members.map change) = .object (members.map change) := by
  have set (entries before : List (String × Json)) :
      (entries.map change).foldl (fun ms e => setMember ms e.1 e.2) (before.map change) =
        (entries.foldl (fun ms e => setMember ms e.1 e.2) before).map change := by
    induction entries generalizing before with
    | nil => rfl
    | cons entry entries ih =>
        rw [List.map_cons, List.foldl_cons, List.foldl_cons, setMember_mapEntries same, ih]
  have own := Json.object.inj ordered
  have sets := set members []
  rw [List.map_nil] at sets
  rw [fromEntries, sets, propertyOrder_mapEntries same, own]

theorem fromEntries_map {f : Json → Json} (ordered : fromEntries members = .object members) :
    fromEntries (members.map (Prod.map id f)) = .object (members.map (Prod.map id f)) :=
  fromEntries_mapEntries (fun _ => rfl) ordered

theorem lookup_mapEntries (same : ∀ entry, (change entry).1 = entry.1) {key : String} :
    (members.map change).lookup key =
      (members.lookup key).map fun value => (change (key, value)).2 := by
  induction members with
  | nil => rfl
  | cons entry members ih =>
      obtain ⟨key', value⟩ := entry
      rw [List.map_cons, ← Prod.mk.eta (p := change (key', value)), same, List.lookup_cons,
        List.lookup_cons, ih]
      by_cases hit : key = key'
      · subst hit
        simp
      · have other : (key == key') = false := by simpa using hit
        rw [other]

end Entries

/-! ### Writing and parsing -/

theorem ofMembers_meaningMembers (members : List (String × Json)) :
    ofMembers (meaningMembers members) = members.map (Prod.map id fun v => ofValue v.meaning) := by
  induction members with
  | nil => rfl
  | cons member members ih =>
      rw [List.map_cons, ← ih]
      rfl

theorem ofItems_meaningItems (items : List Json) :
    ofItems (meaningItems items) = items.map fun v => ofValue v.meaning := by
  induction items with
  | nil => rfl
  | cons item items ih =>
      rw [List.map_cons, ← ih]
      rfl

theorem stringifyItems_congr {f : Json → Json} {items : List Json}
    (same : ∀ item ∈ items, (f item).stringify = item.stringify) :
    stringifyItems (items.map f) = stringifyItems items := by
  induction items with
  | nil => rfl
  | cons item items ih =>
      have first := same item List.mem_cons_self
      have others := ih fun item there => same item (List.mem_cons_of_mem _ there)
      cases items with
      | nil => simpa [stringifyItems] using first
      | cons next items =>
          simp only [List.map_cons] at others ⊢
          simp only [stringifyItems, first, others]

theorem stringifyMembers_congr {f : Json → Json} {members : List (String × Json)}
    (same : ∀ member ∈ members, (f member.2).stringify = member.2.stringify) :
    stringifyMembers (members.map (Prod.map id f)) = stringifyMembers members := by
  induction members with
  | nil => rfl
  | cons member members ih =>
      have first := same member List.mem_cons_self
      have others := ih fun member there => same member (List.mem_cons_of_mem _ there)
      obtain ⟨key, value⟩ := member
      cases members with
      | nil => simpa [stringifyMembers] using first
      | cons next members =>
          simp only [List.map_cons, Prod.map, id] at others first ⊢
          simp only [stringifyMembers, first, others]

mutual

/-- A value that was written and parsed has the text that was written. -/
theorem stringify_ofValue : ∀ v : Json, v.IsValue → (ofValue v.meaning).stringify = v.stringify
  | .null, _ | .bool _, _ | .string _, _ => rfl
  | .number n, _ => by
      cases finite : n.value with
      | none =>
          obtain ⟨text, value⟩ := stringify_infinite finite
          rw [text, value]
          rfl
      | some q =>
          obtain ⟨text, value⟩ := stringify_finite finite
          have back := Number.value_ofRat finite
          rw [text, value, ofValue, (stringify_finite back).1]
          exact Number.toString_eq_of_value back finite
  | .array items, values => by
      simp only [meaning, ofValue, stringify, ofItems_meaningItems]
      rw [stringifyItems_congr (stringify_ofItems items values)]
  | .object members, ⟨ordered, values⟩ => by
      simp only [meaning, ofValue, ofMembers_meaningMembers]
      rw [fromEntries_map ordered, stringify, stringify,
        stringifyMembers_congr (stringify_ofMembers members values)]

theorem stringify_ofItems : ∀ items : List Json, AreValues items → ∀ item ∈ items,
    (ofValue item.meaning).stringify = item.stringify
  | [], _ => nofun
  | first :: items, ⟨value, values⟩ => by
      intro item there
      rcases List.mem_cons.mp there with same | there
      · rw [same]
        exact stringify_ofValue first value
      · exact stringify_ofItems items values item there

theorem stringify_ofMembers : ∀ members : List (String × Json), AreMembers members →
    ∀ member ∈ members, (ofValue member.2.meaning).stringify = member.2.stringify
  | [], _ => nofun
  | (key, value) :: members, ⟨first, values⟩ => by
      intro member there
      rcases List.mem_cons.mp there with same | there
      · rw [same]
        exact stringify_ofValue value first
      · exact stringify_ofMembers members values member there

end

mutual

theorem isValue_ofValue : ∀ v : Json, v.IsValue → (ofValue v.meaning).IsValue
  | .null, _ | .bool _, _ | .string _, _ => trivial
  | .number n, _ => by
      rw [meaning]
      cases n.value <;> exact trivial
  | .array items, values => by
      rw [meaning, ofValue, IsValue, ofItems_meaningItems]
      exact areValues_ofItems items values
  | .object members, ⟨ordered, values⟩ => by
      have kept := fromEntries_map (f := fun v => ofValue v.meaning) ordered
      rw [meaning, ofValue, ofMembers_meaningMembers, kept, IsValue]
      exact ⟨kept, areMembers_ofMembers members values⟩

theorem areValues_ofItems : ∀ items : List Json, AreValues items →
    AreValues (items.map fun v => ofValue v.meaning)
  | [], _ => trivial
  | item :: items, ⟨value, values⟩ => ⟨isValue_ofValue item value, areValues_ofItems items values⟩

theorem areMembers_ofMembers : ∀ members : List (String × Json), AreMembers members →
    AreMembers (members.map (Prod.map id fun v => ofValue v.meaning))
  | [], _ => trivial
  | (_, value) :: members, ⟨first, values⟩ =>
      ⟨isValue_ofValue value first, areMembers_ofMembers members values⟩

end

theorem isObject_ofValue (v : Json) (value : v.IsValue) : (ofValue v.meaning).isObject = v.isObject := by
  cases v with
  | null | bool | string | array => rfl
  | number n =>
      rw [meaning]
      cases n.value <;> rfl
  | object members =>
      rw [meaning, ofValue, ofMembers_meaningMembers, fromEntries_map value.1]
      rfl

/-! ### Values with one meaning -/

theorem meaningItems_eq (items : List Json) : meaningItems items = items.map meaning := by
  induction items with
  | nil => rfl
  | cons item items ih => rw [meaningItems, List.map_cons, ih]

theorem lookup_meaningMembers (members : List (String × Json)) (key : String) :
    (meaningMembers members).lookup key = (members.lookup key).map meaning := by
  induction members with
  | nil => rfl
  | cons member members ih =>
      obtain ⟨name, value⟩ := member
      rw [meaningMembers, List.lookup_cons, List.lookup_cons, ih]
      cases key == name <;> rfl

mutual

/-- Every number in the value is finite. -/
def IsFinite : Json → Prop
  | .number n => n.isFinite = true
  | .array items => AreFinite items
  | .object members => MembersFinite members
  | _ => True

def AreFinite : List Json → Prop
  | [] => True
  | item :: items => IsFinite item ∧ AreFinite items

def MembersFinite : List (String × Json) → Prop
  | [] => True
  | (_, value) :: members => IsFinite value ∧ MembersFinite members

end

theorem areFinite_iff {items : List Json} : AreFinite items ↔ ∀ item ∈ items, item.IsFinite := by
  induction items with
  | nil => simp [AreFinite]
  | cons item items ih => simp [AreFinite, ih]

theorem membersFinite_iff {members : List (String × Json)} :
    MembersFinite members ↔ ∀ member ∈ members, member.2.IsFinite := by
  induction members with
  | nil => simp [MembersFinite]
  | cons member members ih => simp [MembersFinite, ih]

theorem mem_fromEntries (entries : List (String × Json)) :
    ∃ members, fromEntries entries = .object members ∧ ∀ member ∈ members, member ∈ entries := by
  refine ⟨_, rfl, fun member inside => ?_⟩
  have built : ∀ (rest before : List (String × Json)),
      member ∈ rest.foldl (fun ms e => setMember ms e.1 e.2) before →
      member ∈ before ∨ member ∈ rest := by
    intro rest
    induction rest with
    | nil => exact fun before there => .inl there
    | cons entry rest ih =>
        intro before there
        rcases ih _ there with there | there
        · rw [show member = (member.1, member.2) from rfl, mem_setMember] at there
          split at there
          · rename_i same
            exact .inr (List.mem_cons.mpr (.inl (Prod.ext same there)))
          · exact .inl there
        · exact .inr (List.mem_cons_of_mem _ there)
  rcases built entries [] (propertyOrder_perm.mem_iff.mp inside) with none | there
  · cases none
  · exact there

theorem isFinite_fromEntries {entries : List (String × Json)}
    (finite : ∀ entry ∈ entries, entry.2.IsFinite) : (fromEntries entries).IsFinite := by
  obtain ⟨members, made, inside⟩ := mem_fromEntries entries
  rw [made, IsFinite, membersFinite_iff]
  exact fun member there => finite member (inside member there)

/-- A finite number has a value, which is its meaning. -/
theorem meaning_of_finite {n : Number} (finite : n.isFinite = true) :
    ∃ q, n.value = some q ∧ (Json.number n).meaning = .number q := by
  cases n with
  | finite negative digits exponent => exact ⟨_, rfl, rfl⟩
  | infinite | nan => cases finite

/-- How two finite values with one meaning go together. -/
inductive Alike : Json → Json → Prop
  | same (value : Json) : Alike value value
  | number {n n' : Number} (text : (Json.number n).stringify = (Json.number n').stringify) :
      Alike (.number n) (.number n')
  | array {items items' : List Json} (all : items.map meaning = items'.map meaning) :
      Alike (.array items) (.array items')
  | object {members members' : List (String × Json)}
      (all : meaningMembers members = meaningMembers members') :
      Alike (.object members) (.object members')

theorem alike_of_meaning {v w : Json} (finite : v.IsFinite) (finite' : w.IsFinite)
    (same : v.meaning = w.meaning) : Alike v w := by
  cases v with
  | number n =>
      obtain ⟨q, value, means⟩ := meaning_of_finite finite
      rw [means] at same
      cases w with
      | number n' =>
          obtain ⟨q', value', means'⟩ := meaning_of_finite finite'
          rw [means'] at same
          cases same
          refine .number ?_
          rw [(stringify_finite value).1, (stringify_finite value').1,
            Number.toString_eq_of_value value value']
      | null | bool b | string s | array items | object members => cases same
  | null | bool b | string s =>
      cases w with
      | number n' =>
          obtain ⟨q', value', means'⟩ := meaning_of_finite finite'
          rw [means'] at same
          cases same
      | null | bool b | string s | array items | object members =>
          cases same <;> exact .same _
  | array items =>
      cases w with
      | number n' =>
          obtain ⟨q', value', means'⟩ := meaning_of_finite finite'
          rw [means'] at same
          cases same
      | array items' =>
          rw [meaning, meaning, meaningItems_eq, meaningItems_eq] at same
          exact .array (Value.array.inj same)
      | null | bool b | string s | object members => cases same
  | object members =>
      cases w with
      | number n' =>
          obtain ⟨q', value', means'⟩ := meaning_of_finite finite'
          rw [means'] at same
          cases same
      | object members' => exact .object (Value.object.inj same)
      | null | bool b | string s | array items => cases same

mutual

theorem stringify_of_meaning : ∀ v w : Json, v.IsFinite → w.IsFinite → v.meaning = w.meaning →
    v.stringify = w.stringify
  | .null, w, finite, finite', same | .bool _, w, finite, finite', same
  | .string _, w, finite, finite', same => by
      cases alike_of_meaning finite finite' same
      rfl
  | .number n, w, finite, finite', same => by
      cases alike_of_meaning finite finite' same with
      | same => rfl
      | number text => exact text
  | .array items, w, finite, finite', same => by
      cases alike_of_meaning finite finite' same with
      | same => rfl
      | array all => rw [stringify, stringify, stringifyItems_of_meaning items _ finite finite' all]
  | .object members, w, finite, finite', same => by
      cases alike_of_meaning finite finite' same with
      | same => rfl
      | object all =>
          rw [stringify, stringify, stringifyMembers_of_meaning members _ finite finite' all]

theorem stringifyItems_of_meaning : ∀ items items' : List Json, AreFinite items →
    AreFinite items' → items.map meaning = items'.map meaning →
    stringifyItems items = stringifyItems items'
  | [], [], _, _, _ => rfl
  | item :: items, item' :: items', ⟨finite, rest⟩, ⟨finite', rest'⟩, all => by
      obtain ⟨same, all⟩ := List.cons.inj all
      have first := stringify_of_meaning item item' finite finite' same
      have others := stringifyItems_of_meaning items items' rest rest' all
      cases items with
      | nil =>
          cases items' with
          | nil => exact first
          | cons => cases all
      | cons =>
          cases items' with
          | nil => cases all
          | cons => exact congrArg₂ (fun text rest => text ++ "," ++ rest) first others

theorem stringifyMembers_of_meaning : ∀ members members' : List (String × Json),
    MembersFinite members → MembersFinite members' →
    meaningMembers members = meaningMembers members' →
    stringifyMembers members = stringifyMembers members'
  | [], [], _, _, _ => rfl
  | (key, value) :: members, (key', value') :: members', ⟨finite, rest⟩, ⟨finite', rest'⟩, all => by
      obtain ⟨head, tail⟩ := List.cons.inj all
      obtain ⟨rfl, same⟩ := Prod.mk.inj head
      have first := stringify_of_meaning value value' finite finite' same
      have others := stringifyMembers_of_meaning members members' rest rest' tail
      clear head all
      cases members with
      | nil =>
          cases members' with
          | nil => rw [stringifyMembers, stringifyMembers, first]
          | cons => cases tail
      | cons =>
          cases members' with
          | nil => cases tail
          | cons =>
              exact congrArg₂ (fun text rest => quote key ++ ":" ++ text ++ "," ++ rest) first others

end

end Json

end Data
