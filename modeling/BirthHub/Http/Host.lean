import Mathlib

/-!
# Hosts of URLs

The host of a parsed URL and its text, which is the `hostname` of a `URL`: a name as it is, an
IPv4 address in dotted decimal, an IPv6 address in brackets with its first longest run of zero
pieces left out. Texts of hosts are ASCII, and their `toLowerCase` changes ASCII letters only.
-/

namespace Http

/-- A domain or an opaque host. Neither has characters beyond ASCII or colons. -/
structure HostName where
  text : List Char
  ascii : ∀ c ∈ text, c.toNat < 128
  colonless : ':' ∉ text

instance octet_neZero : NeZero 256 := ⟨by decide⟩

instance piece_neZero : NeZero 65536 := ⟨by decide⟩

structure IPv4 where
  a : Fin 256
  b : Fin 256
  c : Fin 256
  d : Fin 256
deriving DecidableEq

structure IPv6 where
  pieces : List (Fin 65536)
  eight : pieces.length = 8

inductive Host
  | name (n : HostName)
  | ipv4 (address : IPv4)
  | ipv6 (address : IPv6)
  | empty

/-! ## Texts -/

def decimal (n : Nat) : List Char := Nat.toDigits 10 n

def hexadecimal (n : Nat) : List Char := Nat.toDigits 16 n

def IPv4.octets (address : IPv4) : List (List Char) :=
  [address.a, address.b, address.c, address.d].map fun octet => decimal octet.val

def IPv4.serialize (address : IPv4) : List Char := ['.'].intercalate address.octets

/-- The number of zero pieces from a position on. -/
def zerosAt (pieces : List (Fin 65536)) (index : Nat) : Nat :=
  ((pieces.drop index).takeWhile (· = 0)).length

/-- The start of the first longest run of zero pieces, if it is longer than one piece. -/
def compressedPiece (pieces : List (Fin 65536)) : Option Nat :=
  let runs := (List.range pieces.length).map (zerosAt pieces)
  let longest := runs.foldl max 0
  if longest ≤ 1 then none else runs.findIdx? (· == longest)

def IPv6.serialize (address : IPv6) : List Char :=
  let joined (pieces : List (Fin 65536)) : List Char :=
    [':'].intercalate (pieces.map fun piece => hexadecimal piece.val)
  match compressedPiece address.pieces with
  | none => joined address.pieces
  | some index =>
      joined (address.pieces.take index) ++ [':', ':'] ++
        joined (address.pieces.drop (index + zerosAt address.pieces index))

def Host.serialize : Host → List Char
  | .name n => n.text
  | .ipv4 address => address.serialize
  | .ipv6 address => '[' :: (address.serialize ++ [']'])
  | .empty => []

def toLowerCase (text : List Char) : List Char := text.map Char.toLower

/-- A parsed URL: its host, its port and query, and the rest of its text. -/
structure URL where
  scheme : String
  host : Host
  port : Option Nat
  path : String
  searchParams : List (String × String)

def URL.hostname (url : URL) : List Char := url.host.serialize

/-- `url.host`: the host name, and the port if there is one. -/
def URL.hostText (url : URL) : List Char :=
  match url.port with
  | none => url.hostname
  | some port => url.hostname ++ ':' :: decimal port

/-! ## Kinds of addresses -/

def IPv4.Loopback (address : IPv4) : Prop := address.a = 127

def IPv4.Unspecified (address : IPv4) : Prop := address = ⟨0, 0, 0, 0⟩

def IPv4.LinkLocal (address : IPv4) : Prop := address.a = 169 ∧ address.b = 254

/-- An address of 10/8, 172.16/12 or 192.168/16. -/
def IPv4.Private (address : IPv4) : Prop :=
  address.a = 10 ∨ (address.a = 172 ∧ 16 ≤ address.b ∧ address.b ≤ 31) ∨
    (address.a = 192 ∧ address.b = 168)

def IPv6.Loopback (address : IPv6) : Prop := address.pieces = [0, 0, 0, 0, 0, 0, 0, 1]

def IPv6.Unspecified (address : IPv6) : Prop := address.pieces = [0, 0, 0, 0, 0, 0, 0, 0]

/-- An address of fc00::/7. -/
def IPv6.UniqueLocal (address : IPv6) : Prop :=
  ∃ first ∈ address.pieces.head?, first.val / 512 = 0xfc00 / 512

/-- The bytes of a piece. -/
def octetsOf (piece : Fin 65536) : Fin 256 × Fin 256 :=
  (Fin.ofNat 256 (piece.val / 256), Fin.ofNat 256 piece.val)

/-- The IPv4 address of which this is the mapped address. -/
def IPv6.mapped (address : IPv6) : Option IPv4 :=
  match address.pieces.drop 6 with
  | [high, low] =>
      if address.pieces.take 6 = [0, 0, 0, 0, 0, 0xffff] then
        some ⟨(octetsOf high).1, (octetsOf high).2, (octetsOf low).1, (octetsOf low).2⟩
      else none
  | _ => none

/-! ## Names -/

/-- A name without the dot at its end. -/
def withoutDot (text : List Char) : List Char :=
  if ['.'] <:+ text then text.dropLast else text

/-- A name below a domain, with a dot at its end or without. -/
def IsBelow (domain : List Char) (text : List Char) : Prop :=
  '.' :: domain <:+ withoutDot (toLowerCase text)

/-- The name of a domain, with a dot at its end or without. -/
def IsNamed (domain : List Char) (text : List Char) : Prop :=
  withoutDot (toLowerCase text) = domain

section

variable {domain text : List Char}

theorem withoutDot_dot (text : List Char) : withoutDot (text ++ ['.']) = text := by
  rw [withoutDot, if_pos (List.suffix_append text ['.']), List.dropLast_concat]

theorem withoutDot_of_not (undotted : ¬ ['.'] <:+ text) : withoutDot text = text :=
  if_neg undotted

/-- Below a domain are the texts that end in it after a dot, and those with one more dot. -/
theorem isBelow_iff (undotted : ¬ ['.'] <:+ domain) (nonempty : domain ≠ []) :
    IsBelow domain text ↔
      '.' :: domain <:+ toLowerCase text ∨ '.' :: (domain ++ ['.']) <:+ toLowerCase text := by
  unfold IsBelow
  have last {other : List Char} : ¬ '.' :: domain <:+ other ++ ['.'] := by
    intro ends
    have dot : ['.'] <:+ '.' :: domain := by
      refine List.suffix_of_suffix_length_le (List.suffix_append other ['.']) ends ?_
      rw [List.length_singleton, List.length_cons]
      omega
    rcases List.suffix_cons_iff.mp dot with same | short
    · exact nonempty (List.cons.inj same).2.symm
    · exact undotted short
  by_cases dotted : ['.'] <:+ toLowerCase text
  · obtain ⟨front, whole⟩ := dotted
    rw [← whole, withoutDot_dot]
    constructor
    · intro ends
      exact .inr (List.cons_append ▸ List.suffix_append_self_iff.mpr ends)
    · rintro (ends | ends)
      · exact (last ends).elim
      · rw [← List.cons_append] at ends
        exact List.suffix_append_self_iff.mp ends
  · rw [withoutDot_of_not dotted]
    refine ⟨.inl, ?_⟩
    rintro (ends | ends)
    · exact ends
    · rw [← List.cons_append] at ends
      exact (dotted ((List.suffix_append _ _).trans ends)).elim

theorem isNamed_iff (undotted : ¬ ['.'] <:+ domain) :
    IsNamed domain text ↔ toLowerCase text = domain ∨ toLowerCase text = domain ++ ['.'] := by
  unfold IsNamed
  by_cases dotted : ['.'] <:+ toLowerCase text
  · obtain ⟨front, whole⟩ := dotted
    rw [← whole, withoutDot_dot, List.append_left_inj]
    refine ⟨.inr, ?_⟩
    rintro (same | same)
    · exact (undotted (same ▸ List.suffix_append front ['.'])).elim
    · exact same
  · rw [withoutDot_of_not dotted]
    refine ⟨.inl, ?_⟩
    rintro (same | same)
    · exact same
    · exact (dotted (same ▸ List.suffix_append domain ['.'])).elim

end

/-! ## The texts of addresses -/

theorem digit_of_mem_decimal {n : Nat} {c : Char} (mem : c ∈ decimal n) : c.isDigit = true :=
  Nat.isDigit_of_mem_toDigits (by decide) (by decide) mem

theorem dot_notMem_decimal (n : Nat) : '.' ∉ decimal n := fun mem =>
  absurd (digit_of_mem_decimal mem) (by decide)

/-- The part of a text before the first of some characters. -/
theorem head_inj {c : Char} {front front' rest rest' : List Char} (free : c ∉ front)
    (free' : c ∉ front') (same : front ++ c :: rest = front' ++ c :: rest') :
    front = front' ∧ rest = rest' := by
  induction front generalizing front' with
  | nil =>
      cases front' with
      | nil => exact ⟨rfl, (List.cons.inj same).2⟩
      | cons x front' => exact (free' (List.mem_cons.mpr (.inl (List.cons.inj same).1))).elim
  | cons x front ih =>
      cases front' with
      | nil => exact (free (List.mem_cons.mpr (.inl (List.cons.inj same).1.symm))).elim
      | cons x' front' =>
          obtain ⟨rfl, tails⟩ := List.cons.inj same
          obtain ⟨rfl, rest⟩ := ih (fun mem => free (List.mem_cons_of_mem _ mem))
            (fun mem => free' (List.mem_cons_of_mem _ mem)) tails
          exact ⟨rfl, rest⟩

theorem decimal_inj {n m : Nat} (same : decimal n = decimal m) : n = m := by
  have value := congrArg (Nat.ofDigitChars 10 · 0) same
  simpa [decimal] using value

namespace IPv4

variable {address address' : IPv4}

theorem mem_octets {octet : List Char} (mem : octet ∈ address.octets) :
    ∃ n : Fin 256, octet = decimal n.val := by
  obtain ⟨n, _, rfl⟩ := List.mem_map.mp mem
  exact ⟨n, rfl⟩

theorem splitOn_serialize (address : IPv4) : address.serialize.splitOn '.' = address.octets := by
  refine List.splitOn_intercalate '.' (fun octet mem => ?_) (List.cons_ne_nil _ _)
  obtain ⟨n, rfl⟩ := mem_octets mem
  exact dot_notMem_decimal n.val

theorem serialize_inj (same : address.serialize = address'.serialize) : address = address' := by
  have octets := congrArg (List.splitOn '.') same
  rw [splitOn_serialize, splitOn_serialize] at octets
  simp only [IPv4.octets, List.map_cons, List.map_nil, List.cons.injEq, and_true] at octets
  obtain ⟨a, b, c, d⟩ := octets
  cases address
  cases address'
  simp only [IPv4.mk.injEq]
  exact ⟨Fin.ext (decimal_inj a), Fin.ext (decimal_inj b), Fin.ext (decimal_inj c),
    Fin.ext (decimal_inj d)⟩

theorem serialize_eq (address : IPv4) : address.serialize = decimal address.a.val ++ '.' ::
    (decimal address.b.val ++ '.' :: (decimal address.c.val ++ '.' :: decimal address.d.val)) := by
  simp [serialize, octets]

theorem mem_serialize {c : Char} (mem : c ∈ address.serialize) : c.isDigit = true ∨ c = '.' := by
  rw [serialize_eq] at mem
  simp only [List.mem_append, List.mem_cons] at mem
  rcases mem with mem | dot | mem | dot | mem | dot | mem
  · exact .inl (digit_of_mem_decimal mem)
  · exact .inr dot
  · exact .inl (digit_of_mem_decimal mem)
  · exact .inr dot
  · exact .inl (digit_of_mem_decimal mem)
  · exact .inr dot
  · exact .inl (digit_of_mem_decimal mem)

theorem toLowerCase_serialize (address : IPv4) :
    toLowerCase address.serialize = address.serialize := by
  have same : ∀ c ∈ address.serialize, c.toLower = id c := by
    intro c mem
    rcases mem_serialize mem with digit | rfl
    · refine Char.toLower_eq_of_not_isUpper fun upper => ?_
      simp [Char.isDigit, Char.isUpper, UInt32.le_iff_toNat_le] at digit upper
      omega
    · rfl
  rw [toLowerCase, List.map_congr_left same, List.map_id]

/-- A text with a character that is neither a digit nor a dot is no part of an address. -/
theorem not_subset (address : IPv4) {part : List Char}
    (letter : part.any (fun c => !c.isDigit && c != '.') = true) : ¬ part ⊆ address.serialize := by
  intro subset
  obtain ⟨c, mem, other⟩ := List.any_eq_true.mp letter
  rw [Bool.and_eq_true, Bool.not_eq_true', bne_iff_ne] at other
  rcases mem_serialize (subset mem) with digit | dot
  · rw [other.1] at digit
    cases digit
  · exact other.2 dot

theorem not_suffix (address : IPv4) {part : List Char}
    (letter : part.any (fun c => !c.isDigit && c != '.') = true) :
    ¬ part <:+ toLowerCase address.serialize := by
  rw [toLowerCase_serialize]
  exact fun ends => address.not_subset letter ends.subset

theorem serialize_ne (address : IPv4) {part : List Char}
    (letter : part.any (fun c => !c.isDigit && c != '.') = true) : address.serialize ≠ part :=
  fun same => address.not_subset letter (same ▸ List.Subset.refl _)

/-- An address starts with a number and a dot if its first byte is the number. -/
theorem starts_iff {n : Fin 256} : decimal n.val ++ ['.'] <+: address.serialize ↔ address.a = n := by
  rw [serialize_eq]
  constructor
  · rintro ⟨rest, same⟩
    rw [List.append_assoc] at same
    have first := head_inj (dot_notMem_decimal _) (dot_notMem_decimal _) same
    exact (Fin.ext (decimal_inj first.1)).symm
  · rintro rfl
    exact (List.prefix_append_right_inj _).mpr (List.prefix_append ['.'] _)

/-- The first two bytes of an address are the numbers that it starts with. -/
theorem starts_two_iff {n m : Fin 256} :
    decimal n.val ++ '.' :: (decimal m.val ++ ['.']) <+: address.serialize ↔
      address.a = n ∧ address.b = m := by
  constructor
  · rintro ⟨rest, same⟩
    rw [serialize_eq, List.append_assoc, List.cons_append, List.append_assoc] at same
    obtain ⟨first, tail⟩ := head_inj (dot_notMem_decimal _) (dot_notMem_decimal _) same
    obtain ⟨second, _⟩ := head_inj (dot_notMem_decimal _) (dot_notMem_decimal _) tail
    exact ⟨(Fin.ext (decimal_inj first)).symm, (Fin.ext (decimal_inj second)).symm⟩
  · rintro ⟨rfl, rfl⟩
    rw [serialize_eq]
    refine (List.prefix_append_right_inj _).mpr (List.cons_prefix_cons.mpr ⟨rfl, ?_⟩)
    exact (List.prefix_append_right_inj _).mpr (List.prefix_append ['.'] _)

end IPv4

/-! ### IPv6 addresses -/

theorem toLowerCase_ipv6 (address : IPv6) :
    toLowerCase (Host.ipv6 address).serialize = '[' :: (toLowerCase address.serialize ++ [']']) := by
  rw [Host.serialize, toLowerCase, List.map_cons, List.map_append]
  rfl

theorem ipv6_not_suffix {address : IPv6} {part : List Char} {c : Char} (other : c ≠ ']') :
    ¬ part ++ [c] <:+ toLowerCase (Host.ipv6 address).serialize := by
  rw [toLowerCase_ipv6, ← List.cons_append]
  intro ends
  exact other (List.singleton_suffix_append_singleton_iff.mp ((List.suffix_append part [c]).trans ends))

end Http
