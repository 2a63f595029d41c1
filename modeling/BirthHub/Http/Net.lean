import BirthHub.Http.Host

/-!
# Texts of addresses

`isIP` of `node:net`: whether a text is an IPv4 address in dotted decimal, or an IPv6 address, in
which one `::` may stand for zero pieces, the last two pieces may be an IPv4 address and a zone may
follow. The text of an IPv6 host of a URL is neither, for it is in brackets.
-/

namespace Http

/-- A number below 256 in decimal, without leading zeros. -/
def isOctet (text : List Char) : Bool :=
  (List.finRange 256).any fun n => text == decimal n.val

def isIPv4 (text : List Char) : Bool :=
  (text.splitOn '.').length == 4 && (text.splitOn '.').all isOctet

def isHexDigit (c : Char) : Bool := "0123456789abcdefABCDEF".toList.contains c

def isPiece (text : List Char) : Bool :=
  text ≠ [] && text.length ≤ 4 && text.all isHexDigit

/-- The number of pieces that some groups stand for; the last may be an IPv4 address. -/
def pieceCount : List (List Char) → Option Nat
  | [] => some 0
  | [last] => if isPiece last then some 1 else if isIPv4 last then some 2 else none
  | group :: groups => if isPiece group then (pieceCount groups).map (· + 1) else none

/-- The groups between the colons of a text. -/
def groupsOf (text : List Char) : List (List Char) :=
  if text = [] then [] else text.splitOn ':'

/-- The parts of a text before and after its first `::`. -/
def doubleColon : List Char → Option (List Char × List Char)
  | [] => none
  | c :: text =>
      if [':', ':'] <+: c :: text then some ([], text.drop 1)
      else (doubleColon text).map fun parts => (c :: parts.1, parts.2)

/-- An IPv6 address without a zone. -/
def isIPv6Address (text : List Char) : Bool :=
  match doubleColon text with
  | none => pieceCount (groupsOf text) == some 8
  | some (left, right) =>
      (groupsOf left).all isPiece &&
        (pieceCount (groupsOf right)).any fun count => (groupsOf left).length + count ≤ 7

def isZone (text : List Char) : Bool :=
  text == [] || (2 ≤ text.length &&
    (text.drop 1).all fun c => c.isAlphanum || c == '-' || c == '.' || c == ':')

def isIPv6 (text : List Char) : Bool :=
  isIPv6Address (text.takeWhile (· ≠ '%')) && isZone (text.dropWhile (· ≠ '%'))

def isIP (text : List Char) : Nat :=
  if isIPv4 text then 4 else if isIPv6 text then 6 else 0

example : isIP "fe80::1%eth0".toList = 6 ∧ isIP "::ffff:10.0.0.1".toList = 6 ∧
    isIP "1:2:3".toList = 0 ∧ isIP "10.0.0.01".toList = 0 := by decide +kernel

/-! ## IPv4 addresses -/

theorem isOctet_iff {text : List Char} : isOctet text = true ↔ ∃ n : Fin 256, text = decimal n.val := by
  simp [isOctet]

theorem isIPv4_iff {text : List Char} :
    isIPv4 text = true ↔ ∃ address : IPv4, text = address.serialize := by
  unfold isIPv4
  rw [Bool.and_eq_true, beq_iff_eq, List.all_eq_true]
  constructor
  · rintro ⟨four, octets⟩
    obtain ⟨a, b, c, d, parts⟩ := List.length_eq_four.mp four
    rw [parts] at octets
    obtain ⟨n, rfl⟩ := isOctet_iff.mp (octets a (by simp))
    obtain ⟨m, rfl⟩ := isOctet_iff.mp (octets b (by simp))
    obtain ⟨k, rfl⟩ := isOctet_iff.mp (octets c (by simp))
    obtain ⟨l, rfl⟩ := isOctet_iff.mp (octets d (by simp))
    refine ⟨⟨n, m, k, l⟩, ?_⟩
    have whole : ['.'].intercalate (text.splitOn '.') = text := List.intercalate_splitOn '.'
    rw [← whole, parts]
    rfl
  · rintro ⟨address, rfl⟩
    rw [IPv4.splitOn_serialize]
    refine ⟨rfl, fun octet mem => isOctet_iff.mpr (IPv4.mem_octets mem)⟩

theorem isIPv4_chars {text : List Char} {c : Char} (ipv4 : isIPv4 text = true) (mem : c ∈ text) :
    c.isDigit = true ∨ c = '.' := by
  obtain ⟨address, rfl⟩ := isIPv4_iff.mp ipv4
  exact IPv4.mem_serialize mem

/-! ## IPv6 addresses -/

theorem colon_of_doubleColon {text : List Char} {parts : List Char × List Char}
    (found : doubleColon text = some parts) : ':' ∈ text := by
  induction text generalizing parts with
  | nil => cases found
  | cons c text ih =>
      rw [doubleColon] at found
      split at found
      · rename_i colons
        exact colons.subset List.mem_cons_self
      · obtain ⟨rest, found', _⟩ := Option.map_eq_some_iff.mp found
        exact List.mem_cons_of_mem _ (ih found')

theorem colon_of_isIPv6Address {text : List Char} (ipv6 : isIPv6Address text = true) : ':' ∈ text := by
  unfold isIPv6Address at ipv6
  split at ipv6
  · by_contra none
    have few : pieceCount (groupsOf text) ≠ some 8 := by
      unfold groupsOf
      split
      · decide
      · rw [List.splitOn_eq_singleton none, pieceCount]
        split
        · decide
        · split
          · decide
          · decide
    exact few (beq_iff_eq.mp ipv6)
  · rename_i found
    exact colon_of_doubleColon found

theorem colon_of_isIPv6 {text : List Char} (ipv6 : isIPv6 text = true) : ':' ∈ text := by
  rw [isIPv6, Bool.and_eq_true] at ipv6
  exact (List.takeWhile_prefix _).subset (colon_of_isIPv6Address ipv6.1)

theorem not_isPiece_bracket {text : List Char} : isPiece ('[' :: text) = false := by
  have other : isHexDigit '[' = false := by decide
  simp [isPiece, other]

theorem not_isIPv4_bracket {text : List Char} : isIPv4 ('[' :: text) = false := by
  refine Bool.eq_false_iff.mpr fun ipv4 => ?_
  have char := isIPv4_chars ipv4 List.mem_cons_self
  revert char
  decide

theorem pieceCount_bracket {text : List Char} {groups : List (List Char)} :
    pieceCount (('[' :: text) :: groups) = none := by
  cases groups with
  | nil =>
      rw [pieceCount, not_isPiece_bracket, not_isIPv4_bracket]
      rfl
  | cons group groups =>
      rw [pieceCount, not_isPiece_bracket]
      · rfl
      · simp

theorem groupsOf_bracket (text : List Char) :
    ∃ first rest, groupsOf ('[' :: text) = ('[' :: first) :: rest := by
  rw [groupsOf, if_neg (List.cons_ne_nil _ _), List.splitOn_cons_eq_if_modifyHead, if_neg (by decide)]
  cases split : text.splitOn ':' with
  | nil => exact (List.splitOn_ne_nil ':' text split).elim
  | cons first rest => exact ⟨first, rest, rfl⟩

theorem not_isIPv6Address_bracket (text : List Char) : isIPv6Address ('[' :: text) = false := by
  unfold isIPv6Address
  rw [doubleColon, if_neg (by simp)]
  cases doubleColon text with
  | none =>
      obtain ⟨first, rest, groups⟩ := groupsOf_bracket text
      simp only [Option.map_none]
      rw [groups, pieceCount_bracket]
      rfl
  | some parts =>
      obtain ⟨first, rest, groups⟩ := groupsOf_bracket parts.1
      simp only [Option.map_some]
      rw [groups, List.all_cons, not_isPiece_bracket]
      rfl

theorem isIP_bracket (text : List Char) : isIP ('[' :: text) = 0 := by
  have ipv6 : isIPv6 ('[' :: text) = false := by
    rw [isIPv6, List.takeWhile_cons_of_pos (by decide), not_isIPv6Address_bracket]
    rfl
  rw [isIP, not_isIPv4_bracket, ipv6]
  rfl

theorem isIP_serialize (address : IPv4) : isIP address.serialize = 4 := by
  rw [isIP, isIPv4_iff.mpr ⟨address, rfl⟩]
  rfl

/-- The texts that are no addresses: no colon, and a character that no IPv4 address has. -/
theorem isIP_of_colonless {text : List Char} (colonless : ':' ∉ text)
    (letter : ∃ c ∈ text, c.isDigit = false ∧ c ≠ '.') : isIP text = 0 := by
  have ipv4 : isIPv4 text = false := by
    refine Bool.eq_false_iff.mpr fun ipv4 => ?_
    obtain ⟨c, mem, digit, dot⟩ := letter
    rcases isIPv4_chars ipv4 mem with isDigit | same
    · rw [digit] at isDigit
      cases isDigit
    · exact dot same
  have ipv6 : isIPv6 text = false := Bool.eq_false_iff.mpr fun ipv6 => colonless (colon_of_isIPv6 ipv6)
  rw [isIP, ipv4, ipv6]
  rfl

end Http
