/-!
This module contains byte strings and their two written forms: the text they encode and pairs of
hexadecimal digits.
-/

namespace MediaProxy

abbrev Bytes := List UInt8

namespace Bytes

def ofText (text : String) : Bytes :=
  text.toUTF8.data.toList

def text? (bytes : Bytes) : Option String :=
  String.fromUTF8? ⟨bytes.toArray⟩

def hexPair (byte : UInt8) : List Char :=
  [Nat.digitChar (byte.toNat / 16), Nat.digitChar (byte.toNat % 16)]

def hex (bytes : Bytes) : String :=
  String.ofList (bytes.flatMap hexPair)

def hexValue? (c : Char) : Option Nat :=
  if '0' ≤ c ∧ c ≤ '9' then some (c.toNat - '0'.toNat)
  else if 'a' ≤ c ∧ c ≤ 'f' then some (c.toNat - 'a'.toNat + 10)
  else if 'A' ≤ c ∧ c ≤ 'F' then some (c.toNat - 'A'.toNat + 10)
  else none

def ofHex? (text : String) : Option Bytes :=
  go text.toList
where
  go : List Char → Option Bytes
    | [] => some []
    | high :: low :: rest => do
      let high ← hexValue? high
      let low ← hexValue? low
      let bytes ← go rest
      return UInt8.ofNat (16 * high + low) :: bytes
    | [_] => none

theorem text?_ofText (text : String) : text? (ofText text) = some text := by
  simp only [text?, ofText, Array.toArray_toList, String.fromUTF8?, String.toUTF8_eq_toByteArray,
    dif_pos text.isValidUTF8]
  rfl

end Bytes

end MediaProxy
