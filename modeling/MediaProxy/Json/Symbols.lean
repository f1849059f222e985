import MediaProxy.Bytes

/-!
This module contains the input of the JSON readers, a list of symbols, and what can be wrong with
it.
-/

namespace MediaProxy.Json

/--
What is wrong with a document. The first thing that is wrong, from left to right, decides.
-/
inductive Problem where
  | malformed
  | mismatch
  | truncated
  deriving DecidableEq, Repr

/--
The characters of a document. `none` stands for a byte that belongs to no character.
-/
abbrev Symbols := List (Option Char)

namespace Symbols

def ofText (text : String) : Symbols :=
  text.toList.map some

def firstChar? : Bytes → Option (Char × Nat)
  | [] => none
  | a :: rest =>
    if a < 0x80 then some (Char.ofNat a.toNat, 0)
    else match rest with
      | [] => none
      | b :: rest =>
        if 0xc2 ≤ a ∧ a ≤ 0xdf ∧ trailing b then
          some (Char.ofNat ((a.toNat - 0xc0) * 0x40 + low b), 1)
        else match rest with
          | [] => none
          | c :: rest =>
            if 0xe0 ≤ a ∧ a ≤ 0xef ∧ second a b ∧ trailing c then
              some (Char.ofNat ((a.toNat - 0xe0) * 0x1000 + low b * 0x40 + low c), 2)
            else match rest with
              | [] => none
              | d :: _ =>
                if 0xf0 ≤ a ∧ a ≤ 0xf4 ∧ second a b ∧ trailing c ∧ trailing d then
                  some (Char.ofNat
                    ((a.toNat - 0xf0) * 0x40000 + low b * 0x1000 + low c * 0x40 + low d), 3)
                else none
where
  trailing (b : UInt8) : Bool := 0x80 ≤ b && b ≤ 0xbf
  low (b : UInt8) : Nat := b.toNat - 0x80
  second (a b : UInt8) : Bool :=
    if a = 0xe0 then 0xa0 ≤ b && b ≤ 0xbf
    else if a = 0xed then 0x80 ≤ b && b ≤ 0x9f
    else if a = 0xf0 then 0x90 ≤ b && b ≤ 0xbf
    else if a = 0xf4 then 0x80 ≤ b && b ≤ 0x8f
    else trailing b

def ofBytes (bytes : Bytes) : Symbols :=
  match bytes with
  | [] => []
  | byte :: rest =>
    match firstChar? (byte :: rest) with
    | some (c, more) => some c :: ofBytes (rest.drop more)
    | none => none :: ofBytes rest
termination_by bytes.length
decreasing_by
  . simp only [List.length_drop, List.length_cons]
    omega
  . simp

end Symbols

def byteSize : Symbols → Nat
  | [] => 0
  | some c :: rest => c.utf8Size + byteSize rest
  | none :: rest => 1 + byteSize rest

def unexpected : Symbols → Problem
  | [] => .truncated
  | _ :: _ => .malformed

def blank (symbol : Option Char) : Bool :=
  symbol == some ' ' || symbol == some '\n' || symbol == some '\t' || symbol == some '\r'

def skipBlank (input : Symbols) : Symbols :=
  input.dropWhile blank

theorem skipBlank_length_le (input : Symbols) : (skipBlank input).length ≤ input.length :=
  (List.dropWhile_suffix _).length_le

theorem length_lt_of_skipBlank_eq_cons {input rest : Symbols} {symbol : Option Char}
    (h : skipBlank input = symbol :: rest) : rest.length < input.length := by
  have := skipBlank_length_le input
  simp only [h, List.length_cons] at this
  omega

end MediaProxy.Json
