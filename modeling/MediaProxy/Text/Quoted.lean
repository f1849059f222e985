import MediaProxy.Bytes
import MediaProxy.Text.Hidden

/-!
This module contains the quoted forms of texts and byte strings, and the one-line form of records,
in which values are shown for inspection. A function named `shown` gives this form of its argument.
-/

namespace MediaProxy

namespace Text

def codePoint (c : Char) : List Char :=
  "\\u\x7b".toList ++ Nat.toDigits 16 c.toNat ++ ['\x7d']

def escape (c : Char) : List Char :=
  if c = '\x00' then ['\\', '0']
  else if c = '\t' then ['\\', 't']
  else if c = '\r' then ['\\', 'r']
  else if c = '\n' then ['\\', 'n']
  else if c = '"' then ['\\', '"']
  else if c = '\\' then ['\\', '\\']
  else if hidden c then codePoint c
  else [c]

def quoted (text : String) : String :=
  String.ofList ('"' :: text.toList.flatMap escape ++ ['"'])

def record (name : String) (fields : List (String × String)) (more : Bool := false) : String :=
  let shown := fields.map (fun (field, value) => field ++ ": " ++ value) ++
    (if more then [".."] else [])
  if shown.isEmpty then name
  else name ++ " \x7b " ++ ", ".intercalate shown ++ " \x7d"

def list (values : List String) : String :=
  "[" ++ ", ".intercalate values ++ "]"

def bool (b : Bool) : String :=
  if b then "true" else "false"

def optional : Option String → String
  | none => "None"
  | some value => "Some(" ++ value ++ ")"

end Text

namespace Bytes

def escape (byte : UInt8) : List Char :=
  if byte = 0x0a then ['\\', 'n']
  else if byte = 0x0d then ['\\', 'r']
  else if byte = 0x09 then ['\\', 't']
  else if byte = 0x5c then ['\\', '\\']
  else if byte = 0x22 then ['\\', '"']
  else if byte = 0x00 then ['\\', '0']
  else if 0x20 ≤ byte ∧ byte < 0x7f then [Char.ofNat byte.toNat]
  else '\\' :: 'x' :: hexPair byte

def quoted (bytes : Bytes) : String :=
  String.ofList ('b' :: '"' :: bytes.flatMap escape ++ ['"'])

end Bytes

end MediaProxy
