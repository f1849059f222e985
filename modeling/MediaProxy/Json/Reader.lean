import MediaProxy.Json.Typed
import MediaProxy.Json.Value

/-!
This module contains the reader of values of any form. Lists and objects may be nested 127 deep.
-/

namespace MediaProxy.Json

def readItemsWith (read : Symbols → Except Problem (Value × Symbols)) (first : Bool)
    (input : Symbols) : Except Problem (List Value × Symbols) :=
  match nextItem first input with
  | .error problem => .error problem
  | .ok none => (closeList input).map fun rest => ([], rest)
  | .ok (some rest) =>
    match read rest with
    | .error problem => .error problem
    | .ok (item, rest) =>
      if _h : rest.length < input.length then
        (readItemsWith read false rest).map fun (items, rest) => (item :: items, rest)
      else .error .malformed
termination_by input.length

def readMemberWith (read : Symbols → Except Problem (Value × Symbols)) (input : Symbols) :
    Except Problem ((String × Value) × Symbols) :=
  match input with
  | some '"' :: rest =>
    match scanString rest with
    | .error problem => .error problem
    | .ok (name, rest) =>
      match skipColon rest with
      | .error problem => .error problem
      | .ok rest => (read rest).map fun (value, rest) => ((String.ofList name, value), rest)
  | rest => .error (unexpected rest)

def readMembersWith (read : Symbols → Except Problem (Value × Symbols)) (first : Bool)
    (input : Symbols) : Except Problem (List (String × Value) × Symbols) :=
  match skipBlank input with
  | some '}' :: rest => .ok ([], rest)
  | rest =>
    match afterComma first rest with
    | .error problem => .error problem
    | .ok rest =>
      match readMemberWith read rest with
      | .error problem => .error problem
      | .ok (member, rest) =>
        if _h : rest.length < input.length then
          (readMembersWith read false rest).map fun (members, rest) => (member :: members, rest)
        else .error .malformed
termination_by input.length

def readValue (depth : Nat) (input : Symbols) : Except Problem (Value × Symbols) :=
  match skipBlank input with
  | [] => .error .truncated
  | none :: _ => .error .malformed
  | some c :: rest =>
    if c = 'n' then (scanWord ['u', 'l', 'l'] rest).map fun rest => (.null, rest)
    else if c = 't' then (scanWord ['r', 'u', 'e'] rest).map fun rest => (.bool true, rest)
    else if c = 'f' then (scanWord ['a', 'l', 's', 'e'] rest).map fun rest => (.bool false, rest)
    else if c = '"' then
      (scanString rest).map fun (cs, rest) => (.text (String.ofList cs), rest)
    else if c = '-' ∨ (digit? (some c)).isSome then
      (scanNumeral .truncated (some c :: rest)).bind fun (numeral, rest) =>
        numeral.number.map fun n => (.number n, rest)
    else match depth with
      | 0 => .error .malformed
      | depth + 1 =>
        if c = '[' then
          (readItemsWith (readValue depth) true rest).map fun (items, rest) =>
            (.list items, rest)
        else if c = '{' then
          (readMembersWith (readValue depth) true rest).map fun (members, rest) =>
            (.object members, rest)
        else .error .malformed

def Value.ofText (text : String) : Except Problem Value :=
  document (readValue 127) (Symbols.ofText text)

end MediaProxy.Json
