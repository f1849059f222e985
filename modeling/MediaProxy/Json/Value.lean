import MediaProxy.Decimal.Shortest
import MediaProxy.Json.Number

/-!
This module contains JSON values and their compact written form.
-/

namespace MediaProxy.Json

inductive Value where
  | null
  | bool (b : Bool)
  | number (n : Number)
  | text (text : String)
  | list (items : List Value)
  | object (members : List (String × Value))
  deriving Inhabited

def Number.text : Number → String
  | .natural n => toString n
  | .negative n => "-" ++ toString n
  | .real x => Decimal.text x

def escape (c : Char) : List Char :=
  if c = '"' then ['\\', '"']
  else if c = '\\' then ['\\', '\\']
  else if c = '\x08' then ['\\', 'b']
  else if c = '\x0c' then ['\\', 'f']
  else if c = '\n' then ['\\', 'n']
  else if c = '\r' then ['\\', 'r']
  else if c = '\t' then ['\\', 't']
  else if c < ' ' then '\\' :: 'u' :: '0' :: '0' :: Bytes.hexPair (UInt8.ofNat c.toNat)
  else [c]

def string (text : String) : String :=
  String.ofList ('"' :: text.toList.flatMap escape ++ ['"'])

namespace Value

def natural (n : Nat) : Value :=
  .number (.natural n)

def integer (n : Int) : Value :=
  match n with
  | .ofNat n => .number (.natural n)
  | .negSucc n => .number (.negative (n + 1))

def get? (value : Value) (name : String) : Option Value :=
  match value with
  | .object members => members.reverse.lookup name
  | _ => none

mutual

def compact : Value → String
  | .null => "null"
  | .bool b => if b then "true" else "false"
  | .number n => n.text
  | .text s => string s
  | .list items => "[" ++ ",".intercalate (compactItems items) ++ "]"
  | .object members => "\x7b" ++ ",".intercalate (compactMembers members) ++ "\x7d"

def compactItems : List Value → List String
  | [] => []
  | item :: items => item.compact :: compactItems items

def compactMembers : List (String × Value) → List String
  | [] => []
  | (name, value) :: members => (string name ++ ":" ++ value.compact) :: compactMembers members

end

def insertSorted (name : String) (value : Value) :
    List (String × Value) → List (String × Value)
  | [] => [(name, value)]
  | (other, otherValue) :: members =>
    if name < other then (name, value) :: (other, otherValue) :: members
    else if name = other then (name, value) :: members
    else (other, otherValue) :: insertSorted name value members

mutual

def sorted : Value → Value
  | .list items => .list (sortedItems items)
  | .object members => .object (sortedMembers [] members)
  | value => value

def sortedItems : List Value → List Value
  | [] => []
  | item :: items => item.sorted :: sortedItems items

def sortedMembers (done : List (String × Value)) :
    List (String × Value) → List (String × Value)
  | [] => done
  | (name, value) :: members => sortedMembers (insertSorted name value.sorted done) members

end

end Value

end MediaProxy.Json
