import MediaProxy.Toml.Lexeme

/-!
This module contains the values of TOML and their reader. Inside a line, tables are written between
braces; their keys follow the rule of all tables: a key is given once, and a table that is complete
is not added to.
-/

namespace MediaProxy.Toml

inductive Origin where
  | explicit
  | implied
  | dotted
  deriving DecidableEq, Repr

/--
A value. Of floating-point numbers and dates only the presence is kept.
-/
inductive Value where
  | text (text : String)
  | integer (n : Int)
  | decimal
  | bool (b : Bool)
  | date
  | list (items : List Value)
  | table (origin : Origin) (entries : List (String × Value))
  deriving Inhabited

def replace (key : String) (value : α) : List (String × α) → List (String × α)
  | [] => [(key, value)]
  | (other, otherValue) :: entries =>
    if other = key then (key, value) :: entries
    else (other, otherValue) :: replace key value entries

namespace Value

def insert? (value : Value) : List String → List (String × Value) → Option (List (String × Value))
  | [], _ => none
  | [key], entries =>
    match entries.lookup key with
    | some _ => none
    | none => some (entries ++ [(key, value)])
  | key :: path, entries =>
    match entries.lookup key with
    | none => (insert? value path []).map fun inner => entries ++ [(key, .table .dotted inner)]
    | some (.table .dotted inner) =>
      (insert? value path inner).map fun inner => replace key (.table .dotted inner) entries
    | some _ => none

end Value

def scanItemsWith? (scan : List Char → Option (Value × List Char)) (input : List Char) :
    Option (List Value × List Char) :=
  match skipLines false input with
  | ']' :: rest => some ([], rest)
  | start =>
    match scan start with
    | none => none
    | some (item, rest) =>
      match skipLines false rest with
      | ']' :: rest => some ([item], rest)
      | ',' :: rest =>
        if _h : rest.length < input.length then
          (scanItemsWith? scan rest).map fun (items, rest) => (item :: items, rest)
        else none
      | _ => none
termination_by input.length

def scanEntriesWith? (scan : List Char → Option (Value × List Char))
    (entries : List (String × Value)) (input : List Char) :
    Option (List (String × Value) × List Char) :=
  match scanKey? input with
  | some (path, '=' :: rest) =>
    match scan (skipBlank rest) with
    | none => none
    | some (value, rest) =>
      match value.insert? path entries with
      | none => none
      | some entries =>
        match skipBlank rest with
        | '}' :: rest => some (entries, rest)
        | ',' :: rest =>
          if _h : rest.length < input.length then scanEntriesWith? scan entries rest else none
        | _ => none
  | _ => none
termination_by input.length

def scanNumber? (input : List Char) : Option (Value × List Char) :=
  match scanDateTime? input with
  | some rest => some (.date, rest)
  | none =>
    let (negative, magnitude) := match input with
      | '-' :: rest => (true, rest)
      | '+' :: rest => (false, rest)
      | rest => (false, rest)
    match magnitude with
    | 'i' :: 'n' :: 'f' :: rest => some (.decimal, rest)
    | 'n' :: 'a' :: 'n' :: rest => some (.decimal, rest)
    | _ =>
      match scanDecimal? magnitude with
      | some (x, rest) => if x.isInfinite && !negative then none else some (.decimal, rest)
      | none => (scanInteger? input).map fun (n, rest) => (.integer n, rest)

def scanValue? (depth : Nat) (input : List Char) : Option (Value × List Char) :=
  match input with
  | 't' :: 'r' :: 'u' :: 'e' :: rest => some (.bool true, rest)
  | 'f' :: 'a' :: 'l' :: 's' :: 'e' :: rest => some (.bool false, rest)
  | 'i' :: 'n' :: 'f' :: rest => some (.decimal, rest)
  | 'n' :: 'a' :: 'n' :: rest => some (.decimal, rest)
  | c :: rest =>
    if c = '"' ∨ c = '\'' then
      (scanString? (c :: rest)).map fun (text, rest) => (.text text, rest)
    else if c = '+' ∨ c = '-' ∨ c.isDigit then scanNumber? (c :: rest)
    else match depth with
      | 0 => none
      | depth + 1 =>
        if c = '[' then
          (scanItemsWith? (scanValue? depth) rest).map fun (items, rest) => (.list items, rest)
        else if c = '{' then
          match skipBlank rest with
          | '}' :: rest => some (.table .explicit [], rest)
          | rest =>
            (scanEntriesWith? (scanValue? depth) [] rest).map fun (entries, rest) =>
              (.table .explicit entries, rest)
        else none
  | [] => none

end MediaProxy.Toml
