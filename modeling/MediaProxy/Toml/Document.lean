import MediaProxy.Toml.Value

/-!
This module contains TOML documents: lines that give values to keys, under headers that name the
tables they belong to.
-/

namespace MediaProxy.Toml

inductive Node where
  | value (value : Value)
  | table (origin : Origin) (entries : List (String × Node))
  /--
  The elements of a list of tables, the last one first.
  -/
  | tables (elements : List (List (String × Node)))
  deriving Inhabited

abbrev Entries := List (String × Node)

namespace Entries

/--
Changes the table at the end of a path. Missing tables on the way are made; of a list of tables, the
last one is meant. A path of `dotted` keys passes no table that has a header of its own, and ends in
one that such keys made.
-/
def within? (dotted : Bool) (change : Entries → Option Entries) (origin : Origin) :
    List String → Entries → Option Entries
  | [], entries => if dotted && origin != .dotted then none else change entries
  | key :: path, entries =>
    match entries.lookup key with
    | none =>
      let origin := if dotted then .dotted else .implied
      (within? dotted change origin path []).map fun inner =>
        entries ++ [(key, .table origin inner)]
    | some (.table origin inner) =>
      if dotted && origin == .explicit then none
      else (within? dotted change origin path inner).map fun inner =>
        replace key (.table origin inner) entries
    | some (.tables (last :: others)) =>
      (within? dotted change .explicit path last).map fun last =>
        replace key (.tables (last :: others)) entries
    | some (.tables []) => none
    | some (.value _) => none

def assign? (path : List String) (value : Value) (entries : Entries) : Option Entries :=
  match path.getLast? with
  | none => none
  | some key =>
    let path := path.dropLast
    within? (!path.isEmpty)
      (fun entries =>
        if (entries.lookup key).isSome then none else some (entries ++ [(key, .value value)]))
      .explicit path entries

end Entries

inductive Line where
  | entry (path : List String) (value : Value)
  | header (path : List String)
  | element (path : List String)

def scanLine? (input : List Char) : Option (Option Line × List Char) :=
  match skipBlank input with
  | '[' :: '[' :: rest =>
    match scanKey? rest with
    | some (path, ']' :: ']' :: rest) =>
      (lineEnd? rest).map fun rest => (some (.element path), rest)
    | _ => none
  | '[' :: rest =>
    match scanKey? rest with
    | some (path, ']' :: rest) => (lineEnd? rest).map fun rest => (some (.header path), rest)
    | _ => none
  | input =>
    match lineEnd? input with
    | some rest => some (none, rest)
    | none =>
      match scanKey? input with
      | some (path, '=' :: rest) =>
        match scanValue? 79 (skipBlank rest) with
        | some (value, rest) => (lineEnd? rest).map fun rest => (some (.entry path value), rest)
        | none => none
      | _ => none

def scanDocument? (input : List Char) : Option (List Line) :=
  if input.isEmpty then some []
  else match scanLine? input with
    | none => none
    | some (line, rest) =>
      if _h : rest.length < input.length then
        (scanDocument? rest).map fun lines => line.toList ++ lines
      else none
termination_by input.length

structure Draft where
  done : Entries := []
  header : List String := []
  element : Bool := false
  entries : Entries := []

namespace Draft

def finish? (draft : Draft) : Option Entries :=
  match draft.header.getLast? with
  | none => some draft.entries
  | some key =>
    draft.done.within? false
      (fun entries =>
        if draft.element then
          match entries.lookup key with
          | none => some (entries ++ [(key, .tables [draft.entries])])
          | some (.tables elements) =>
            some (replace key (.tables (draft.entries :: elements)) entries)
          | some _ => none
        else some (replace key (.table .explicit draft.entries) entries))
      .explicit draft.header.dropLast

def find? (path : List String) (entries : Entries) : Option (Option Node) :=
  match path with
  | [] => none
  | [key] => some (entries.lookup key)
  | key :: path =>
    match entries.lookup key with
    | none => some none
    | some (.table _ inner) => find? path inner
    | some (.tables (last :: _)) => find? path last
    | some _ => none

/--
Adds a line to a draft. A table gets a header once, or after the headers of tables inside it; a list
of tables gets any number.
-/
def add? (draft : Draft) (line : Line) : Option Draft :=
  match line with
  | .entry path value =>
    (draft.entries.assign? path value).map fun entries => { draft with entries }
  | .header path => do
    let done ← draft.finish?
    match ← find? path done with
    | none => some { done, header := path }
    | some (.table .implied entries) => some { done, header := path, entries }
    | some _ => none
  | .element path => do
    let done ← draft.finish?
    match ← find? path done with
    | none => some { done, header := path, element := true }
    | some (.tables _) => some { done, header := path, element := true }
    | some _ => none

end Draft

def document? (text : String) : Option Entries := do
  let input := match text.toList with
    | '\ufeff' :: rest => rest
    | input => input
  let lines ← scanDocument? input
  let draft ← lines.foldlM Draft.add? {}
  draft.finish?

end MediaProxy.Toml
