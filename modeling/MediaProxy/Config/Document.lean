import MediaProxy.Config
import MediaProxy.Toml.Document

/-!
This module contains the TOML document of a configuration, and configuration files, whose names say
which kind of document they hold.
-/

namespace MediaProxy.Config

def datum? (field : Field) (node : Toml.Node) : Option Datum :=
  match field.type, node with
  | .text, .value (.text text) => some (.text text)
  | .natural bound, .value (.integer n) =>
    if 0 ≤ n ∧ n < bound then some (.natural n.toNat) else none
  | _, _ => none

def members? (entries : Toml.Entries) : List Field → Option Members
  | [] => some []
  | field :: fields =>
    match entries.lookup field.name with
    | none => members? entries fields
    | some node =>
      match datum? field node, members? entries fields with
      | some datum, some members => some ((field.name, datum) :: members)
      | _, _ => none

def ofToml (text : String) : Except Error Config :=
  match (Toml.document? text).bind (members? · fields) with
  | none => .error (.config "Invalid TOML")
  | some members => (ofMembers members).validated

inductive File where
  | missing
  | directory
  | content (bytes : Bytes)
  deriving DecidableEq, Repr

def File.text : File → Except String String
  | .missing => .error "No such file or directory (os error 2)"
  | .directory => .error "Is a directory (os error 21)"
  | .content bytes =>
    match bytes.text? with
    | some text => .ok text
    | none => .error "stream did not contain valid UTF-8"

/--
What follows the last point in the last part of a path. A point at the start of that part does not
count.
-/
def extension? (path : String) : Option String :=
  let name := (path.toList.reverse.takeWhile (· ≠ '/')).reverse
  if name = ['.', '.'] then none
  else
    let last := (name.reverse.takeWhile (· ≠ '.')).reverse
    if name.length ≤ last.length + 1 then none else some (String.ofList last)

def ofFile (path : String) (file : File) : Except Error Config :=
  match file.text with
  | .error reason => .error (.config ("Failed to read " ++ path ++ ": " ++ reason))
  | .ok text =>
    match extension? path with
    | some "toml" => ofToml text
    | some "json" => ofJson text
    | other =>
      .error (.config ("Unsupported config format " ++ Text.optional (other.map Text.quoted) ++
        " for " ++ path))

end MediaProxy.Config
