/-!
This module contains the fields of records and their values, whatever the document they are read
from.
-/

namespace MediaProxy

inductive FieldType where
  | text
  | natural (bound : Nat)
  deriving DecidableEq, Repr

structure Field where
  name : String
  type : FieldType
  deriving DecidableEq, Repr

inductive Datum where
  | text (text : String)
  | natural (n : Nat)
  deriving DecidableEq, Repr

namespace Datum

def text? : Datum → Option String
  | .text s => some s
  | .natural _ => none

def natural? : Datum → Option Nat
  | .text _ => none
  | .natural n => some n

end Datum

abbrev Members := List (String × Datum)

namespace Members

def text? (members : Members) (name : String) : Option String :=
  (members.lookup name).bind Datum.text?

def natural? (members : Members) (name : String) : Option Nat :=
  (members.lookup name).bind Datum.natural?

end Members

end MediaProxy
