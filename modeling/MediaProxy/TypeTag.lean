/-!
This module contains what is known of a type when the program runs: values of all types are kept
together, and whoever wants one of a type looks at its tag first.
-/

namespace MediaProxy

/--
Types with the same label differ in their number.
-/
structure TypeTag where
  label : String
  number : Nat := 0
  deriving DecidableEq, Repr

end MediaProxy
