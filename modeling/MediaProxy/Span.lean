/-!
This module contains lengths of time and their written form.
-/

namespace MediaProxy

structure Span where
  nanoseconds : Nat
  deriving DecidableEq, Repr

namespace Span

def ofSeconds (seconds nanoseconds : Nat) : Span :=
  ⟨seconds * 1000000000 + nanoseconds⟩

def ofMillis (millis : Nat) : Span :=
  ⟨millis * 1000000⟩

def seconds (span : Span) : Nat :=
  span.nanoseconds / 1000000000

def subsecond (span : Span) : Nat :=
  span.nanoseconds % 1000000000

def millis (span : Span) : Nat :=
  span.nanoseconds / 1000000

def decimal (n places : Nat) : String :=
  let unit := Nat.pow 10 places
  let digits := Nat.toDigits 10 (n % unit)
  let fraction := List.replicate (places - digits.length) '0' ++ digits
  let fraction := (fraction.reverse.dropWhile (· = '0')).reverse
  toString (n / unit) ++ (if n % unit = 0 then "" else "." ++ String.ofList fraction)

def text (span : Span) : String :=
  let n := span.nanoseconds
  if 1000000000 ≤ n then decimal n 9 ++ "s"
  else if 1000000 ≤ n then decimal n 6 ++ "ms"
  else if 1000 ≤ n then decimal n 3 ++ "µs"
  else decimal n 0 ++ "ns"

theorem millis_ofMillis (millis : Nat) : (ofMillis millis).millis = millis := by
  simp [ofMillis, Span.millis]

end Span

end MediaProxy
