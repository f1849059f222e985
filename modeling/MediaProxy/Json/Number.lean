import MediaProxy.Json.Lexeme

/-!
This module contains the values of numerals. A whole number that fits 64 bits is exact; any other
number is the product or quotient of its leading digits, as many as fit 64 bits, and a power of ten.
-/

namespace MediaProxy.Json

inductive Number where
  | natural (n : Nat)
  | negative (n : Nat)
  | real (x : Float)

namespace Numeral

def push? (n d : Nat) : Option Nat :=
  if n * 10 + d < UInt64.size then some (n * 10 + d) else none

def pushWhole (n : Nat) : List Nat → Nat × Nat
  | [] => (n, 0)
  | d :: ds =>
    match push? n d with
    | some n => pushWhole n ds
    | none => (n, ds.length + 1)

def pushFraction (n : Nat) : List Nat → Nat × Nat
  | [] => (n, 0)
  | d :: ds =>
    match push? n d with
    | some n => let (n, used) := pushFraction n ds; (n, used + 1)
    | none => (n, 0)

def ofDigits (ds : List Nat) : Nat :=
  ds.foldl (fun n d => n * 10 + d) 0

def tenTo (k : Nat) : Float :=
  Float.ofScientific 1 false k

def scale? (x : Float) (power : Int) : Option Float :=
  if power.natAbs ≤ 308 then
    if 0 ≤ power then
      let y := x * tenTo power.natAbs
      if y.isInf then none else some y
    else some (x / tenTo power.natAbs)
  else if x == 0 then some x
  else if 0 ≤ power then none
  else scale? (x / tenTo 308) (power + 308)
termination_by power.natAbs
decreasing_by omega

def number (numeral : Numeral) : Except Problem Number :=
  let (n, left) := pushWhole 0 numeral.whole
  if numeral.fraction.isNone ∧ numeral.exponent.isNone ∧ left = 0 then
    if !numeral.negative then .ok (.natural n)
    else if n = 0 ∨ Nat.pow 2 63 < n then .ok (.real (-(UInt64.ofNat n).toFloat))
    else .ok (.negative n)
  else
    let (n, used) := pushFraction n (numeral.fraction.getD [])
    let power : Int := match numeral.exponent with
      | none => 0
      | some (true, ds) => -(ofDigits ds : Int)
      | some (false, ds) => ofDigits ds
    match scale? (UInt64.ofNat n).toFloat (left - used + power) with
    | some x => .ok (.real (if numeral.negative then -x else x))
    | none => .error .malformed

end Numeral

end MediaProxy.Json
