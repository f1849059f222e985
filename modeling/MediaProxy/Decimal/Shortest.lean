/-!
This module contains the shortest decimals of binary floating-point numbers: the fewest digits that
read back as the number, and of those the ones nearest to it.
-/

namespace MediaProxy.Decimal

structure Scaled where
  digits : Nat
  power : Int
  deriving DecidableEq, Repr

structure Binary where
  significand : Nat
  power : Int
  deriving DecidableEq, Repr

namespace Binary

def ofFloat (x : Float) : Binary :=
  let bits : Nat := x.toBits.toNat
  let fraction : Nat := bits % Nat.pow 2 52
  let exponent : Nat := bits / Nat.pow 2 52 % Nat.pow 2 11
  if exponent = 0 then ⟨fraction, -1074⟩
  else ⟨Nat.pow 2 52 + fraction, (exponent : Int) - 1075⟩

/--
The numbers that round to a floating-point number, in quarters of the unit of its significand. Both
ends belong to them if the significand is even. Below a power of two the numbers lie closer.
-/
def bounds (x : Binary) : Nat × Nat :=
  let closer := x.significand == Nat.pow 2 52 && x.power != -1074
  (4 * x.significand - (if closer then 1 else 2), 4 * x.significand + 2)

def onGrid? (x : Binary) (power : Int) : Option Nat :=
  let quarter := x.power - 2
  let unit := Nat.pow 2 quarter.toNat * Nat.pow 10 (-power).toNat
  let step := Nat.pow 2 (-quarter).toNat * Nat.pow 10 power.toNat
  let (low, high) := x.bounds
  let inside (count : Nat) : Bool :=
    if x.significand % 2 = 0 then low * unit ≤ count * step && count * step ≤ high * unit
    else low * unit < count * step && count * step < high * unit
  let value := 4 * x.significand * unit
  let below := value / step
  match inside below, inside (below + 1) with
  | true, true =>
    let doubled := (2 * below + 1) * step
    if 2 * value < doubled ∨ (2 * value = doubled ∧ below % 2 = 0) then some below
    else some (below + 1)
  | true, false => some below
  | false, true => some (below + 1)
  | false, false => none

def shortest (x : Binary) : Scaled :=
  go 650
where
  go : Nat → Scaled
    | 0 => ⟨(x.onGrid? (-341)).getD 0, -341⟩
    | n + 1 =>
      let power : Int := (n + 1 : Nat) - 341
      match x.onGrid? power with
      | some digits => ⟨digits, power⟩
      | none => go n

end Binary

def pointed (digits : List Char) (whole : Nat) : List Char :=
  digits.take whole ++ '.' :: digits.drop whole

/--
A decimal as text. Numbers from `10 ^ -5` to below `10 ^ 16` are written with a point and at least
one digit on both sides of it, all others with a power of ten.
-/
def Scaled.text (x : Scaled) : List Char :=
  let digits := Nat.toDigits 10 x.digits
  let magnitude := digits.length + x.power
  if 0 ≤ x.power ∧ magnitude ≤ 16 then
    digits ++ List.replicate x.power.toNat '0' ++ ['.', '0']
  else if 0 < magnitude ∧ magnitude ≤ 16 then pointed digits magnitude.toNat
  else if -5 < magnitude ∧ magnitude ≤ 0 then
    '0' :: '.' :: (List.replicate (-magnitude).toNat '0' ++ digits)
  else
    let mantissa := if digits.length = 1 then digits else pointed digits 1
    mantissa ++ 'e' :: (toString (magnitude - 1)).toList

def text (x : Float) : String :=
  let negative := x.toBits.toNat / Nat.pow 2 63 = 1
  let magnitude := if x == 0 then ['0', '.', '0'] else (Binary.ofFloat x).shortest.text
  String.ofList (if negative then '-' :: magnitude else magnitude)

end MediaProxy.Decimal
