/-!
# Doubles

A double is read exactly, as a sign, a mantissa and a binary exponent, so that questions about its
integer value need no rounding. In the other direction an integer or a decimal goes to the nearest
double.
-/

namespace Workflow

/-- A double taken apart; a finite one is `± mantissa * 2 ^ exponent`. -/
inductive DoubleParts where
  | nan
  | infinite (negative : Bool)
  | finite (negative : Bool) (mantissa : Nat) (exponent : Int)
deriving DecidableEq

namespace Double

/-- The parts of a double, read off its sign bit, eleven exponent bits and 52 fraction bits. -/
def parts (x : Float) : DoubleParts :=
  let bits := x.toBits.toNat
  let negative := decide (0x8000000000000000 ≤ bits)
  let field : Nat := bits / 0x10000000000000 % 0x800
  let fraction : Nat := bits % 0x10000000000000
  if field = 2047 then
    if fraction = 0 then .infinite negative else .nan
  else if field = 0 then .finite negative fraction (-1074)
  else .finite negative (0x10000000000000 + fraction) ((field : Int) - 1075)

/-- Neither an infinity nor a NaN. -/
def isFinite (x : Float) : Bool :=
  match parts x with
  | .finite .. => true
  | _ => false

/-- A magnitude with its sign. -/
def signed (negative : Bool) (n : Nat) : Int :=
  if negative then -(n : Int) else n

/-- The integer a double stands for, if it is finite and has no fraction. -/
def toInt? (x : Float) : Option Int :=
  match parts x with
  | .finite negative m q =>
    if 0 ≤ q then some (signed negative (m * Nat.pow 2 q.toNat))
    else if m % Nat.pow 2 (-q).toNat = 0 then some (signed negative (m / Nat.pow 2 (-q).toNat))
    else none
  | _ => none

/-- Why a double cannot be rounded to an integer. -/
inductive NoInteger where
  | nan
  | infinite
deriving DecidableEq

/-- The sentence for a double that cannot be rounded. -/
def NoInteger.message : NoInteger → String
  | nan => "cannot convert float NaN to integer"
  | infinite => "cannot convert float infinity to integer"

/-- The greatest integer that is not above a finite double. -/
def floor (x : Float) : Except NoInteger Int :=
  match parts x with
  | .nan => .error .nan
  | .infinite _ => .error .infinite
  | .finite negative m q =>
    if 0 ≤ q then .ok (signed negative (m * Nat.pow 2 q.toNat))
    else .ok (Int.fdiv (signed negative m) (Nat.pow 2 (-q).toNat))

/-- The integer nearest to `n / d`, the even one if two are equally near. -/
def nearestQuotient (n : Int) (d : Nat) : Int :=
  let below := Int.fdiv n d
  let twice := 2 * (n - below * d)
  if twice < d then below
  else if (d : Int) < twice then below + 1
  else if below % 2 = 0 then below
  else below + 1

/-- The integer nearest to a finite double, the even one if two are equally near. -/
def nearestInt (x : Float) : Except NoInteger Int :=
  match parts x with
  | .nan => .error .nan
  | .infinite _ => .error .infinite
  | .finite negative m q =>
    if 0 ≤ q then .ok (signed negative (m * Nat.pow 2 q.toNat))
    else .ok (nearestQuotient (signed negative m) (Nat.pow 2 (-q).toNat))

/-- The double nearest to an integer, unless the integer lies beyond the range of doubles. -/
def ofInt? (n : Int) : Option Float :=
  let x := Float.ofInt n
  if isFinite x then some x else none

/-- How many decimal digits a positive number has. -/
def digitCount (n : Nat) : Nat :=
  (Nat.toDigits 10 n).length

/--
The double nearest to `digits * 10 ^ exponent`. Decimals of more than 400 places before the point
are infinite and those that begin 400 places behind it are zero, so no larger power is computed.
-/
def ofDecimal (digits : Nat) (exponent : Int) : Float :=
  if digits = 0 then 0
  else if 400 < digitCount digits + exponent then Float.ofBits 0x7ff0000000000000
  else if digitCount digits + exponent < -400 then 0
  else if 0 ≤ exponent then Float.ofScientific digits false exponent.toNat
  else Float.ofScientific digits true (-exponent).toNat

/-- Changes the sign if asked to. -/
def withSign (negative : Bool) (x : Float) : Float :=
  if negative then -x else x

/-- The positive infinity. -/
def infinity : Float := Float.ofBits 0x7ff0000000000000

/-- The NaN. -/
def nan : Float := Float.ofBits 0x7ff8000000000000

end Double

end Workflow
