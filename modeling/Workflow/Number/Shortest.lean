import Workflow.Number.Double

/-!
# Shortest decimals

The decimal of a double is the one with the fewest digits that still reads back as that double, and
among those the one nearest to it. All comparisons are between natural numbers.
-/

namespace Workflow

/-- The number `digits * 10 ^ exponent`. -/
structure Decimal where
  digits : Nat
  exponent : Int
deriving DecidableEq

namespace Decimal

/--
A positive double with the numbers that round to it: the value is `middle / unit`, the numbers lie
between `low / unit` and `high / unit`, and the two ends belong to them if `closed`.
-/
structure Neighbourhood where
  low : Nat
  middle : Nat
  high : Nat
  unit : Nat
  closed : Bool

/--
The neighbourhood of `mantissa * 2 ^ exponent`. The gap below the least mantissa of a binade is half
the gap above it, and a tie goes to the even mantissa.
-/
def neighbourhood (mantissa : Nat) (exponent : Int) : Neighbourhood :=
  let below := if mantissa = 0x10000000000000 ∧ -1074 < exponent then 1 else 2
  let scale := Nat.pow 2 (exponent - 2).toNat
  { low := (4 * mantissa - below) * scale
    middle := 4 * mantissa * scale
    high := (4 * mantissa + 2) * scale
    unit := Nat.pow 2 (2 - exponent).toNat
    closed := mantissa % 2 = 0 }

namespace Neighbourhood

/-- Whether `digits * 10 ^ exponent` rounds to the double. -/
def holds (N : Neighbourhood) (digits : Nat) (exponent : Int) : Bool :=
  let candidate := digits * Nat.pow 10 exponent.toNat * N.unit
  let scale := Nat.pow 10 (-exponent).toNat
  if N.closed then N.low * scale ≤ candidate && candidate ≤ N.high * scale
  else N.low * scale < candidate && candidate < N.high * scale

/--
The multiple of `10 ^ exponent` that rounds to the double and is nearest to it, an exact tie going
to the even one. Only the two neighbours of the double on that grid can be it.
-/
def onGrid? (N : Neighbourhood) (exponent : Int) : Option Nat :=
  let dividend := N.middle * Nat.pow 10 (-exponent).toNat
  let divisor := N.unit * Nat.pow 10 exponent.toNat
  let digits := dividend / divisor
  let remainder := dividend % divisor
  match N.holds digits exponent, N.holds (digits + 1) exponent with
  | true, false => some digits
  | false, true => some (digits + 1)
  | false, false => none
  | true, true =>
    if 2 * remainder < divisor then some digits
    else if divisor < 2 * remainder then some (digits + 1)
    else if digits % 2 = 0 then some digits
    else some (digits + 1)

/-- The number of places before the point: `10 ^ (places - 1) ≤ value < 10 ^ places`. -/
def places (N : Neighbourhood) : Int :=
  if N.unit ≤ N.middle then Double.digitCount (N.middle / N.unit)
  else
    let zeros : Nat := Double.digitCount (N.unit / N.middle)
    if N.unit = N.middle * Nat.pow 10 (zeros - 1) then 2 - (zeros : Int) else 1 - (zeros : Int)

/--
The coarsest of the next grids that holds the value, each ten times finer than the one before.
-/
def search (N : Neighbourhood) (exponent : Int) : Nat → Decimal
  | 0 => ⟨N.middle * Nat.pow 10 (-exponent).toNat / (N.unit * Nat.pow 10 exponent.toNat), exponent⟩
  | tries + 1 =>
    match N.onGrid? exponent with
    | some digits => ⟨digits, exponent⟩
    | none => N.search (exponent - 1) tries

end Neighbourhood

/--
The shortest decimal that reads back as `mantissa * 2 ^ exponent`. Seventeen digits always tell two
doubles apart, so the search need not go on beyond them.
-/
def shortest (mantissa : Nat) (exponent : Int) : Decimal :=
  if mantissa = 0 then ⟨0, 0⟩
  else
    let N := neighbourhood mantissa exponent
    N.search (N.places - 1) 17

end Decimal

end Workflow
