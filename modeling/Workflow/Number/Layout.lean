import Workflow.Number.Shortest

/-!
# Layouts of doubles

A double is written with its shortest digits. Where the point stands, when an exponent is used
instead, and what stands for the non-finite doubles is the choice of a layout.
-/

namespace Workflow

/-- The choices of one way to write doubles. -/
structure DoubleLayout where
  /-- The least decimal exponent that is written without an exponent. -/
  lowest : Int
  /-- The first decimal exponent above it that is written with an exponent again. -/
  highest : Int
  /-- The least number of digits of an exponent. -/
  exponentWidth : Nat
  /-- The text of the NaN. -/
  nan : String
  /-- The text of the infinity of the given sign. -/
  infinity : Bool → String

namespace DoubleLayout

/-- Digits without the zeros at their end. -/
def dropZeros (digits : List Char) : List Char :=
  (digits.reverse.dropWhile (· = '0')).reverse

/-- The text of an exponent: always with a sign. -/
def exponentText (L : DoubleLayout) (exponent : Int) : List Char :=
  let digits := Nat.toDigits 10 exponent.natAbs
  let sign := if exponent < 0 then '-' else '+'
  sign :: (List.replicate (L.exponentWidth - digits.length) '0' ++ digits)

/-- The digits with a point after the first `point` of them, and at least one digit on each side. -/
def positional (digits : List Char) (point : Int) : List Char :=
  if point ≤ 0 then '0' :: '.' :: (List.replicate (-point).toNat '0' ++ digits)
  else if digits.length ≤ point then
    digits ++ List.replicate (point.toNat - digits.length) '0' ++ ['.', '0']
  else digits.take point.toNat ++ '.' :: digits.drop point.toNat

/-- One digit, the others behind a point if there are any, and the exponent. -/
def scientific (L : DoubleLayout) (digits : List Char) (exponent : Int) : List Char :=
  let fraction :=
    match digits.drop 1 with
    | [] => []
    | rest => '.' :: rest
  digits.take 1 ++ fraction ++ 'e' :: L.exponentText exponent

/-- The text of an unsigned decimal. -/
def decimalText (L : DoubleLayout) (d : Decimal) : List Char :=
  if d.digits = 0 then ['0', '.', '0']
  else
    let all := Nat.toDigits 10 d.digits
    let point := (all.length : Int) + d.exponent
    let digits := dropZeros all
    if L.lowest ≤ point - 1 ∧ point - 1 < L.highest then positional digits point
    else L.scientific digits (point - 1)

/-- The text of a double. -/
def text (L : DoubleLayout) (x : Float) : String :=
  match Double.parts x with
  | .nan => L.nan
  | .infinite negative => L.infinity negative
  | .finite negative m q =>
    let digits := L.decimalText (Decimal.shortest m q)
    String.ofList (if negative then '-' :: digits else digits)

/-- Doubles inside sentences and listings. -/
def plain : DoubleLayout where
  lowest := -4
  highest := 16
  exponentWidth := 2
  nan := "nan"
  infinity negative := if negative then "-inf" else "inf"

/-- Doubles in traces and fingerprints, which are JSON but for the three non-finite words. -/
def trace : DoubleLayout :=
  { plain with
    nan := "NaN"
    infinity := fun negative => if negative then "-Infinity" else "Infinity" }

/-- Doubles in saved workflow files, where a non-finite one is lost as `null`. -/
def saved : DoubleLayout where
  lowest := -5
  highest := 16
  exponentWidth := 1
  nan := "null"
  infinity _ := "null"

end DoubleLayout

end Workflow
