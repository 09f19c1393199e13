import Workflow.Number.Literal
import Workflow.Text.Blank
import Workflow.Value

/-!
# Numbers and multipliers

A number is an integer or a double. Integers multiply exactly; as soon as a double takes part, the
integer is first rounded to one. A multiplier is a number, or a text that begins with one.
-/

namespace Workflow

/-- A number of either kind. -/
inductive Number where
  | int (n : Int)
  | float (x : Float)
deriving DecidableEq

namespace Number

/-- The number that a value is. Booleans are not numbers. -/
def ofValue? : Value → Option Number
  | .int n => some (int n)
  | .float x => some (float x)
  | _ => none

/-- A number as a value. -/
def toValue : Number → Value
  | int n => .int n
  | float x => .float x

/-- A double as a number: an integer if it is a finite one without a fraction. -/
def ofDouble (x : Float) : Number :=
  match Double.toInt? x with
  | some n => int n
  | none => float x

/-- The product of two numbers, unless an integer is too large to be rounded to a double. -/
def mul? : Number → Number → Option Number
  | int a, int b => some (int (a * b))
  | float a, float b => some (float (a * b))
  | int a, float b => (Double.ofInt? a).map fun x => float (x * b)
  | float a, int b => (Double.ofInt? b).map fun y => float (a * y)

/-- The double written at the start of a text that has no sign. -/
def unsignedPrefix? (cs : List Char) : Option Float :=
  match cs with
  | 'I' :: 'n' :: 'f' :: 'i' :: 'n' :: 'i' :: 't' :: 'y' :: _ => some Double.infinity
  | _ => (Literal.scan Text.digitValue? cs).map fun found => found.1.toDouble

/--
The number at the start of a text: blanks, a sign, and the longest decimal literal or the word
`Infinity`. It is read as a double first, whatever follows it.
-/
def ofText? (s : String) : Option Number :=
  let (negative, unsigned) := Literal.sign (s.toList.dropWhile Text.isBlank)
  (unsignedPrefix? unsigned).map fun x => ofDouble (Double.withSign negative x)

end Number

end Workflow
