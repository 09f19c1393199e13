import Workflow.Number.Double
import Workflow.Text.Digit

/-!
# Decimal literals

A decimal literal is a run of digits with an optional fraction and an optional exponent, or a
fraction alone: `12`, `12.`, `12.5`, `.5`, `12e-3`. Reading takes the longest literal at the start
of a text.
-/

namespace Workflow

/-- An unsigned decimal literal. -/
structure Literal where
  whole : List Nat
  fraction : List Nat
  exponent : Int

namespace Literal

/-- The longest integer literal that is read has this many digits. -/
def maxIntegerDigits : Nat := 4300

/-- The longest run of digits at the start of a text, and what follows it. -/
def digitRun (digit? : Char → Option Nat) : List Char → List Nat × List Char
  | [] => ([], [])
  | c :: cs =>
    match digit? c with
    | some d =>
      let (ds, rest) := digitRun digit? cs
      (d :: ds, rest)
    | none => ([], c :: cs)

/-- A leading sign, and whether it is a minus. -/
def sign : List Char → Bool × List Char
  | '-' :: cs => (true, cs)
  | '+' :: cs => (false, cs)
  | cs => (false, cs)

/-- An exponent if there is a complete one: the letter, an optional sign and a digit at least. -/
def scanExponent (digit? : Char → Option Nat) (cs : List Char) : Int × List Char :=
  match cs with
  | [] => (0, [])
  | c :: rest =>
    if c = 'e' || c = 'E' then
      match digitRun digit? (sign rest).2 with
      | ([], _) => (0, cs)
      | (digits, after) => (Double.signed (sign rest).1 (Text.digitsValue digits), after)
    else (0, cs)

/-- The longest literal at the start of a text, and what follows it. -/
def scan (digit? : Char → Option Nat) (cs : List Char) : Option (Literal × List Char) :=
  let (whole, afterWhole) := digitRun digit? cs
  let (fraction, afterMantissa) :=
    match afterWhole with
    | '.' :: rest => digitRun digit? rest
    | _ => ([], afterWhole)
  if whole.isEmpty && fraction.isEmpty then none
  else
    let (exponent, after) := scanExponent digit? afterMantissa
    some (⟨whole, fraction, exponent⟩, after)

/-- The double nearest to a literal. -/
def toDouble (l : Literal) : Float :=
  Double.ofDecimal (Text.digitsValue (l.whole ++ l.fraction)) (l.exponent - l.fraction.length)

end Literal

end Workflow
