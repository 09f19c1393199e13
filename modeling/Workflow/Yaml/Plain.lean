import Workflow.Yaml.Moment
import Workflow.Yaml.Tag

/-!
# Plain scalars

What a plain scalar stands for: nothing, a boolean, an integer in one of five notations, a double, a
date, or else its own text. Digits may be set apart by underscores, and both kinds of numbers may be
written to the base of 60, like times of day.
-/

namespace Workflow.Yaml

/-- A digit or an underscore. -/
def isDigitOrLine (c : Char) : Bool :=
  c.isDigit || c = '_'

/-- Whether a text is one or two digits, of which the first of two is at most 5. -/
def isSixtieth : List Char → Bool
  | [c] => c.isDigit
  | [c, d] => '0' ≤ c && c ≤ '5' && d.isDigit
  | _ => false

/-- The parts of a text between its colons. -/
def colonParts (cs : List Char) : List (List Char) :=
  ((String.ofList cs).splitOn ":").map String.toList

/-! ### Integers -/

/-- The integer that digits write to a base; a decimal one may not be too long. -/
def integerOf (negative : Bool) (base : Nat) (digits : List Nat) : Except Fault Int :=
  if digits.isEmpty then .error (.noInteger base "")
  else if base = 10 && Literal.maxIntegerDigits < digits.length then
    .error (.longInteger digits.length)
  else .ok (Double.signed negative (digits.foldl (fun n d => base * n + d) 0))

/-- Whether a text is a decimal integer that does not begin with zero. -/
def isPositive : List Char → Bool
  | c :: cs => '1' ≤ c && c ≤ '9' && cs.all isDigitOrLine
  | [] => false

/-- The integer that a text without its sign writes, if it writes one. -/
def unsignedInteger? (negative : Bool) (cs : List Char) : Option (Except Fault Int) :=
  match cs with
  | ['0'] => some (.ok 0)
  | '0' :: 'b' :: ds =>
    if !ds.isEmpty && ds.all (fun c => c = '0' || c = '1' || c = '_') then
      some (integerOf negative 2 (digitsOf ds))
    else none
  | '0' :: 'x' :: ds =>
    if !ds.isEmpty && ds.all (fun c => (Text.hexValue? c).isSome || c = '_') then
      some (integerOf negative 16 (digitsOf ds))
    else none
  | '0' :: ds =>
    if ds.all fun c => ('0' ≤ c && c ≤ '7') || c = '_' then
      some (integerOf negative 8 (0 :: digitsOf ds))
    else none
  | cs =>
    match colonParts cs with
    | [whole] => if isPositive whole then some (integerOf negative 10 (digitsOf whole)) else none
    | first :: more =>
      if isPositive first && more.all isSixtieth then
        some ((integerOf false 10 (digitsOf first)).map fun n =>
          (more.foldl (fun n part => 60 * n + (Text.digitsValue (digitsOf part) : Int)) n)
            * (if negative then -1 else 1))
      else none
    | [] => none

/-- The integer that a text writes, if it writes one. -/
def integer? (cs : List Char) : Option (Except Fault Int) :=
  unsignedInteger? (Literal.sign cs).1 (Literal.sign cs).2

/-! ### Doubles -/

/-- The exponent at the end of a double, which has a sign. -/
def exponent? : List Char → Option Int
  | [] => some 0
  | e :: sign :: digits =>
    if (e = 'e' || e = 'E') && (sign = '+' || sign = '-') && !digits.isEmpty
      && digits.all Char.isDigit
    then some (Double.signed (sign = '-') (Text.digitsValue (digitsOf digits)))
    else none
  | _ => none

/-- The double that is written by a whole part, a point and what follows it. -/
def pointed? (whole : List Char) (after : List Char) : Option Float :=
  (exponent? (after.dropWhile isDigitOrLine)).map fun exponent =>
    (⟨digitsOf whole, digitsOf (after.takeWhile isDigitOrLine), exponent⟩ : Literal).toDouble

/-- The most parts to the base of 60 of which the weight of each is a double. -/
def maxWeight : Nat := 174

/-- The double that parts to the base of 60 write, the last one with a fraction. -/
def sixtieths? (whole : List Char) (after : List Char) : Option (Except Fault Float) :=
  match (colonParts whole).reverse with
  | last :: middle =>
    match middle.reverse with
    | first :: between =>
      if first.head?.any Char.isDigit && first.all isDigitOrLine
        && (between ++ [last]).all isSixtieth && after.all isDigitOrLine
      then
        let parts := (⟨digitsOf last, digitsOf after, 0⟩ : Literal).toDouble
          :: middle.map fun part => (⟨digitsOf part, [], 0⟩ : Literal).toDouble
        some (if maxWeight < parts.length then .error .heavyDouble else .ok (weighted 0 0 parts))
      else none
    | [] => none
  | [] => none
where
  /-- Adds up parts, each of which weighs sixty times as much as the one before. -/
  weighted (place : Nat) (sum : Float) : List Float → Float
    | [] => sum
    | part :: parts => weighted (place + 1) (sum + part * Float.ofNat (Nat.pow 60 place)) parts

/-- The double that a text writes, if it writes one. -/
def double? (cs : List Char) : Option (Except Fault Float) :=
  let (negative, unsigned) := Literal.sign cs
  let signed := unsigned.length ≠ cs.length
  let whole := unsigned.takeWhile (· ≠ '.')
  match unsigned.dropWhile (· ≠ '.') with
  | [] => none
  | _ :: after =>
    let word := String.ofList after
    let found :=
      if whole.isEmpty then
        if ["inf", "Inf", "INF"].contains word then some (.ok Double.infinity)
        else if signed then none
        else if ["nan", "NaN", "NAN"].contains word then some (.ok Double.nan)
        else if after.head?.any Char.isDigit then (pointed? [] after).map .ok
        else none
      else if whole.head?.any Char.isDigit && whole.all isDigitOrLine then
        (pointed? whole after).map .ok
      else sixtieths? whole after
    found.map (·.map (Double.withSign negative))

/-! ### All of them -/

/-- The words for a boolean. -/
def boolean? (s : String) : Option Bool :=
  if ["yes", "Yes", "YES", "true", "True", "TRUE", "on", "On", "ON"].contains s then some true
  else if ["no", "No", "NO", "false", "False", "FALSE", "off", "Off", "OFF"].contains s then
    some false
  else none

/-- The words for nothing. -/
def nullWords : List String := ["", "~", "null", "Null", "NULL"]

/-- The tag that a plain scalar has by itself. -/
def plainTag (s : String) : Tag :=
  let cs := s.toList
  if nullWords.contains s then .null
  else if s = "=" then .default
  else if s = "<<" then .merge
  else if (boolean? s).isSome then .bool
  else if (double? cs).isSome then .float
  else if (integer? cs).isSome then .int
  else if (moment? cs).isSome then .timestamp
  else .str

/-- What a plain scalar stands for. The signs of a default and of a merged mapping are no values. -/
def plainDocument (s : String) : Except Fault Document :=
  let cs := s.toList
  if nullWords.contains s then .ok .null
  else if s = "=" || s = "<<" then .error .malformed
  else
    match boolean? s, double? cs, integer? cs, moment? cs with
    | some b, _, _, _ => .ok (.bool b)
    | _, some x, _, _ => x.map .float
    | _, _, some n, _ => n.map .int
    | _, _, _, some m => m.map .moment
    | _, _, _, _ => .ok (.str s)

end Workflow.Yaml
