import Workflow.Reading.Scalar
import Workflow.Text.Base64
import Workflow.Text.Case
import Workflow.Yaml.Plain

/-!
# Values of the standard tags

What a text stands for behind a standard tag. It need not be written as a plain scalar of this kind
is: numbers may have blanks around them and digits of any script, so that more texts have a value,
and a text that has none is an error of the conversion, not of the format.
-/

namespace Workflow.Yaml

/-! ### Numbers -/

/-- A text without blanks around it, and with the digits of all scripts as those of ASCII. -/
def asciiDigits (cs : List Char) : List Char :=
  (Text.trimWhite cs).map fun c =>
    match Text.digitValue? c with
    | some d => Nat.digitChar d
    | none => c

/-- A text without the mark of a base. -/
def dropBaseMark (base : Nat) (cs : List Char) : List Char :=
  match cs with
  | '0' :: mark :: rest =>
    if [(2, 'b'), (8, 'o'), (16, 'x')].lookup base = some mark.toLower then rest else cs
  | _ => cs

/-- The value of a digit to a base. -/
def baseDigit? (base : Nat) (c : Char) : Option Nat :=
  (Text.hexValue? c).filter (· < base)

/-- The integer to a base that a text writes, perhaps with a sign and with a mark of the base. -/
def readInteger (base : Nat) (cs : List Char) : Except Fault Int :=
  let (negative, unsigned) := Literal.sign (asciiDigits cs)
  match (dropBaseMark base unsigned).mapM (baseDigit? base) with
  | some (d :: ds) => integerOf negative base (d :: ds)
  | _ => .error (.noInteger base (String.ofList cs))

/-- The double that a text writes. -/
def readDouble (cs : List Char) : Except Fault Float :=
  match Reading.doubleText? (asciiDigits cs) with
  | some x => .ok x
  | none => .error (.noDouble (String.ofList cs))

/-- A text without underscores and without its sign, and whether that is a minus. -/
def unsignedText (s : String) : Bool × List Char :=
  Literal.sign (s.toList.filter (· ≠ '_'))

/-- The integer of a text: to the base its first digits name, or in parts to a base of 60. -/
def taggedInteger (s : String) : Except Fault Int :=
  let (negative, unsigned) := unsignedText s
  let found : Except Fault Int :=
    match unsigned with
    | [] => .error .noNumber
    | ['0'] => .ok 0
    | '0' :: 'b' :: digits => readInteger 2 digits
    | '0' :: 'x' :: digits => readInteger 16 digits
    | '0' :: _ => readInteger 8 unsigned
    | _ => do
      let parts ← (colonParts unsigned).mapM (readInteger 10)
      .ok (parts.foldl (fun n part => 60 * n + part) 0)
  found.map fun n => if negative then -n else n

/-- The double of a text, perhaps in parts of a base of 60. -/
def taggedDouble (s : String) : Except Fault Float :=
  let word := Text.lower (String.ofList (s.toList.filter (· ≠ '_')))
  let (negative, unsigned) := Literal.sign word.toList
  if word.isEmpty then .error .noNumber
  else if String.ofList unsigned = ".nan" then .ok Double.nan
  else do
    let x ←
      if String.ofList unsigned = ".inf" then .ok Double.infinity
      else
        match colonParts unsigned with
        | [_] => readDouble unsigned
        | parts => do
          let parts ← parts.mapM readDouble
          if maxWeight < parts.length then .error .heavyDouble
          else .ok (sixtieths?.weighted 0 0 parts.reverse)
    .ok (Double.withSign negative x)

/-! ### Other values -/

/-- The boolean of a text, which is one of a few words in any case. -/
def taggedBoolean (s : String) : Except Fault Bool :=
  let word := Text.lower s
  match boolean? word with
  | some b => .ok b
  | none => .error (.noBoolean word)

/-- The bytes of a text of ASCII to the base of 64. -/
def taggedBytes (s : String) : Except Fault (List UInt8) :=
  let cs := s.toList
  match if cs.all (·.toNat < 0x80) then Text.decodeBase64? cs else none with
  | some bytes => .ok bytes
  | none => .error .malformed

/-- The date that a text of numbers with one or two digits writes. -/
def looseDate? (cs : List Char) : Option (Except Fault Moment) :=
  match takeThree '-' (4, 4) (1, 2) (1, 2) cs with
  | some ((year, month, day), []) => some (momentOfDate year month day)
  | _ => none

/-- The date of a text, which may end with a line break. -/
def taggedMoment (s : String) : Except Fault Moment :=
  let cs := s.toList
  let line := if cs.getLast? = some '\n' then cs.dropLast else cs
  (looseDate? line <|> moment? line).getD (.error .noDate)

/-- What a text stands for behind a tag for texts. -/
def taggedDocument (tag : Tag) (s : String) : Except Fault Document :=
  match tag with
  | .null => .ok .null
  | .bool => (taggedBoolean s).map .bool
  | .int => (taggedInteger s).map .int
  | .float => (taggedDouble s).map .float
  | .binary => (taggedBytes s).map .bytes
  | .timestamp => (taggedMoment s).map .moment
  | .str => .ok (.str s)
  | .omap | .pairs | .set | .seq | .map | .merge | .default | .other => .error .malformed

end Workflow.Yaml
