import Workflow.Number.Literal
import Workflow.Reading.Basic
import Workflow.Text.Blank
import Workflow.Text.Utf8

/-!
# Reading single values

Texts are taken as they are, and bytes as the text that they are in UTF-8. Numbers and booleans are
read leniently: a number may come as a text, and a boolean as a number or as one of a few words.
Such a text has to be one of characters alone, without half a surrogate pair.
-/

namespace Workflow.Reading

/-- Reads bytes by way of their text, if they have one. -/
def fromBytes {α : Type} (b : List UInt8) (broken : Reading α) (read : String → Reading α) :
    Reading α :=
  match Text.decodeUtf8 b.toByteArray with
  | .ok s => read (Text.ofChars s.toList)
  | .error _ => broken

/-- Reads a text. -/
def text : Document → Reading String
  | .str s => ok s
  | .bytes b => fromBytes b (fault .brokenText) ok
  | _ => fault .notText

/-- What a text is read as, unless it holds half a surrogate pair. -/
def unbroken {α : Type} (s : String) (r : Reading α) : Reading α :=
  if Text.hasHalf s then fault .brokenText else r

/-- Reads any value at all. -/
def value (d : Document) : Reading Value :=
  ok d.toValue

/-- A text in lower case as far as ASCII goes. -/
def asciiLower (cs : List Char) : List Char :=
  cs.map Char.toLower

/-- The double written by a whole text: a decimal literal or a word for a non-finite one. -/
def doubleText? (cs : List Char) : Option Float :=
  let (negative, unsigned) := Literal.sign cs
  let word := String.ofList (asciiLower unsigned)
  if word = "inf" ∨ word = "infinity" then some (Double.withSign negative Double.infinity)
  else if word = "nan" then some Double.nan
  else
    match Literal.scan Text.asciiDigitValue? unsigned with
    | some (literal, []) => some (Double.withSign negative literal.toDouble)
    | _ => none

/-- Whether two underscores stand side by side. -/
def hasDoubleUnderscore : List Char → Bool
  | '_' :: '_' :: _ => true
  | _ :: rest => hasDoubleUnderscore rest
  | [] => false

/-- The text without its underscores, if it has some and each stands alone inside it. -/
def dropUnderscores? (cs : List Char) : Option (List Char) :=
  if cs.head? = some '_' ∨ cs.getLast? = some '_' ∨ hasDoubleUnderscore cs ∨ !cs.contains '_' then
    none
  else some (cs.filter (· ≠ '_'))

/--
The double written by a text. It may have white space around it or underscores inside, but not both.
-/
def lenientDouble? (s : String) : Option Float :=
  match doubleText? (Text.trimWhite s.toList) with
  | some x => some x
  | none => (dropUnderscores? s.toList).bind doubleText?

/-- Reads the double that a text writes. -/
def doubleOfText (s : String) : Reading Float :=
  match lenientDouble? s with
  | some x => ok x
  | none => fault .unreadableNumber

/-- Reads a double. -/
def double : Document → Reading Float
  | .float x => ok x
  | .int n =>
    match Double.ofInt? n with
    | some x => ok x
    | none => fault .notNumber
  | .bool b => ok (if b then 1 else 0)
  | .str s => unbroken s (doubleOfText s)
  | .bytes b => fromBytes b (fault .unreadableNumber) doubleOfText
  | _ => fault .notNumber

/-- Reads a double; an integer beyond all doubles is read as infinite. -/
def roundedDouble : Document → Reading Float
  | .int n => ok (Float.ofInt n)
  | d => double d

/-- A minus at the start of a text, and what follows it. -/
def splitMinus : List Char → Bool × List Char
  | '-' :: cs => (true, cs)
  | cs => (false, cs)

/--
Whether a text begins with more digits than are read. Digits with a zero in front are none: they
are looked at again without it.
-/
def isOversized (cs : List Char) : Bool :=
  let digits := (splitMinus cs).2
  digits.head? ≠ some '0'
    && Literal.maxIntegerDigits < (Literal.digitRun Text.asciiDigitValue? digits).1.length

/-- The integer written by a whole text: an optional minus and digits without a zero in front. -/
def integerText? (cs : List Char) : Option Int :=
  let (negative, digits) := splitMinus cs
  match Literal.digitRun Text.asciiDigitValue? digits with
  | ([], _) => none
  | (ds, []) =>
    if (ds.head? = some 0 ∧ 1 < ds.length) ∨ Literal.maxIntegerDigits < ds.length then none
    else some (Double.signed negative (Text.digitsValue ds))
  | _ => none

/-- Drops a plus sign, which may not stand before a minus. -/
def dropPlus? : List Char → Option (List Char)
  | '+' :: '-' :: _ => none
  | '+' :: rest => some rest
  | cs => some cs

/--
Drops a zero in front with the zeros and underscores after it, up to another digit or a minus. Of
zeros and underscores alone the last is left, as is the one before a point.
-/
def dropLeadingZeros? (cs : List Char) : Option (List Char) :=
  match cs with
  | '0' :: rest =>
    match rest.dropWhile fun c => c = '0' || c = '_' with
    | [] => cs.getLast?.map ([·])
    | '.' :: after =>
      some ((rest.takeWhile fun c => c = '0' || c = '_').getLast?.getD '0' :: '.' :: after)
    | c :: after => if ('1' ≤ c ∧ c ≤ '9') ∨ c = '-' then some (c :: after) else none
  | c :: _ => if ('1' ≤ c ∧ c ≤ '9') ∨ c = '-' then some cs else none
  | [] => none

/-- Drops a fraction of zeros, of which there is one at least. -/
def dropZeroFraction (cs : List Char) : List Char :=
  match cs.dropWhile (· ≠ '.') with
  | '.' :: '0' :: zeros => if zeros.all (· = '0') then cs.takeWhile (· ≠ '.') else cs
  | _ => cs

/-- The integer written by a text with white space, a plus, zeros or underscores in it. -/
def lenientInteger? (s : String) : Option Int := do
  let (negative, unsigned) := splitMinus (← dropPlus? (Text.trimWhite s.toList))
  let significant ← dropLeadingZeros? unsigned
  let whole := dropZeroFraction (if negative then '-' :: significant else significant)
  integerText? ((dropUnderscores? whole).getD whole)

/-- The bound of the integers that fit into 64 bits. -/
def wordBound : Int := 0x8000000000000000

/-- Reads the integer that a text writes. -/
def integerOfText (s : String) : Reading Int :=
  if isOversized s.toList then fault .oversizedInteger
  else
    match lenientInteger? s with
    | some n => ok n
    | none => fault .unreadableInteger

/-- Reads an integer. -/
def integer : Document → Reading Int
  | .int n => ok n
  | .bool b => ok (Value.ofBool b)
  | .float x =>
    if !Double.isFinite x then fault .infiniteInteger
    else
      match Double.toInt? x with
      | none => fault .fractionalInteger
      | some n => if n.natAbs < wordBound then ok n else fault .oversizedInteger
  | .str s => unbroken s (integerOfText s)
  | .bytes b => fromBytes b (fault .unreadableInteger) integerOfText
  | _ => fault .notInteger

/-- The boolean that an integer stands for. -/
def integerBoolean (n : Int) : Reading Bool :=
  if n = 0 then ok false else if n = 1 then ok true else fault .unreadableBoolean

/-- Reads the boolean that a word stands for. -/
def booleanOfText (s : String) : Reading Bool :=
  let word := String.ofList (asciiLower s.toList)
  if ["0", "off", "f", "false", "n", "no"].contains word then ok false
  else if ["1", "on", "t", "true", "y", "yes"].contains word then ok true
  else fault .unreadableBoolean

/-- Reads a boolean. -/
def boolean : Document → Reading Bool
  | .bool b => ok b
  | .str s => unbroken s (booleanOfText s)
  | .bytes b => fromBytes b (fault .unreadableBoolean) booleanOfText
  | .int n => if -wordBound ≤ n ∧ n < wordBound then integerBoolean n else fault .notBoolean
  | .float x =>
    match Double.toInt? x with
    | some n => if n.natAbs < wordBound then integerBoolean n else fault .notBoolean
    | none => fault .notBoolean
  | _ => fault .notBoolean

/-- Reads a document that may be null. -/
def nullable {α : Type} (read : Document → Reading α) : Document → Reading (Option α)
  | .null => ok none
  | d => (read d).map some

/-- Refuses what is below a minimum. -/
def atLeast {α : Type} (minimum : Nat) (below : α → Bool) (r : Reading α) : Reading α :=
  r.andThen fun a => if below a then fault (.belowMinimum minimum) else ok a

end Workflow.Reading
