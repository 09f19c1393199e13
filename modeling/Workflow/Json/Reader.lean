import Workflow.Number.Literal
import Workflow.Text.Hex
import Workflow.Text.Surrogate
import Workflow.Value

/-!
# Reading JSON

A reader for JSON texts as RFC 8259 defines them. Of two members of one name the place of the first
and the value of the last is kept. A dialect may also admit the words `NaN`, `Infinity` and
`-Infinity`, limits how deep collections are nested, and says whether half a surrogate pair is read.
-/

namespace Workflow.Json

/-- What a reader admits beyond the standard. -/
structure Dialect where
  /-- Whether the three words for non-finite numbers are read. -/
  nonFinite : Bool
  /-- Whether half a surrogate pair is read. -/
  loneSurrogates : Bool
  /-- Whether the limit on the digits of an integer holds for the whole part of a double too. -/
  shortDoubles : Bool
  /-- Whether an empty collection counts as a level of nesting. -/
  countsEmpty : Bool
  /-- How deep collections may be nested, if there is a limit. -/
  maxDepth : Option Nat

namespace Dialect

/-- The payload of a start node: standard JSON. -/
def payload : Dialect where
  nonFinite := false
  loneSurrogates := true
  shortDoubles := false
  countsEmpty := true
  maxDepth := some 982

/-- A workflow file: the non-finite words are read too, and half a surrogate pair is refused. -/
def file : Dialect where
  nonFinite := true
  loneSurrogates := false
  shortDoubles := true
  countsEmpty := false
  maxDepth := some 200

end Dialect

/-- The two kinds of collection. -/
inductive Collection where
  | list
  | object
deriving DecidableEq

/-- How a kind of collection is called. -/
def Collection.name : Collection → String
  | list => "array"
  | object => "object"

/-- Why a text is not read. -/
inductive Fault where
  | malformed
  /-- A collection of the given kind stands deeper than any may. -/
  | tooDeep (kind : Collection)
deriving DecidableEq

/-- A value at the start of a text with what follows it. -/
abbrev Found := Except Fault (Value × List Char)

/-- The blanks between tokens. -/
def isBlank (c : Char) : Bool :=
  c = ' ' || c = '\t' || c = '\n' || c = '\r'

/-- Drops blanks. -/
def skipBlanks (cs : List Char) : List Char :=
  cs.dropWhile isBlank

/-- Digits with the values they have in decimal, up to the first other character. -/
def digits (cs : List Char) : List Nat × List Char :=
  ((cs.takeWhile Char.isDigit).map fun c => c.toNat - '0'.toNat, cs.dropWhile Char.isDigit)

/-- A fraction: a point and one digit at least. -/
def fraction (cs : List Char) : Option (List Nat × List Char) :=
  match cs with
  | '.' :: rest =>
    match digits rest with
    | ([], _) => none
    | found => some found
  | _ => none

/-- An exponent: its letter, an optional sign and one digit at least. -/
def exponent (cs : List Char) : Option (Int × List Char) :=
  match cs with
  | c :: rest =>
    if c = 'e' || c = 'E' then
      let (negative, afterSign) :=
        match rest with
        | '-' :: after => (true, after)
        | '+' :: after => (false, after)
        | _ => (false, rest)
      match digits afterSign with
      | ([], _) => none
      | (ds, after) => some (Double.signed negative (Text.digitsValue ds), after)
    else none
  | [] => none

/-- The whole part of a number: a zero alone, or digits that begin with another one. -/
def whole (cs : List Char) : Option (List Nat × List Char) :=
  match cs with
  | '0' :: rest => some ([0], rest)
  | _ =>
    match digits cs with
    | ([], _) => none
    | found => some found

/-- A number without its sign: an integer, or a double if it has a fraction or an exponent. -/
def unsigned (D : Dialect) (negative : Bool) (cs : List Char) : Option (Value × List Char) := do
  let (ds, afterWhole) ← whole cs
  let fraction? := fraction afterWhole
  let (fs, afterFraction) := fraction?.getD ([], afterWhole)
  let exponent? := exponent afterFraction
  let (e, after) := exponent?.getD (0, afterFraction)
  let integer := fraction?.isNone && exponent?.isNone
  if (integer || D.shortDoubles) && Literal.maxIntegerDigits < ds.length then none
  else if integer then some (.int (Double.signed negative (Text.digitsValue ds)), after)
  else
    let magnitude := Double.ofDecimal (Text.digitsValue (ds ++ fs)) (e - fs.length)
    some (.float (Double.withSign negative magnitude), after)

/-- The unit of UTF-16 written by four hexadecimal digits. -/
def unit (cs : List Char) : Option (Nat × List Char) :=
  match cs with
  | a :: b :: c :: d :: rest => (Text.hexNumber? [a, b, c, d]).map (·, rest)
  | _ => none

/--
What is written by the unit after `\u`, or by two if the first is a high surrogate; a surrogate by
itself is read if the dialect says so.
-/
def codeEscaped (D : Dialect) (cs : List Char) : Option (Text.Part × List Char) := do
  let (n, rest) ← unit cs
  let found := some (Text.Part.ofCodePoint n, rest)
  let lone := if D.loneSurrogates then found else none
  if 0xd800 ≤ n ∧ n < 0xdc00 then
    match rest with
    | '\\' :: 'u' :: after =>
      match unit after with
      | some (low, after) =>
        if 0xdc00 ≤ low ∧ low < 0xe000 then
          some (.ofCodePoint (0x10000 + (n - 0xd800) * 0x400 + (low - 0xdc00)), after)
        else lone
      | none => lone
    | _ => lone
  else if 0xdc00 ≤ n ∧ n < 0xe000 then lone
  else found

/-- What an escape stands for, given what follows the backslash. -/
def escape (D : Dialect) (cs : List Char) : Option (Text.Part × List Char) :=
  match cs with
  | '"' :: rest => some (.char '"', rest)
  | '\\' :: rest => some (.char '\\', rest)
  | '/' :: rest => some (.char '/', rest)
  | 'b' :: rest => some (.char '\x08', rest)
  | 'f' :: rest => some (.char '\x0c', rest)
  | 'n' :: rest => some (.char '\n', rest)
  | 'r' :: rest => some (.char '\r', rest)
  | 't' :: rest => some (.char '\t', rest)
  | 'u' :: rest => codeEscaped D rest
  | _ => none

/-- A character that stands for itself in a string. -/
def isLiteral (c : Char) : Bool :=
  c ≠ '"' && c ≠ '\\' && 0x20 ≤ c.toNat

/--
The rest of a string after its opening quote. `fuel` bounds the number of steps and `before` holds
the parts already read, last first.
-/
def stringBody (D : Dialect) : Nat → List Text.Part → List Char → Option (String × List Char)
  | 0, _, _ => none
  | fuel + 1, before, cs =>
    match cs with
    | [] => none
    | '"' :: rest => some (Text.ofParts before.reverse, rest)
    | '\\' :: rest =>
      match escape D rest with
      | some (found, after) => stringBody D fuel (found :: before) after
      | none => none
    | c :: rest =>
      if isLiteral c then
        let literal := Text.parts (String.ofList (c :: rest.takeWhile isLiteral))
        stringBody D fuel (literal.reverse ++ before) (rest.dropWhile isLiteral)
      else none

/-- The value that a word stands for. -/
def word? (D : Dialect) (cs : List Char) : Option (Value × List Char) :=
  match cs with
  | 'n' :: 'u' :: 'l' :: 'l' :: rest => some (.null, rest)
  | 't' :: 'r' :: 'u' :: 'e' :: rest => some (.bool true, rest)
  | 'f' :: 'a' :: 'l' :: 's' :: 'e' :: rest => some (.bool false, rest)
  | 'N' :: 'a' :: 'N' :: rest => if D.nonFinite then some (.float Double.nan, rest) else none
  | 'I' :: 'n' :: 'f' :: 'i' :: 'n' :: 'i' :: 't' :: 'y' :: rest =>
    if D.nonFinite then some (.float Double.infinity, rest) else none
  | '-' :: 'I' :: 'n' :: 'f' :: 'i' :: 'n' :: 'i' :: 't' :: 'y' :: rest =>
    if D.nonFinite then some (.float (-Double.infinity), rest) else none
  | _ => none

/-- A number with its sign. -/
def number? (D : Dialect) (cs : List Char) : Option (Value × List Char) :=
  match cs with
  | '-' :: rest => unsigned D true rest
  | _ => unsigned D false cs

/-- What is found of a word or a number, if anything is. -/
def scalar (D : Dialect) (cs : List Char) : Found :=
  match (word? D cs).orElse fun _ => number? D cs with
  | some found => .ok found
  | none => .error .malformed

mutual

/--
The value at the start of a text, and what follows it. `fuel` bounds the steps, of which there are
at most two for each character, and `room` says how deep collections may still be nested.
-/
def value (D : Dialect) : Nat → Nat → List Char → Found
  | 0, _, _ => .error .malformed
  | fuel + 1, room, cs =>
    match skipBlanks cs with
    | '"' :: rest =>
      match stringBody D fuel [] rest with
      | some (s, after) => .ok (.str s, after)
      | none => .error .malformed
    | '[' :: rest =>
      if room = 0 && D.countsEmpty then .error (.tooDeep .list)
      else
        match skipBlanks rest with
        | ']' :: after => .ok (.list [], after)
        | _ => if room = 0 then .error (.tooDeep .list) else items D fuel (room - 1) [] rest
    | '\x7b' :: rest =>
      if room = 0 && D.countsEmpty then .error (.tooDeep .object)
      else
        match skipBlanks rest with
        | '\x7d' :: after => .ok (.object [], after)
        | _ => if room = 0 then .error (.tooDeep .object) else members D fuel (room - 1) [] rest
    | other => scalar D other

/-- The rest of a list at the start of an item, the items before it being given last first. -/
def items (D : Dialect) : Nat → Nat → List Value → List Char → Found
  | 0, _, _, _ => .error .malformed
  | fuel + 1, room, before, cs =>
    match value D fuel room cs with
    | .error fault => .error fault
    | .ok (v, after) =>
      match skipBlanks after with
      | ',' :: rest => items D fuel room (v :: before) rest
      | ']' :: rest => .ok (.list (v :: before).reverse, rest)
      | _ => .error .malformed

/-- The rest of an object at the start of a member, after the members before it. -/
def members (D : Dialect) : Nat → Nat → List (String × Value) → List Char → Found
  | 0, _, _, _ => .error .malformed
  | fuel + 1, room, before, cs =>
    match skipBlanks cs with
    | '"' :: rest =>
      match stringBody D fuel [] rest with
      | none => .error .malformed
      | some (name, afterName) =>
        match skipBlanks afterName with
        | ':' :: afterColon =>
          match value D fuel room afterColon with
          | .error fault => .error fault
          | .ok (v, after) =>
            match skipBlanks after with
            | ',' :: rest => members D fuel room (Value.setMember before name v) rest
            | '\x7d' :: rest => .ok (.object (Value.setMember before name v), rest)
            | _ => .error .malformed
        | _ => .error .malformed
    | _ => .error .malformed

end

/-- Reads a whole text as one value. -/
def read (D : Dialect) (s : String) : Except Fault Value :=
  let cs := s.toList
  match value D (2 * cs.length + 2) (D.maxDepth.getD cs.length) cs with
  | .error fault => .error fault
  | .ok (v, rest) => if (skipBlanks rest).isEmpty then .ok v else .error .malformed

end Workflow.Json
