import Workflow.Text.Quoted
import Workflow.Text.Utf8

/-!
# YAML texts

A workflow or a configuration may be written in YAML 1.1: block and flow collections, plain, quoted
and block scalars, comments, anchors and aliases, directives, and the standard tags, but no others.
This module holds what can be wrong with a text, the characters that matter, and places in a text.
-/

namespace Workflow.Yaml

/-- What is wrong with a text. -/
inductive Fault where
  /-- The text breaks the rules of the format. -/
  | malformed
  /-- The text ends within a quoted scalar or a tag. -/
  | cutShort
  /-- The bytes of the text are no characters. -/
  | undecodable (e : Text.Utf8Error)
  /-- Collections are nested too deep. -/
  | tooDeep
  /-- An integer has more digits than are converted. -/
  | longInteger (digits : Nat)
  /-- A text that should be an integer to the given base is none. -/
  | noInteger (base : Nat) (text : String)
  /-- A text that should be a double is none. -/
  | noDouble (text : String)
  /-- A text that should be a number has nothing behind its sign, or is empty. -/
  | noNumber
  /-- A text that should be a boolean is none of the words for one. -/
  | noBoolean (word : String)
  /-- A text that should be a date is none. -/
  | noDate
  /-- A mapping should be a date. -/
  | mappedDate
  /-- A double to the base of 60 has so many parts that their weight is beyond all doubles. -/
  | heavyDouble
  /-- A part of a date or a time does not lie between its bounds. -/
  | outOfRange (part : String) (low high : Nat)
  | noSuchYear (year : Nat)
  | noSuchDay
  /-- A time zone is a day or more away from universal time. -/
  | farZone (seconds : Int)
  /-- An escape stands for no character. -/
  | noCharacter
  /-- The number in an escape does not even fit into a machine's integer. -/
  | wideCharacter
deriving DecidableEq

/-- Whether the rules of the format are broken, and not those for what is made of a text. -/
def Fault.isSyntax : Fault → Bool
  | malformed | cutShort => true
  | _ => false

/-- A span of time as it is listed: whole days, which may be negative, and seconds after them. -/
def spanText (seconds : Int) : String :=
  let part (name : String) (n : Int) := if n = 0 then [] else [name ++ "=" ++ toString n]
  let parts := part "days" (Int.fdiv seconds 86400) ++ part "seconds" (Int.fmod seconds 86400)
  "datetime.timedelta(" ++ (if parts.isEmpty then "0" else ", ".intercalate parts) ++ ")"

/-- The sentence for a fault. -/
def Fault.message : Fault → String
  | malformed | cutShort => "malformed text"
  | undecodable e => e.message
  | tooDeep => "maximum recursion depth exceeded"
  | longInteger digits =>
    "Exceeds the limit (4300 digits) for integer string conversion: value has " ++ toString digits
      ++ " digits; use sys.set_int_max_str_digits() to increase the limit"
  | noInteger base text =>
    let shown := (Text.quoted text).toList.take 200
    "invalid literal for int() with base " ++ toString base ++ ": " ++ String.ofList shown
  | noDouble text => "could not convert string to float: " ++ Text.quoted text
  | noNumber => "string index out of range"
  | noBoolean word => Text.quoted word
  | noDate => "'NoneType' object has no attribute 'groupdict'"
  | mappedDate => "expected string or bytes-like object, got 'list'"
  | heavyDouble => "int too large to convert to float"
  | outOfRange part low high =>
    part ++ " must be in " ++ toString low ++ ".." ++ toString high
  | noSuchYear year => "year " ++ toString year ++ " is out of range"
  | noSuchDay => "day is out of range for month"
  | farZone seconds =>
    "offset must be a timedelta strictly between -timedelta(hours=24) and timedelta(hours=24), not "
      ++ spanText seconds ++ "."
  | noCharacter => "chr() arg not in range(0x110000)"
  | wideCharacter => "Python int too large to convert to C int"

/-! ### Characters -/

/-- A character that ends a line. -/
def isBreak (c : Char) : Bool :=
  c = '\n' || c = '\x85' || c = '\u2028' || c = '\u2029'

/-- What a line break stands for inside a scalar. -/
def breakText (c : Char) : Char :=
  if c = '\x85' then '\n' else c

/-- A space or a tab. -/
def isSpace (c : Char) : Bool :=
  c = ' ' || c = '\t'

/-- What is wrong where something else should stand: at the end of a text it may come. -/
def misfitAt (rest : List Char) : Fault :=
  if rest.isEmpty then .cutShort else .malformed

/-- Whether a text is at its end or goes on with a space, a tab or a line break. -/
def endsWord : List Char → Bool
  | [] => true
  | c :: _ => isSpace c || isBreak c

/-- Whether the mark between two documents or the one after a document comes next. -/
def atSeparator : List Char → Bool
  | '-' :: '-' :: '-' :: rest | '.' :: '.' :: '.' :: rest => endsWord rest
  | _ => false

/-- A character that a text may hold. -/
def isAllowed (c : Char) : Bool :=
  let n := c.toNat
  n = 0x09 || n = 0x0a || n = 0x0d || (0x20 ≤ n && n ≤ 0x7e) || n = 0x85 ||
    (0xa0 ≤ n && n ≤ 0xd7ff) || (0xe000 ≤ n && n ≤ 0xfffd) || 0x10000 ≤ n

/-- Drops the byte order mark at the start of a text. -/
def dropMark : List Char → List Char
  | '\ufeff' :: rest => rest
  | cs => cs

/-- The text that several line breaks leave: the first alone is a space, and more lose the first. -/
def foldBreaks (first : Char) (more : List Char) : List Char :=
  if breakText first ≠ '\n' then first :: more
  else if more.isEmpty then [' ']
  else more

/-! ### Places -/

/-- A place in a text. -/
structure Place where
  index : Nat := 0
  line : Nat := 0
  column : Nat := 0

/-- The place after a character. A byte order mark takes no column. -/
def Place.after (p : Place) (c : Char) : Place :=
  if isBreak c then ⟨p.index + 1, p.line + 1, 0⟩
  else if c = '\ufeff' then { p with index := p.index + 1 }
  else { p with index := p.index + 1, column := p.column + 1 }

/-- What is left of a text, with its place. -/
structure Cursor where
  rest : List Char
  place : Place := {}

/-- Skips characters. -/
def Cursor.skip (c : Cursor) (n : Nat) : Cursor :=
  ⟨c.rest.drop n, (c.rest.take n).foldl Place.after c.place⟩

/-- Skips all but the given rest. -/
def Cursor.skipTo (c : Cursor) (rest : List Char) : Cursor :=
  c.skip (c.rest.length - rest.length)

end Workflow.Yaml
