import Workflow.Number.Layout
import Workflow.Text.Hex
import Workflow.Text.Surrogate
import Workflow.Value

/-!
# Writing JSON

Every JSON text of the library is written by one function. A style says how doubles are laid out,
whether characters outside ASCII are escaped, and what stands between the parts.
-/

namespace Workflow.Json

/-- The choices of one way to write JSON. -/
structure Style where
  /-- How doubles are laid out. -/
  doubles : DoubleLayout
  /-- Whether every character outside the printable part of ASCII is escaped. -/
  ascii : Bool
  /-- What stands between two items. -/
  comma : String
  /-- What stands between a name and its value. -/
  colon : String
  /-- How far each level is indented, if every item is on a line of its own. -/
  indent? : Option Nat

namespace Style

/-- Compact text for fingerprints. -/
def fingerprint : Style := ⟨.trace, true, ",", ":", none⟩

/-- Text on one line for a table cell. -/
def cell : Style := ⟨.trace, true, ", ", ": ", none⟩

/-- Indented text for a printed trace. -/
def listing : Style := ⟨.trace, true, ",", ": ", some 2⟩

/-- Compact text with all characters outside ASCII as they are. -/
def compact : Style := ⟨.saved, false, ",", ":", none⟩

/-- The text of a saved workflow file. -/
def file : Style := ⟨.saved, false, ",", ": ", some 2⟩

end Style

/-- The escape of one unit of UTF-16. -/
def unitEscape (unit : Nat) : List Char :=
  '\\' :: 'u' :: Text.hexDigits 4 unit

/-- The escape of a character: two units if it lies beyond the first 65536. -/
def codeEscape (c : Char) : List Char :=
  let n := c.toNat
  if n < 0x10000 then unitEscape n
  else
    unitEscape (0xd800 + (n - 0x10000) / 0x400) ++ unitEscape (0xdc00 + (n - 0x10000) % 0x400)

/-- A character inside a JSON string. -/
def writeChar (ascii : Bool) (c : Char) : List Char :=
  if c = '"' || c = '\\' then ['\\', c]
  else if c = '\n' then ['\\', 'n']
  else if c = '\r' then ['\\', 'r']
  else if c = '\t' then ['\\', 't']
  else if c = '\x08' then ['\\', 'b']
  else if c = '\x0c' then ['\\', 'f']
  else if c.toNat < 0x20 || (ascii && 0x7e < c.toNat) then codeEscape c
  else [c]

/-- A part of a text inside a JSON string; a surrogate by itself is always escaped. -/
def writePart (ascii : Bool) : Text.Part → List Char
  | .char c => writeChar ascii c
  | .half n => unitEscape (Text.Part.half n).codePoint

/-- A JSON string. -/
def writeString (ascii : Bool) (s : String) : String :=
  Text.ofChars ('"' :: (Text.parts s).flatMap (writePart ascii) ++ ['"'])

namespace Style

/-- The line break before an item at the given depth, if items are on lines of their own. -/
def lineBreak (S : Style) (depth : Nat) : String :=
  match S.indent? with
  | none => ""
  | some width => String.ofList ('\n' :: List.replicate (width * depth) ' ')

/-- The parts of a list or an object between its brackets. -/
def enclose (S : Style) (depth : Nat) (first last : String) (parts : List String) : String :=
  if parts.isEmpty then first ++ last
  else
    first ++ S.lineBreak (depth + 1)
      ++ (S.comma ++ S.lineBreak (depth + 1)).intercalate parts
      ++ S.lineBreak depth ++ last

end Style

mutual

/-- The text of a value that stands at the given depth. -/
def writeAt (S : Style) (depth : Nat) : Value → String
  | .null => "null"
  | .bool b => if b then "true" else "false"
  | .int n => toString n
  | .float x => S.doubles.text x
  | .str s => writeString S.ascii s
  | .list items => S.enclose depth "[" "]" (writeItems S (depth + 1) items)
  | .object members => S.enclose depth "\x7b" "\x7d" (writeMembers S (depth + 1) members)

/-- The texts of the items of a list. -/
def writeItems (S : Style) (depth : Nat) : List Value → List String
  | [] => []
  | v :: vs => writeAt S depth v :: writeItems S depth vs

/-- The texts of the members of an object. -/
def writeMembers (S : Style) (depth : Nat) : List (String × Value) → List String
  | [] => []
  | (name, v) :: rest =>
    (writeString S.ascii name ++ S.colon ++ writeAt S depth v) :: writeMembers S depth rest

end

/-- The JSON text of a value. -/
def write (S : Style) (v : Value) : String :=
  writeAt S 0 v

end Workflow.Json
