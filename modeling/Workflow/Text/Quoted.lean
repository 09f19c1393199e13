import Workflow.Text.Hex
import Workflow.Text.Printable
import Workflow.Text.Surrogate

/-!
# Quoted texts

A text inside a message or a listing stands between quotes: single ones, unless it holds a single
quote and no double one. The quote in use and the backslash are escaped, and so is every character
that cannot be printed.
-/

namespace Workflow.Text

/-- The quote around a text. -/
def quoteMark (cs : List Char) : Char :=
  if cs.contains '\'' && !cs.contains '"' then '"' else '\''

/-- A character between quotes. -/
def quotedChar (mark c : Char) : List Char :=
  if c = mark || c = '\\' then ['\\', c]
  else if c = '\n' then ['\\', 'n']
  else if c = '\r' then ['\\', 'r']
  else if c = '\t' then ['\\', 't']
  else if isPrintable c then [c]
  else
    let n := c.toNat
    if n ≤ 0xff then '\\' :: 'x' :: hexDigits 2 n
    else if n ≤ 0xffff then '\\' :: 'u' :: hexDigits 4 n
    else '\\' :: 'U' :: hexDigits 8 n

/-- A part of a text between quotes; a surrogate by itself cannot be printed. -/
def quotedPart (mark : Char) : Part → List Char
  | .char c => quotedChar mark c
  | .half n => '\\' :: 'u' :: hexDigits 4 (Part.half n).codePoint

/-- A text with its quotes. -/
def quoted (s : String) : String :=
  let mark := quoteMark s.toList
  ofChars (mark :: (parts s).flatMap (quotedPart mark) ++ [mark])

/-- A byte between quotes: a character of ASCII, or its code. -/
def quotedByte (mark : Char) (byte : UInt8) : List Char :=
  if byte < 0x7f then quotedChar mark (Char.ofNat byte.toNat)
  else '\\' :: 'x' :: hexDigits 2 byte.toNat

/-- Bytes with their quotes. -/
def quotedBytes (bytes : List UInt8) : String :=
  let mark := quoteMark (bytes.map fun byte => Char.ofNat byte.toNat)
  String.ofList ('b' :: mark :: bytes.flatMap (quotedByte mark) ++ [mark])

/-- A list of quoted texts between square brackets. -/
def quotedList (texts : List String) : String :=
  "[" ++ ", ".intercalate (texts.map quoted) ++ "]"

end Workflow.Text
