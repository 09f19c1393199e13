import Workflow.Text.Hex
import Workflow.Text.Surrogate
import Workflow.Yaml.Basic

/-!
# Scalars

The texts of the four kinds of scalar: plain ones, which end where an indicator stands, the two
quoted kinds, and block scalars, which keep or fold their lines.
-/

namespace Workflow.Yaml

/-- How a scalar was written, as far as its meaning depends on it. -/
inductive ScalarStyle where
  | plain
  | quoted
deriving DecidableEq

/-! ### Plain scalars -/

/-- A character that ends a plain scalar in a flow collection. -/
def endsFlowScalar (c : Char) : Bool :=
  c = ',' || c = '?' || c = '[' || c = ']' || c = '\x7b' || c = '\x7d'

/-- Whether a colon before the given rest separates a name from a value. -/
def separates (flow : Bool) (rest : List Char) : Bool :=
  endsWord rest ||
    (flow && rest.head?.any fun c => c ≠ '?' && endsFlowScalar c)

/-- The length of the part of a plain scalar up to the next space. -/
def plainLength (flow : Bool) : List Char → Nat
  | [] => 0
  | c :: rest =>
    if isSpace c || isBreak c || (c = ':' && separates flow rest) || (flow && endsFlowScalar c) then
      0
    else plainLength flow rest + 1

/-- What stands between two parts of a scalar. -/
structure Gap where
  /-- What the gap contributes to the scalar if it goes on; nothing at its end. -/
  text : List Char := []
  rest : List Char
  /-- Whether a line ended in the gap. -/
  broken : Bool := false

/-- Skips spaces and further line breaks. None is left of them before a document mark. -/
def blankLines : List Char → Option (List Char) × List Char
  | [] => (some [], [])
  | c :: rest =>
    if c = ' ' then blankLines rest
    else if isBreak c then
      if atSeparator rest then (none, rest)
      else
        let (breaks?, rest) := blankLines rest
        (breaks?.map (breakText c :: ·), rest)
    else (some [], c :: rest)

/-- The gap after a part of a plain scalar. -/
def plainGap (cs : List Char) : Gap :=
  let spaces := cs.takeWhile (· = ' ')
  match cs.dropWhile (· = ' ') with
  | [] => ⟨spaces, [], false⟩
  | c :: rest =>
    if !isBreak c then ⟨spaces, c :: rest, false⟩
    else if atSeparator rest then ⟨[], rest, true⟩
    else
      match blankLines rest with
      | (none, rest) => ⟨[], rest, true⟩
      | (some breaks, rest) => ⟨foldBreaks c breaks, rest, true⟩

/-- A plain scalar: its text, where it ends, and whether a line ended after its last part. -/
structure PlainScan where
  text : List Char
  cursor : Cursor
  broken : Bool

/--
Reads a plain scalar up to a comment, an indicator or, in a block collection, a line that is
indented less. The gap is the one before the next part; `fuel` bounds the number of parts.
-/
def scanPlain (flow : Bool) (indent : Nat) : Nat → List Char → Gap → Cursor → PlainScan
  | 0, text, gap, cursor => ⟨text, cursor, gap.broken⟩
  | fuel + 1, text, gap, cursor =>
    let length := plainLength flow cursor.rest
    if cursor.rest.head? = some '#' || length = 0 then ⟨text, cursor, gap.broken⟩
    else
      let text := text ++ gap.text ++ cursor.rest.take length
      let gap := plainGap (cursor.rest.drop length)
      let cursor := cursor.skipTo gap.rest
      if gap.text.isEmpty || (!flow && cursor.place.column < indent) then
        ⟨text, cursor, gap.broken⟩
      else scanPlain flow indent fuel text gap cursor

/-! ### Quoted scalars -/

/-- Skips spaces and line breaks inside a quoted scalar; a document mark may not begin a line. -/
def quotedBreaks (lineStart : Bool) : List Char → Except Fault (List Char × List Char)
  | [] => .ok ([], [])
  | c :: rest =>
    if lineStart && atSeparator (c :: rest) then .error .malformed
    else if isSpace c then quotedBreaks false rest
    else if isBreak c then do
      let (breaks, rest) ← quotedBreaks true rest
      .ok (breakText c :: breaks, rest)
    else .ok ([], c :: rest)

/-- The spaces or the line breaks that come next inside a quoted scalar, and what follows them. -/
def quotedGap (cs : List Char) : Except Fault (List Char × List Char) :=
  match cs.dropWhile isSpace with
  | [] => .error .cutShort
  | c :: rest =>
    if isBreak c then do
      let (breaks, rest) ← quotedBreaks true rest
      .ok (foldBreaks c breaks, rest)
    else .ok (cs.takeWhile isSpace, c :: rest)

/-- What a single character after a backslash stands for. -/
def escaped? (c : Char) : Option Char :=
  [('0', '\x00'), ('a', '\x07'), ('b', '\x08'), ('t', '\t'), ('\t', '\t'), ('n', '\n'),
    ('v', '\x0b'), ('f', '\x0c'), ('r', '\r'), ('e', '\x1b'), (' ', ' '), ('"', '"'), ('\\', '\\'),
    ('/', '/'), ('N', '\x85'), ('_', '\xa0'), ('L', '\u2028'), ('P', '\u2029')].lookup c

/-- How many hexadecimal digits follow a character after a backslash. -/
def escapeWidth? (c : Char) : Option Nat :=
  [('x', 2), ('u', 4), ('U', 8)].lookup c

/-- The character of a code point, or a surrogate by itself. -/
def character? (n : Nat) : Except Fault Text.Part :=
  if 0x80000000 ≤ n then .error .wideCharacter
  else if 0x110000 ≤ n then .error .noCharacter
  else .ok (.ofCodePoint n)

/-- What an escape after its backslash stands for, and what follows it. -/
def readEscape (cs : List Char) : Except Fault (List Text.Part × List Char) :=
  match cs with
  | [] => .error .cutShort
  | c :: rest =>
    match escaped? c, escapeWidth? c with
    | some d, _ => .ok ([.char d], rest)
    | none, some width =>
      match Text.hexNumber? (rest.take width) with
      | some n =>
        if rest.length < width then .error .cutShort
        else (character? n).map fun found => ([found], rest.drop width)
      | none => .error .malformed
    | none, none =>
      if isBreak c then (quotedBreaks true rest).map fun (breaks, rest) => (breaks.map .char, rest)
      else .error .malformed

/--
Reads a quoted scalar after its first mark up to its last. The parts of its text are collected, the
newest first; `fuel` bounds their number.
-/
def scanQuoted (double : Bool) :
    Nat → List Text.Part → List Char → Except Fault (String × List Char)
  | 0, _, _ | _, _, [] => .error .cutShort
  | fuel + 1, found, c :: rest =>
    if isSpace c || isBreak c then do
      let (text, rest) ← quotedGap (c :: rest)
      scanQuoted double fuel ((text.map .char).reverse ++ found) rest
    else if double && c = '\\' then do
      let (text, rest) ← readEscape rest
      scanQuoted double fuel (text.reverse ++ found) rest
    else if double && c = '"' then .ok (Text.ofParts found.reverse, rest)
    else if !double && c = '\'' then
      match rest with
      | '\'' :: rest => scanQuoted double fuel (.char '\'' :: found) rest
      | _ => .ok (Text.ofParts found.reverse, rest)
    else scanQuoted double fuel (.char c :: found) rest

/-! ### Block scalars -/

/-- What becomes of the line breaks at the end of a block scalar. -/
inductive Chomping where
  | strip
  | clip
  | keep
deriving DecidableEq

/-- The chomping that a sign asks for. -/
def Chomping.ofSign? (c : Char) : Option Chomping :=
  if c = '+' then some .keep else if c = '-' then some .strip else none

/-- The indentation that a digit asks for; it is not zero. -/
def indentation? (c : Char) : Option Nat :=
  if '1' ≤ c ∧ c ≤ '9' then some (c.toNat - '0'.toNat) else none

/-- The signs after the mark of a block scalar, in either order. -/
def blockHeader (cs : List Char) : Except Fault (Chomping × Option Nat × List Char) :=
  let (chomping?, rest) := take Chomping.ofSign? cs
  let (indent?, rest) := take indentation? rest
  let (chomping?, rest) :=
    match chomping? with
    | some _ => (chomping?, rest)
    | none => take Chomping.ofSign? rest
  let comment := rest.dropWhile (· = ' ')
  let line := if comment.head? = some '#' then comment.dropWhile (!isBreak ·) else comment
  if rest.head? = some '#' then .error .malformed
  else
    match line with
    | [] => .ok (chomping?.getD .clip, indent?, [])
    | c :: rest =>
      if isBreak c then .ok (chomping?.getD .clip, indent?, rest) else .error .malformed
where
  /-- Takes a character that reads as something. -/
  take {α : Type} (read : Char → Option α) : List Char → Option α × List Char
    | [] => (none, [])
    | c :: rest =>
      match read c with
      | some a => (some a, rest)
      | none => (none, c :: rest)

/-- The widest of the blank lines and spaces that come next. -/
def blockMargin : Nat → List Char → Nat
  | _, [] => 0
  | column, c :: rest =>
    if c = ' ' then max (column + 1) (blockMargin (column + 1) rest)
    else if isBreak c then blockMargin 0 rest
    else 0

/-- Skips blank lines and the indentation after them: the breaks, the rest and its column. -/
def blockBreaks (indent : Nat) : Nat → List Char → List Char × List Char × Nat
  | column, [] => ([], [], column)
  | column, c :: rest =>
    if c = ' ' && column < indent then blockBreaks indent (column + 1) rest
    else if isBreak c then
      let (breaks, rest, column) := blockBreaks indent 0 rest
      (breakText c :: breaks, rest, column)
    else ([], c :: rest, column)

/-- Whether a line begins with a space or a tab, or is none. -/
def isIndented : List Char → Bool
  | [] => true
  | c :: _ => isSpace c

/--
Reads the lines of a block scalar, each after its indentation. `breaks` are the blank lines before
the first; `fuel` bounds the number of lines.
-/
def blockLines (folded : Bool) (chomping : Chomping) (indent : Nat) :
    Nat → List Char → List Char → List Char → List Char × List Char
  | 0, text, _, cs => (text, cs)
  | fuel + 1, text, breaks, cs =>
    let line := cs.takeWhile (!isBreak ·)
    let ending := (cs.dropWhile (!isBreak ·)).take 1 |>.map breakText
    let text := text ++ breaks ++ line
    let (more, rest, column) := blockBreaks indent 0 (cs.dropWhile (!isBreak ·) |>.drop 1)
    if column = indent && !rest.isEmpty then
      let joint :=
        if folded && ending = ['\n'] && !isIndented cs && !isIndented rest then
          if more.isEmpty then [' '] else []
        else ending
      blockLines folded chomping indent fuel (text ++ joint) more rest
    else
      (match chomping with
        | .strip => text
        | .clip => text ++ ending
        | .keep => text ++ ending ++ more, rest)

/-- Reads a block scalar after its mark, in a collection whose entries have the given margin. -/
def scanBlock (folded : Bool) (margin : Nat) (cs : List Char) :
    Except Fault (List Char × List Char) := do
  let (chomping, indent?, rest) ← blockHeader cs
  let indent :=
    match indent? with
    | some n => margin + n - 1
    | none => max margin (blockMargin 0 rest)
  let (breaks, rest, column) := blockBreaks indent 0 rest
  if column = indent && !rest.isEmpty then
    .ok (blockLines folded chomping indent cs.length [] breaks rest)
  else .ok (if chomping = .keep then breaks else [], rest)

end Workflow.Yaml
