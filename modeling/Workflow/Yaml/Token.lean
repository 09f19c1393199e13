import Workflow.Yaml.Scalar
import Workflow.Yaml.Source
import Workflow.Yaml.Tag

/-!
# Tokens

A text becomes a list of tokens in which the layout is explicit: block collections begin and end
with tokens of their own, and a name before a colon is announced by one. As that colon comes only
after the name, the place of every token that may begin a name is remembered while the colon may
still come: on the same line and within 1024 characters. A fault ends the list, for it only matters
if nothing is wrong with the tokens before it.
-/

namespace Workflow.Yaml

/-- A token. -/
inductive Token where
  | documentStart
  | documentEnd
  | blockSequence
  | blockMapping
  | blockEnd
  | flowSequence
  | flowSequenceEnd
  | flowMapping
  | flowMappingEnd
  | blockEntry
  | flowEntry
  | key
  | value
  | alias (name : String)
  | anchor (name : String)
  | scalar (text : String) (style : ScalarStyle)
  /-- A tag with a handle, or one that is written in full. -/
  | tag (handle? : Option String) (suffix : String)
  | directive (d : Directive)
  /-- No more tokens can be made. -/
  | fault (f : Fault)
deriving DecidableEq

/-- A place where a name may begin. -/
structure KeyMark where
  /-- How many tokens stand before it. -/
  index : Nat
  /-- Whether only a name may stand there. -/
  required : Bool
  place : Place

/-- A text that is partly made into tokens. -/
structure Scan where
  cursor : Cursor
  /-- How many flow collections are open. -/
  flow : Nat := 0
  /-- The columns of the open block collections, the innermost first. -/
  indents : List Nat := []
  /-- Whether a name may begin here. -/
  allowsKey : Bool := true
  /-- The places where a name may have begun, one at most for each depth of flow collections. -/
  keys : List (Nat × KeyMark) := []
  /-- The tokens, the newest first. -/
  tokens : List Token := []

namespace Scan

/-- The column of the cursor. -/
def column (s : Scan) : Nat := s.cursor.place.column

/-- Adds a token. -/
def emit (s : Scan) (t : Token) : Scan :=
  { s with tokens := t :: s.tokens }

/-- Adds a token behind the given number of tokens. -/
def insert (s : Scan) (index : Nat) (t : Token) : Scan :=
  let newer := s.tokens.length - index
  { s with tokens := s.tokens.take newer ++ t :: s.tokens.drop newer }

/-- Skips characters. -/
def skip (s : Scan) (n : Nat) : Scan :=
  { s with cursor := s.cursor.skip n }

/-- The margin of a scalar: one column further in than the entries of the block collection. -/
def margin (s : Scan) : Nat :=
  match s.indents with
  | [] => 0
  | column :: _ => column + 1

/-- What is wrong if something else should stand at the cursor. -/
def misplaced (s : Scan) : Fault :=
  misfitAt s.cursor.rest

/-! ### Names -/

/-- Whether a colon after the cursor is too far away from a mark. -/
def isStale (s : Scan) (k : KeyMark) : Bool :=
  k.place.line ≠ s.cursor.place.line || 1024 < s.cursor.place.index - k.place.index

/-- Gives up the marks that are too far away; none of them may be required. -/
def forgetStale (s : Scan) : Except Fault Scan :=
  if s.keys.any fun k => s.isStale k.2 && k.2.required then .error .malformed
  else .ok { s with keys := s.keys.filter fun k => !s.isStale k.2 }

/-- Gives up the mark at the present depth; it may not be required. -/
def forgetKey (s : Scan) : Except Fault Scan :=
  if s.keys.any fun k => k.1 = s.flow && k.2.required then .error .malformed
  else .ok { s with keys := s.keys.filter fun k => k.1 ≠ s.flow }

/-- Marks the place of the cursor as one where a name may begin, if it may. -/
def markKey (s : Scan) : Except Fault Scan :=
  if s.allowsKey then do
    let required := s.flow = 0 && s.indents.head? = some s.column
    let s ← s.forgetKey
    .ok { s with keys := (s.flow, ⟨s.tokens.length, required, s.cursor.place⟩) :: s.keys }
  else .ok s

/-! ### Block collections -/

/--
Ends the block collections that begin to the right of a column, unless a flow collection is open.
-/
def unwind (s : Scan) (column : Nat) : Scan :=
  if s.flow ≠ 0 then s
  else
    let ended := s.indents.takeWhile (column < ·)
    { s with
      indents := s.indents.dropWhile (column < ·)
      tokens := ended.map (fun _ => .blockEnd) ++ s.tokens }

/-- Ends all block collections, unless a flow collection is open. -/
def unwindAll (s : Scan) : Scan :=
  if s.flow ≠ 0 then s
  else { s with indents := [], tokens := s.indents.map (fun _ => .blockEnd) ++ s.tokens }

/--
Begins a block collection at a column behind the given number of tokens, unless one is open there.
-/
def openBlock (s : Scan) (column index : Nat) (t : Token) : Scan :=
  if s.flow ≠ 0 || s.indents.head?.any (column ≤ ·) then s
  else { s with indents := column :: s.indents }.insert index t

/-! ### Tokens -/

/-- The length of the spaces, comments and line breaks before the next token. -/
def gapLength : Bool → List Char → Nat
  | _, [] => 0
  | comment, c :: rest =>
    if isBreak c then gapLength false rest + 1
    else if comment || c = '#' then gapLength true rest + 1
    else if c = ' ' then gapLength false rest + 1
    else 0

/--
Skips what stands before the next token. A name may begin on a new line of a block collection.
-/
def skipGap (s : Scan) : Scan :=
  let s' := s.skip (gapLength false s.cursor.rest)
  if s.flow = 0 && s'.cursor.place.line ≠ s.cursor.place.line then { s' with allowsKey := true }
  else s'

/-- The mark before or after a document. -/
def documentMark (s : Scan) (t : Token) : Except Fault Scan := do
  let s ← s.unwindAll.forgetKey
  .ok ({ s with allowsKey := false }.emit t |>.skip 3)

/-- The bracket that opens a flow collection. -/
def openFlow (s : Scan) (t : Token) : Except Fault Scan := do
  let s ← s.markKey
  .ok ({ s with flow := s.flow + 1, allowsKey := true }.emit t |>.skip 1)

/-- The bracket that closes a flow collection. -/
def closeFlow (s : Scan) (t : Token) : Except Fault Scan :=
  if s.flow = 0 then s.forgetKey.bind fun s => .error (s.skip 1).misplaced
  else do
    let s ← s.forgetKey
    .ok ({ s with flow := s.flow - 1, allowsKey := false }.emit t |>.skip 1)

/-- The comma between two entries of a flow collection. -/
def flowEntry (s : Scan) : Except Fault Scan := do
  let s ← s.forgetKey
  .ok ({ s with allowsKey := true }.emit .flowEntry |>.skip 1)

/-- The dash before an entry of a block sequence. -/
def blockEntry (s : Scan) : Except Fault Scan :=
  if s.flow = 0 && !s.allowsKey then .error .malformed
  else do
    let s ← (s.openBlock s.column s.tokens.length .blockSequence).forgetKey
    .ok ({ s with allowsKey := true }.emit .blockEntry |>.skip 1)

/-- The question mark before a name. -/
def keyMark (s : Scan) : Except Fault Scan :=
  if s.flow = 0 && !s.allowsKey then .error .malformed
  else do
    let s ← (s.openBlock s.column s.tokens.length .blockMapping).forgetKey
    .ok ({ s with allowsKey := s.flow = 0 }.emit .key |>.skip 1)

/-- The colon before a value. If a name may have begun at this depth, it did. -/
def valueMark (s : Scan) : Except Fault Scan :=
  match s.keys.lookup s.flow with
  | some k =>
    let s := { s with keys := s.keys.filter (fun k => k.1 ≠ s.flow), allowsKey := false }
    let s := (s.insert k.index .key).openBlock k.place.column k.index .blockMapping
    .ok (s.emit .value |>.skip 1)
  | none =>
    if s.flow = 0 && !s.allowsKey then .error .malformed
    else
      let s := s.openBlock s.column s.tokens.length .blockMapping
      .ok ({ s with allowsKey := s.flow = 0 }.emit .value |>.skip 1)

/-- A character that may follow the name of an anchor. -/
def endsAnchor : List Char → Bool
  | [] => true
  | c :: _ => isSpace c || isBreak c || ['?', ':', ',', ']', '\x7d', '%', '@', '\x60'].contains c

/-- The name of an anchor after its mark. -/
def anchorMark (s : Scan) (make : String → Token) : Except Fault Scan := do
  let s ← s.markKey
  let name := (s.cursor.rest.drop 1).takeWhile isNameChar
  let s := { s with allowsKey := false }.emit (make (String.ofList name)) |>.skip (name.length + 1)
  if name.isEmpty || !endsAnchor s.cursor.rest then .error s.misplaced else .ok s

/-- A tag. -/
def tagMark (s : Scan) : Except Fault Scan := do
  let s ← s.markKey
  let (handle?, suffix, rest) ← scanTag (s.cursor.rest.drop 1)
  .ok { s.emit (.tag handle? suffix) with allowsKey := false, cursor := s.cursor.skipTo rest }

/-- A directive, with the break that ends its line. -/
def directive (s : Scan) : Except Fault Scan := do
  let s ← s.unwindAll.forgetKey
  let (d, rest) ← scanDirective (s.cursor.rest.drop 1)
  .ok { s.emit (.directive d) with allowsKey := false, cursor := s.cursor.skipTo rest }

/-- A block scalar. -/
def blockScalar (s : Scan) (folded : Bool) : Except Fault Scan := do
  let s ← { s with allowsKey := true }.forgetKey
  let (text, rest) ← scanBlock folded (max 1 s.margin) (s.cursor.rest.drop 1)
  .ok { s.emit (.scalar (Text.ofChars text) .quoted) with cursor := s.cursor.skipTo rest }

/-- A quoted scalar. -/
def quotedScalar (s : Scan) (double : Bool) : Except Fault Scan := do
  let s ← s.markKey
  let (text, rest) ← scanQuoted double s.cursor.rest.length [] (s.cursor.rest.drop 1)
  .ok { s.emit (.scalar text .quoted) with allowsKey := false, cursor := s.cursor.skipTo rest }

/-- A plain scalar. -/
def plainScalar (s : Scan) : Except Fault Scan := do
  let s ← s.markKey
  let found := scanPlain (s.flow ≠ 0) s.margin s.cursor.rest.length [] ⟨[], s.cursor.rest, false⟩
    s.cursor
  .ok { s.emit (.scalar (Text.ofChars found.text) .plain) with
    allowsKey := found.broken, cursor := found.cursor }

/-- The characters with which no plain scalar begins, but for three of them before other text. -/
def indicators : List Char :=
  ['-', '?', ':', ',', '[', ']', '\x7b', '\x7d', '#', '&', '*', '!', '|', '>', '\'', '"', '%', '@',
    '\x60']

/-- Whether a plain scalar may begin with a character before the given rest. -/
def startsPlain (flow : Bool) (c : Char) (rest : List Char) : Bool :=
  !(isSpace c || isBreak c || indicators.contains c)
    || (!endsWord rest && (c = '-' || (!flow && (c = '?' || c = ':'))))

/-- Makes the next token, which begins with the given character. -/
def next (s : Scan) (c : Char) (rest : List Char) : Except Fault Scan :=
  let flow := s.flow ≠ 0
  let separator := s.column = 0 && atSeparator (c :: rest)
  if c = '%' && s.column = 0 then s.directive
  else if c = '-' && separator then s.documentMark .documentStart
  else if c = '.' && separator then s.documentMark .documentEnd
  else if c = '[' then s.openFlow .flowSequence
  else if c = '\x7b' then s.openFlow .flowMapping
  else if c = ']' then s.closeFlow .flowSequenceEnd
  else if c = '\x7d' then s.closeFlow .flowMappingEnd
  else if c = ',' then s.flowEntry
  else if c = '-' && endsWord rest then s.blockEntry
  else if c = '?' && (flow || endsWord rest) then s.keyMark
  else if c = ':' && (flow || endsWord rest) then s.valueMark
  else if c = '*' then s.anchorMark .alias
  else if c = '&' then s.anchorMark .anchor
  else if c = '!' then s.tagMark
  else if c = '|' && !flow then s.blockScalar false
  else if c = '>' && !flow then s.blockScalar true
  else if c = '\'' then s.quotedScalar false
  else if c = '"' then s.quotedScalar true
  else if startsPlain flow c rest then s.plainScalar
  else .error .malformed

/--
The tokens before a fault. Those from the first on that may still turn out to be a name are not
there yet.
-/
def stop (s : Scan) (keys : List (Nat × KeyMark)) (f : Fault) : List Token :=
  let ready := keys.foldl (fun n k => min n k.2.index) s.tokens.length
  s.tokens.reverse.take ready ++ [.fault f]

/-- The places where a name may have begun if a scalar begins here. -/
def keysAtScalar (s : Scan) : List (Nat × KeyMark) :=
  match s.markKey with
  | .ok s => s.keys
  | .error _ => s.keys

/-- Makes all tokens up to a wall, if there is one; `fuel` bounds their number. -/
def run (wall? : Option Fault) : Nat → Scan → List Token
  | 0, s => s.stop s.keys .malformed
  | fuel + 1, s =>
    let atWall (s : Scan) := if s.cursor.rest.isEmpty then wall? else none
    match atWall s.skipGap, s.skipGap.forgetStale with
    | some wall, _ => s.stop s.keys wall
    | none, .error f => s.stop s.keys f
    | none, .ok gap =>
      let here := gap.unwind gap.column
      match here.cursor.rest with
      | [] =>
        match here.unwindAll.forgetKey with
        | .ok last => last.tokens.reverse
        | .error f => s.stop s.keys f
      | c :: rest =>
        match here.next c rest with
        | .error .cutShort => s.stop here.keysAtScalar (wall?.getD .malformed)
        | .error f => s.stop here.keysAtScalar f
        | .ok after =>
          match atWall after with
          | some wall => s.stop here.keysAtScalar wall
          | none => run wall? fuel after

end Scan

/-- The tokens of a source. A byte order mark at its start is none. -/
def Source.tokens (source : Source) : List Token :=
  let cs := dropMark source.chars
  Scan.run source.wall? (cs.length + 1) { cursor := ⟨cs, {}⟩ }

end Workflow.Yaml
