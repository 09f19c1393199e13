import Workflow.Number.Literal
import Workflow.Text.Hex
import Workflow.Yaml.Basic

/-!
# Tags and directives

A tag before a node says what the node stands for. It is written with a handle, which a directive at
the start of a document may have made short for something longer, or else in full. This module holds
the standard tags, and how tags and directives are written.
-/

namespace Workflow.Yaml

/-- What a tag stands for. -/
inductive Tag where
  | null
  | bool
  | int
  | float
  | binary
  | timestamp
  | str
  /-- A sequence of pairs. -/
  | omap
  | pairs
  /-- The names of a mapping. -/
  | set
  | seq
  | map
  /-- The name by which a mapping takes over another one. -/
  | merge
  /-- The name of a mapping's default. -/
  | default
  /-- No standard tag. -/
  | other
deriving DecidableEq

namespace Tag

/-- What all standard tags begin with. -/
def standardPrefix : String := "tag:yaml.org,2002:"

/-- The standard tags by their names. -/
def names : List (String × Tag) :=
  [("null", null), ("bool", bool), ("int", int), ("float", float), ("binary", binary),
    ("timestamp", timestamp), ("str", str), ("omap", omap), ("pairs", pairs), ("set", set),
    ("seq", seq), ("map", map), ("merge", merge), ("value", default)]

/-- The tag of the given text. -/
def ofText (s : String) : Tag :=
  if standardPrefix.toList.isPrefixOf s.toList then
    (names.lookup (String.ofList (s.toList.drop standardPrefix.length))).getD other
  else other

/-- Whether the value of a tag is made of a text. -/
def isScalar : Tag → Bool
  | null | bool | int | float | binary | timestamp | str => true
  | _ => false

/-- Whether the value of a tag is made of other values. -/
def isCollection : Tag → Bool
  | omap | pairs | set | seq | map => true
  | _ => false

end Tag

/-- A line at the start of a document. -/
inductive Directive where
  /-- The version of the format, of which the first number matters. -/
  | version (major : Nat)
  /-- What a handle is short for. -/
  | handle (name start : String)
  | other
deriving DecidableEq

/-- What the handles are short for that need no directive. -/
def standardHandles : List (String × String) :=
  [("!", "!"), ("!!", Tag.standardPrefix)]

/-! ### Tags in a text -/

/-- A character of the name of a handle, of a directive or of an anchor. -/
def isNameChar (c : Char) : Bool :=
  c.isAlphanum || c = '-' || c = '_'

/-- A character of a tag that stands for itself. -/
def isTagChar (c : Char) : Bool :=
  c.isAlphanum || "-;/?:@&=+$,_.!~*'()[]".toList.contains c

/-- Whether a text is at its end or goes on with a space or a line break. -/
def endsTag : List Char → Bool
  | [] => true
  | c :: _ => c = ' ' || isBreak c

/-- The handle after its first mark, and what follows it. -/
def scanHandle (cs : List Char) : Except Fault (String × List Char) :=
  if cs.head? = some ' ' then .ok ("!", cs)
  else
    let name := cs.takeWhile isNameChar
    match cs.drop name.length with
    | '!' :: rest => .ok (String.ofList ('!' :: name ++ ['!']), rest)
    | rest => .error (misfitAt rest)

/-- The bytes that escapes stand for, and what follows them. -/
def scanEscapes : List Char → Except Fault (List UInt8 × List Char)
  | '%' :: c :: d :: rest =>
    match Text.hexValue? c, Text.hexValue? d with
    | some high, some low =>
      (scanEscapes rest).map fun (bytes, rest) => (UInt8.ofNat (16 * high + low) :: bytes, rest)
    | _, _ => .error .malformed
  | '%' :: rest => .error (if rest.all fun c => (Text.hexValue? c).isSome then .cutShort
      else .malformed)
  | cs => .ok ([], cs)

/-- The text of a tag, and what follows it; `fuel` bounds the number of its parts. -/
def scanTagText : Nat → List Char → Except Fault (List Char × List Char)
  | 0, cs => .ok ([], cs)
  | _, [] => .ok ([], [])
  | fuel + 1, c :: rest =>
    if c = '%' then do
      let (bytes, rest) ← scanEscapes (c :: rest)
      let text ← (Text.decodeUtf8 ⟨bytes.toArray⟩).mapError fun _ => .malformed
      (scanTagText fuel rest).map fun (more, rest) => (text.toList ++ more, rest)
    else if isTagChar c then (scanTagText fuel rest).map fun (more, rest) => (c :: more, rest)
    else .ok ([], c :: rest)

/-- The text of a tag, which is not empty, and what follows it. -/
def scanSuffix (cs : List Char) : Except Fault (String × List Char) := do
  let (text, rest) ← scanTagText cs.length cs
  if text.isEmpty then .error (misfitAt rest) else .ok (String.ofList text, rest)

/-- A tag that has come to its end, if it may end there. -/
def endTag (handle? : Option String) (found : String × List Char) :
    Except Fault (Option String × String × List Char) :=
  if endsTag found.2 then .ok (handle?, found) else .error (misfitAt found.2)

/-- A tag after its mark: its handle, if it has one, its text, and what follows it. -/
def scanTag (cs : List Char) : Except Fault (Option String × String × List Char) :=
  match cs with
  | '<' :: inside => do
    let (suffix, rest) ← scanSuffix inside
    match rest with
    | '>' :: rest => endTag none (suffix, rest)
    | _ => .error (misfitAt rest)
  | _ =>
    let word := cs.takeWhile fun c => c ≠ ' ' && !isBreak c
    if endsWord cs then endTag none ("!", cs)
    else if word.contains '!' then do
      let (handle, rest) ← scanHandle cs
      endTag (some handle) (← scanSuffix rest)
    else
      -- a second mark has been looked for up to the end of the word, perhaps that of the text
      let found := (scanSuffix cs).bind (endTag (some "!"))
      if word.length = cs.length then found.mapError fun _ => .cutShort else found

/-! ### Directives in a text -/

/-- Skips spaces. -/
def skipSpaces (cs : List Char) : List Char :=
  cs.dropWhile (· = ' ')

/-- The number of digits that come next, and what follows them. -/
def scanNumber (cs : List Char) : Except Fault (Nat × List Char) :=
  match Literal.digitRun Text.asciiDigitValue? cs with
  | ([], rest) => .error (misfitAt rest)
  | (digits, rest) =>
    if Literal.maxIntegerDigits < digits.length then .error (.longInteger digits.length)
    else .ok (Text.digitsValue digits, rest)

/-- The version of the format, and what follows it. -/
def scanVersion (cs : List Char) : Except Fault (Directive × List Char) := do
  let (major, rest) ← scanNumber (skipSpaces cs)
  match rest with
  | '.' :: rest =>
    let (_, rest) ← scanNumber rest
    if endsTag rest then .ok (.version major, rest) else .error .malformed
  | _ => .error (misfitAt rest)

/-- What a handle is short for, and what follows it. -/
def scanShorthand (cs : List Char) : Except Fault (Directive × List Char) :=
  match skipSpaces cs with
  | '!' :: rest => do
    let (name, rest) ← scanHandle rest
    if rest.head? = some ' ' then
      let (start, rest) ← scanSuffix (skipSpaces rest)
      if endsTag rest then .ok (.handle name start, rest) else .error .malformed
    else .error (misfitAt rest)
  | rest => .error (misfitAt rest)

/-- A directive after its mark, and what follows its line. -/
def scanDirective (cs : List Char) : Except Fault (Directive × List Char) := do
  let name := cs.takeWhile isNameChar
  let rest := cs.drop name.length
  if name.isEmpty || !endsTag rest then .error (misfitAt rest)
  else
    let (d, rest) ←
      match String.ofList name with
      | "YAML" => scanVersion rest
      | "TAG" => scanShorthand rest
      | _ => .ok (.other, rest.dropWhile (!isBreak ·))
    let comment := skipSpaces rest
    match if comment.head? = some '#' then comment.dropWhile (!isBreak ·) else comment with
    | [] => .ok (d, [])
    | c :: rest => if isBreak c then .ok (d, rest) else .error .malformed

end Workflow.Yaml
