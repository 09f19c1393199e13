import Workflow.Text.CaseTable

/-!
# Upper and lower case

The full case mappings of Unicode: a character may become several, and a capital sigma at the end
of a word has a lower case of its own.
-/

namespace Workflow.Text

namespace CaseRun

/-- Whether a code point is one of the run. -/
def covers (run : CaseRun) (n : Nat) : Bool :=
  run.first ≤ n && n ≤ run.last && (n - run.first) % run.step = 0

/-- The code point that a member of the run maps to. -/
def image (run : CaseRun) (n : Nat) : Char :=
  Char.ofNat (n + run.distance).toNat

end CaseRun

/-- The image of a character under a mapping given by expansions and runs. -/
def mapCase (expansions : List (Nat × List Nat)) (runs : List CaseRun) (c : Char) : List Char :=
  match expansions.lookup c.toNat with
  | some codes => codes.map Char.ofNat
  | none =>
    match runs.find? (·.covers c.toNat) with
    | some run => [run.image c.toNat]
    | none => [c]

/-- The upper case of a character. -/
def upperChar (c : Char) : List Char :=
  if c.toNat < 0x80 then [c.toUpper] else mapCase upperExpansions upperRuns c

/-- The lower case of a character that stands alone. -/
def lowerChar (c : Char) : List Char :=
  if c.toNat < 0x80 then [c.toLower] else mapCase lowerExpansions lowerRuns c

/-- The upper case of a text. -/
def upper (s : String) : String :=
  String.ofList (s.toList.flatMap upperChar)

/-- Whether the first character that is not to be skipped is cased. -/
def meetsCased (cs : List Char) : Bool :=
  match cs.dropWhile (fun c => within caseIgnorableBoundaries c.toNat) with
  | [] => false
  | c :: _ => within casedBoundaries c.toNat

/--
The lower case of a text whose earlier characters are given last to first. A capital sigma is final
if a letter comes before it and none after it.
-/
def lowerAfter (before : List Char) : List Char → List Char
  | [] => []
  | c :: rest =>
    let image :=
      if c = 'Σ' then
        if meetsCased before && !meetsCased rest then ['ς'] else ['σ']
      else lowerChar c
    image ++ lowerAfter (c :: before) rest

/-- The lower case of a text. -/
def lower (s : String) : String :=
  String.ofList (lowerAfter [] s.toList)

end Workflow.Text
