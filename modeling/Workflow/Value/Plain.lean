import Workflow.Number.Layout
import Workflow.Text.Quoted
import Workflow.Value

/-!
# Values inside sentences

How a value is named in a message or appended to a text. A text stands for itself; inside a list or
an object it is quoted.
-/

namespace Workflow.Value

mutual

/-- A value as it is listed: texts are quoted. -/
def listed : Value → String
  | null => "None"
  | bool b => if b then "True" else "False"
  | int n => toString n
  | float x => DoubleLayout.plain.text x
  | str s => Text.quoted s
  | list items => "[" ++ ", ".intercalate (listedItems items) ++ "]"
  | object members => "\x7b" ++ ", ".intercalate (listedMembers members) ++ "\x7d"

/-- The items of a list as they are listed. -/
def listedItems : List Value → List String
  | [] => []
  | v :: vs => listed v :: listedItems vs

/-- The members of an object as they are listed. -/
def listedMembers : List (String × Value) → List String
  | [] => []
  | (name, v) :: rest => (Text.quoted name ++ ": " ++ listed v) :: listedMembers rest

end

/-- A value as it stands in a sentence: a text is not quoted. -/
def plain : Value → String
  | str s => s
  | v => listed v

end Workflow.Value
