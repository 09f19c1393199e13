import Workflow.Text.Markup
import Workflow.Text.Surrogate
import Workflow.View.TraceTable
import Workflow.View.Tree

/-!
# Plain text

Trees and tables as lines without markup, for a terminal without styles.
-/

namespace Workflow

/-- A text of markup as it is written without styles. -/
def plainLine (markup : String) : String :=
  Text.plainMarkup (Text.shown markup)

mutual

/-- The lines of a tree, each level indented by two columns. -/
def Tree.lines (depth : Nat) : Tree → List String
  | .mk label children =>
    (String.ofList (List.replicate (2 * depth) ' ') ++ plainLine label)
      :: linesOf (depth + 1) children

/-- The lines of some trees. -/
def Tree.linesOf (depth : Nat) : List Tree → List String
  | [] => []
  | t :: ts => t.lines depth ++ linesOf depth ts

end

/-- A text with spaces beside it up to a width. -/
def padded (width : Nat) (right : Bool) (s : String) : String :=
  let space := String.ofList (List.replicate (width - s.length) ' ')
  if right then space ++ s else s ++ space

namespace Table

/-- The rows of a table without markup, the first of which are the headers. -/
def plainRows (t : Table) : List (List String) :=
  t.columns.map Column.header :: t.rows.map fun row => row.map plainLine

/-- The widths of the columns of some rows. -/
def widths (rows : List (List String)) : List Nat :=
  rows.foldl (fun found row => merge found (row.map String.length)) []
where
  /-- The greater of two numbers at each place. -/
  merge : List Nat → List Nat → List Nat
    | [], ns => ns
    | ms, [] => ms
    | m :: ms, n :: ns => max m n :: merge ms ns

/-- The lines of a table: its title and its rows. -/
def lines (t : Table) : List String :=
  let rows := t.plainRows
  let sides := t.columns.map fun c => decide (c.justify = "right")
  plainLine t.title :: rows.map fun row =>
    "  ".intercalate ((row.zip ((widths rows).zip sides)).map fun (cell, width, right) =>
      padded width right cell)

end Table

end Workflow
