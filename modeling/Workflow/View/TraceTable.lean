import Workflow.Graph.Basic
import Workflow.Json.Writer
import Workflow.Text.Markup

/-!
# Traces as tables

A trace is shown as a table with a row for every entry. Inputs and outputs are JSON on one line, cut
to the width of their columns.
-/

namespace Workflow

/-- A column of a table. -/
structure Column where
  header : String
  justify : String := "left"
  style : String := ""
  maxWidth : Option Nat := none

/-- A table of cells of markup. -/
structure Table where
  title : String
  columns : List Column
  rows : List (List String)

namespace TraceTable

/-- The width of the columns for values. -/
def valueWidth : Nat := 40

/-- The columns of a trace. -/
def columns : List Column :=
  [{ header := "#", justify := "right", style := "dim" },
    { header := "Node", style := "cyan" },
    { header := "Type", style := "magenta" },
    { header := "Input", maxWidth := some valueWidth },
    { header := "Output", maxWidth := some valueWidth }]

/-- A text cut to a width, with dots in place of what is cut off. -/
def cut (width : Nat) (s : String) : String :=
  if width < s.length then String.ofList (s.toList.take (width - 3)) ++ "..." else s

/-- The cell for a value. -/
def cell (v : Value) : String :=
  cut valueWidth (Text.escapeMarkup (Json.write .cell v))

/-- The row for an entry. -/
def row (number : Nat) (t : TraceEntry) : List String :=
  [toString number, Text.escapeMarkup t.nodeLabel, t.nodeType, cell t.input, cell t.output]

/-- The rows for the entries of a trace, numbered from `start`. -/
def rows (start : Nat) : List TraceEntry → List (List String)
  | [] => []
  | t :: rest => row start t :: rows (start + 1) rest

end TraceTable

/-- The table of a trace under a title. -/
def traceTable (trace : List TraceEntry) (title : String) : Table where
  title := Text.escapeMarkup title
  columns := TraceTable.columns
  rows := TraceTable.rows 1 trace

end Workflow
