/-!
# Issues

What can be wrong with a document that is read as part of a workflow. An issue says where the fault
is and which one it is; the sentence shown for it depends on whether the document came as JSON text.
-/

namespace Workflow

/-- One step into a document. -/
inductive Step where
  | name (s : String)
  | index (n : Int)
deriving DecidableEq

/-- How a document came: as data of a program, or as JSON text. -/
inductive Origin where
  | data
  | json
deriving DecidableEq

/-- What is wrong with a part of a document. -/
inductive Fault where
  | missing
  | notText
  | brokenText
  | notNumber
  | unreadableNumber
  | notInteger
  | unreadableInteger
  | fractionalInteger
  | infiniteInteger
  | oversizedInteger
  | notBoolean
  | unreadableBoolean
  | notList
  | notObject (model : String)
  | notNodeType
  | notPath
  | belowMinimum (minimum : Nat)
  | nameNotText
  /-- A rule that joins several parts is broken; the sentence says which. -/
  | broken (sentence : String)
  /-- The text is not JSON at all. -/
  | notJson
deriving DecidableEq

namespace Fault

/-- The sentence for a fault. -/
def message (origin : Origin) : Fault → String
  | missing => "Field required"
  | notText => "Input should be a valid string"
  | brokenText =>
    "Input should be a valid string, unable to parse raw data as a unicode string"
  | notNumber => "Input should be a valid number"
  | unreadableNumber => "Input should be a valid number, unable to parse string as a number"
  | notInteger => "Input should be a valid integer"
  | unreadableInteger => "Input should be a valid integer, unable to parse string as an integer"
  | fractionalInteger => "Input should be a valid integer, got a number with a fractional part"
  | infiniteInteger => "Input should be a finite number"
  | oversizedInteger => "Unable to parse input string as an integer, exceeded maximum size"
  | notBoolean => "Input should be a valid boolean"
  | unreadableBoolean => "Input should be a valid boolean, unable to interpret input"
  | notList =>
    match origin with
    | .data => "Input should be a valid list"
    | .json => "Input should be a valid array"
  | notObject model =>
    match origin with
    | .data => "Input should be a valid dictionary or instance of " ++ model
    | .json => "Input should be an object"
  | notNodeType => "Input should be 'start', 'transform' or 'end'"
  | notPath => "Input is not a valid path for <class 'pathlib.Path'>"
  | belowMinimum minimum => "Input should be greater than or equal to " ++ toString minimum
  | nameNotText => "Keys should be strings"
  | broken sentence => "Value error, " ++ sentence
  | notJson => "Invalid JSON"

end Fault

/-- A fault and the way to it. -/
structure Issue where
  path : List Step
  fault : Fault
deriving DecidableEq

/-- The issue seen from one step further out. -/
def Issue.within (step : Step) (issue : Issue) : Issue :=
  { issue with path := step :: issue.path }

end Workflow
