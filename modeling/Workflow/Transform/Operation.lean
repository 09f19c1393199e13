import Workflow.Text.Case
import Workflow.Text.Surrogate
import Workflow.Transform.Number
import Workflow.Value.Plain

/-!
# Operations

The four operations of transform nodes. An operation works on a single value, or on an object, which
it takes as a record: each member is then treated on its own, and the members of members are left
alone.
-/

namespace Workflow

/-- What a transform node can do. -/
inductive Operation where
  | uppercase
  | lowercase
  | append
  | multiply
deriving DecidableEq

/-- Why an operation refuses its input or its operand. -/
inductive TransformError where
  | unknownOperation (name : String)
  | missingMultiplier
  /-- The text does not begin with a number. -/
  | unreadableMultiplier (text : String)
  /-- The multiplier is neither a number nor a text. -/
  | multiplierNotNumber
  | textInput
  | textMember (name : String)
  | unsupportedInput (kind : String)
deriving DecidableEq

namespace TransformError

/-- The sentence for an error. -/
def message : TransformError → String
  | unknownOperation name => "Unknown transformation operation: " ++ name
  | missingMultiplier => "Multiply operation requires a multiplier value"
  | unreadableMultiplier text =>
    "Invalid multiplier value: \"" ++ text ++ "\". Expected a number."
  | multiplierNotNumber => "Multiplier must be a number or numeric string"
  | textInput => "Cannot multiply strings. Multiply operation only works with numbers."
  | textMember name =>
    "Cannot multiply string value at key \"" ++ name
      ++ "\". Multiply operation only works with numbers."
  | unsupportedInput kind =>
    "Cannot multiply input of type \"" ++ kind ++ "\". Multiply operation only works with numbers."

end TransformError

/-- How an operation fails. -/
inductive OperationFailure where
  | refused (e : TransformError)
  /-- An integer was too large to be multiplied by a double. -/
  | overflow
  /-- An integer to be appended has more digits than are written. -/
  | longInteger
deriving DecidableEq

/-- The sentence for a failure. -/
def OperationFailure.message : OperationFailure → String
  | refused e => e.message
  | overflow => "int too large to convert to float"
  | longInteger =>
    "Exceeds the limit (4300 digits) for integer string conversion; "
      ++ "use sys.set_int_max_str_digits() to increase the limit"

namespace Operation

/-- The operation of the given name. -/
def ofName? (s : String) : Option Operation :=
  if s = "uppercase" then some uppercase
  else if s = "lowercase" then some lowercase
  else if s = "append" then some append
  else if s = "multiply" then some multiply
  else none

/-- The JSON name of a value's kind. -/
def kindName : Value → String
  | .null => "null"
  | .bool _ => "boolean"
  | .int _ | .float _ => "number"
  | .str _ => "string"
  | .list _ => "array"
  | .object _ => "object"

/--
The text that a value appends: a double without a fraction is written as an integer, and an integer
of too many digits is not written at all.
-/
def suffix : Value → Except OperationFailure String
  | .null => .ok ""
  | .bool b => .ok (if b then "true" else "false")
  | .float x =>
    match Double.toInt? x with
    | some n => .ok (toString n)
    | none => .ok (Value.float x).plain
  | v => if Literal.maxIntegerDigits < v.mostDigits then .error .longInteger else .ok v.plain

/-- Changes a text. -/
def onText (f : String → String) : Value → Value
  | .str s => .str (f s)
  | v => v

/-- Changes a text, or every member of an object that is a text. -/
def onTexts (f : String → String) : Value → Value
  | .object members => .object (members.map fun (name, v) => (name, onText f v))
  | v => onText f v

/-- The multiplier that a value is or begins with. -/
def parseMultiplier : Value → Except TransformError Number
  | .int n => .ok (.int n)
  | .float x => .ok (.float x)
  | .str s =>
    match Number.ofText? s with
    | some a => .ok a
    | none => .error (.unreadableMultiplier s)
  | _ => .error .multiplierNotNumber

/-- The multiplier of an operation that is configured with a value. -/
def multiplier : Value → Except TransformError Number
  | .null => .error .missingMultiplier
  | .str "" => .error .missingMultiplier
  | v => parseMultiplier v

/-- A number times the multiplier. -/
def scale (a factor : Number) : Except OperationFailure Value :=
  match a.mul? factor with
  | some product => .ok product.toValue
  | none => .error .overflow

/-- The members of a record with every number multiplied, up to the first that is a text. -/
def scaleMembers (factor : Number) :
    List (String × Value) → Except OperationFailure (List (String × Value))
  | [] => .ok []
  | (name, .str _) :: _ => .error (.refused (.textMember name))
  | (name, v) :: rest => do
    let product ←
      match Number.ofValue? v with
      | some a => scale a factor
      | none => .ok v
    let others ← scaleMembers factor rest
    .ok ((name, product) :: others)

/-- Multiplies a number or a record. -/
def scaleInput (factor : Number) : Value → Except OperationFailure Value
  | .str _ => .error (.refused .textInput)
  | .int n => scale (.int n) factor
  | .float x => scale (.float x) factor
  | .object members => (scaleMembers factor members).map .object
  | v => .error (.refused (.unsupportedInput (kindName v)))

/-- Applies an operation that is configured with an operand. -/
def apply (input operand : Value) : Operation → Except OperationFailure Value
  | uppercase => .ok (onTexts Text.upper input)
  | lowercase => .ok (onTexts Text.lower input)
  | append => (suffix operand).map fun text => onTexts (Text.append · text) input
  | multiply =>
    match multiplier operand with
    | .error e => .error (.refused e)
    | .ok a => scaleInput a input

/-- Applies the operation of the given name. -/
def applyNamed (name : String) (input operand : Value) : Except OperationFailure Value :=
  match ofName? name with
  | some operation => operation.apply input operand
  | none => .error (.refused (.unknownOperation name))

end Operation

end Workflow
