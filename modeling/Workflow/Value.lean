import Workflow.Number.Double

/-!
# Values

What flows along the edges of a workflow: the values of JSON, with integers of any size apart from
doubles, and with objects whose members keep their order.
-/

namespace Workflow

/-- A JSON value. -/
inductive Value where
  | null
  | bool (b : Bool)
  | int (n : Int)
  | float (x : Float)
  | str (s : String)
  | list (items : List Value)
  | object (members : List (String × Value))

namespace Value

instance : Inhabited Value := ⟨null⟩

/-- Sets a member of an object. A new name goes last and a known one keeps its place. -/
def setMember {κ α : Type} [DecidableEq κ] (members : List (κ × α)) (name : κ) (value : α) :
    List (κ × α) :=
  match members with
  | [] => [(name, value)]
  | (k, v) :: rest => if k = name then (k, value) :: rest else (k, v) :: setMember rest name value

/-- The number that a boolean counts as. -/
def ofBool (b : Bool) : Int :=
  if b then 1 else 0

/-- Whether an integer and a double are the same number. -/
def intEqualsDouble (n : Int) (x : Float) : Bool :=
  Double.toInt? x = some n

mutual

/-- The most digits of an integer in a value. -/
def mostDigits : Value → Nat
  | int n => Double.digitCount n.natAbs
  | list items => mostDigitsOfItems items
  | object members => mostDigitsOfMembers members
  | _ => 0

/-- The most digits of an integer in the items of a list. -/
def mostDigitsOfItems : List Value → Nat
  | [] => 0
  | v :: vs => max (mostDigits v) (mostDigitsOfItems vs)

/-- The most digits of an integer in the members of an object. -/
def mostDigitsOfMembers : List (String × Value) → Nat
  | [] => 0
  | (_, v) :: rest => max (mostDigits v) (mostDigitsOfMembers rest)

end

mutual

/--
Whether two values are the same data: numbers are compared by value whatever their kind, a boolean
counts as the number 0 or 1, and the order of the members of an object does not matter.
-/
def equal : Value → Value → Bool
  | null, null => true
  | bool a, bool b => a = b
  | bool a, int b => ofBool a = b
  | int a, bool b => a = ofBool b
  | int a, int b => a = b
  | float a, float b => a == b
  | int a, float b => intEqualsDouble a b
  | float a, int b => intEqualsDouble b a
  | bool a, float b => intEqualsDouble (ofBool a) b
  | float a, bool b => intEqualsDouble (ofBool b) a
  | str a, str b => a = b
  | list a, list b => equalItems a b
  | object a, object b => a.length = b.length && equalMembers a b
  | _, _ => false

/-- Equal item by item. -/
def equalItems : List Value → List Value → Bool
  | [], [] => true
  | a :: as, b :: bs => equal a b && equalItems as bs
  | _, _ => false

/-- Every member of the first list has an equal member of the same name in the second. -/
def equalMembers : List (String × Value) → List (String × Value) → Bool
  | [], _ => true
  | (name, a) :: as, bs =>
    (match bs.lookup name with
      | some b => equal a b
      | none => false) && equalMembers as bs

end

end Value

end Workflow
