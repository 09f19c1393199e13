import Workflow.Number.Literal
import Workflow.Text.Quoted
import Workflow.Text.Utf8
import Workflow.Value.Plain

/-!
# Documents

An untyped document as it is found in a file or handed over by a program, before it is read as a
workflow. Beside the values of JSON a YAML file can hold dates, bytes, sets of names, and names that
are not texts.
-/

namespace Workflow

/-- A date, or a point in time. -/
structure Moment where
  /-- Whether it has a time of day. -/
  timed : Bool
  /-- Whether its time of day is that of a known zone. -/
  zoned : Bool
  /-- The microseconds since the beginning of the first year, in a known zone by universal time. -/
  instant : Int
  /-- How it is listed. -/
  shown : String
deriving DecidableEq

/-- The name of a member of a document's mapping. -/
inductive Document.Key where
  | text (s : String)
  | null
  | int (n : Int)
  | float (x : Float)
  | moment (m : Moment)
  | bytes (b : List UInt8)
deriving DecidableEq

/-- An untyped document. -/
inductive Document where
  | null
  | bool (b : Bool)
  | int (n : Int)
  | float (x : Float)
  | str (s : String)
  | moment (m : Moment)
  | bytes (b : List UInt8)
  | set (names : List Document.Key)
  | list (items : List Document)
  | object (members : List (Document.Key × Document))

namespace Document

instance : Inhabited Document := ⟨null⟩

namespace Key

/--
Whether two names are one and the same: numbers are compared by value whatever their kind, and
points in time whatever their zone. What is not a number is one name too.
-/
def same : Key → Key → Bool
  | text a, text b => a = b
  | null, null => true
  | int a, int b => a = b
  | float a, float b => a == b || (a.isNaN && b.isNaN)
  | int a, float b => Value.intEqualsDouble a b
  | float a, int b => Value.intEqualsDouble b a
  | moment a, moment b => a.timed = b.timed && a.zoned = b.zoned && a.instant = b.instant
  | bytes a, bytes b => a = b
  | _, _ => false

/-- Whether a name holds half a surrogate pair. -/
def isBroken : Key → Bool
  | text s => Text.hasHalf s
  | _ => false

/-- A name as it is listed. An integer of too many digits is not. -/
def listed : Key → String
  | text s => s
  | null => Value.null.listed
  | int n =>
    if Literal.maxIntegerDigits < Double.digitCount n.natAbs then "<unprintable int object>"
    else toString n
  | float x => (Value.float x).listed
  | moment m => m.shown
  | bytes b => Text.quotedBytes b

/-- A name as the document that it is. -/
def document : Key → Document
  | text s => .str s
  | null => .null
  | int n => .int n
  | float x => .float x
  | moment m => .moment m
  | bytes b => .bytes b

end Key

/-- The name of a document's kind. -/
def kind : Document → String
  | null => "NoneType"
  | bool _ => "bool"
  | int _ => "int"
  | float _ => "float"
  | str _ => "str"
  | bytes _ => "bytes"
  | set _ => "set"
  | list _ => "list"
  | object _ => "dict"
  | moment m => if m.timed then "datetime" else "date"

/-- Whether a document is as good as none: null, false, zero, or empty. -/
def isVoid : Document → Bool
  | null | bool false | int 0 | str "" | list [] | object [] | set [] => true
  | float x => x == 0
  | bytes b => b.isEmpty
  | _ => false

mutual

/-- A value as a document. -/
def ofValue : Value → Document
  | .null => null
  | .bool b => bool b
  | .int n => int n
  | .float x => float x
  | .str s => str s
  | .list items => list (ofItems items)
  | .object members => object (ofMembers members)

/-- The items of a list as documents. -/
def ofItems : List Value → List Document
  | [] => []
  | v :: vs => ofValue v :: ofItems vs

/-- The members of an object as members of a mapping. -/
def ofMembers : List (String × Value) → List (Key × Document)
  | [] => []
  | (name, v) :: rest => (.text name, ofValue v) :: ofMembers rest

end

/-- The text of bytes: the characters that they are in UTF-8, or else how they are listed. -/
def bytesText (b : List UInt8) : String :=
  match Text.decodeUtf8 b.toByteArray with
  | .ok s => Text.ofChars s.toList
  | .error _ => Text.quotedBytes b

mutual

/-- The value nearest to a document: what JSON has no kind for becomes its text. -/
def toValue : Document → Value
  | null => .null
  | bool b => .bool b
  | int n => .int n
  | float x => .float x
  | str s => .str s
  | moment m => .str m.shown
  | bytes b => .str (bytesText b)
  | set names => .list (names.map fun key => .str key.listed)
  | list items => .list (toItems items)
  | object members => .object (toMembers members)

/-- The items of a list as values. -/
def toItems : List Document → List Value
  | [] => []
  | d :: ds => toValue d :: toItems ds

/-- The members of a mapping as members of an object. -/
def toMembers : List (Key × Document) → List (String × Value)
  | [] => []
  | (key, d) :: rest => (key.listed, toValue d) :: toMembers rest

end

mutual

/-- A document made from a value is that value. -/
theorem toValue_ofValue : ∀ v : Value, toValue (ofValue v) = v
  | .null => rfl
  | .bool _ => rfl
  | .int _ => rfl
  | .float _ => rfl
  | .str _ => rfl
  | .list items => by rw [ofValue, toValue, toItems_ofItems items]
  | .object members => by rw [ofValue, toValue, toMembers_ofMembers members]

theorem toItems_ofItems : ∀ vs : List Value, toItems (ofItems vs) = vs
  | [] => rfl
  | v :: vs => by rw [ofItems, toItems, toValue_ofValue v, toItems_ofItems vs]

theorem toMembers_ofMembers : ∀ ms : List (String × Value), toMembers (ofMembers ms) = ms
  | [] => rfl
  | (_, v) :: ms => by
    rw [ofMembers, toMembers, toValue_ofValue v, toMembers_ofMembers ms]; rfl

end

end Document

end Workflow
