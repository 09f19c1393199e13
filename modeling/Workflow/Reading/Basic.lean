import Workflow.Document
import Workflow.Reading.Issue

/-!
# Reading with all issues

Reading a part of a workflow gives the part or every issue found. Where a part is made of several
others, the issues of all of them are collected in order.
-/

namespace Workflow

/-- Something read, or the issues that prevented it. -/
inductive Reading (α : Type) where
  | ok (a : α)
  | failed (issues : List Issue)

namespace Reading

variable {α β : Type}

/-- A reading that fails at this very place. -/
def fault (f : Fault) : Reading α :=
  failed [⟨[], f⟩]

/-- Changes what was read. -/
def map (f : α → β) : Reading α → Reading β
  | ok a => ok (f a)
  | failed issues => failed issues

/-- Reads two parts and applies the first to the second; the issues of both are kept in order. -/
def apply : Reading (α → β) → Reading α → Reading β
  | ok f, ok a => ok (f a)
  | ok _, failed issues => failed issues
  | failed issues, ok _ => failed issues
  | failed issues, failed more => failed (issues ++ more)

instance : Functor Reading where
  map := map

instance : Applicative Reading where
  pure := ok
  seq f a := apply f (a ())

theorem map_eq_ok_iff {f : α → β} {r : Reading α} {b : β} :
    f <$> r = .ok b ↔ ∃ a, r = .ok a ∧ f a = b := by
  cases r <;> simp [Functor.map, map]

theorem seq_eq_ok_iff {f : Reading (α → β)} {r : Reading α} {b : β} :
    f <*> r = .ok b ↔ ∃ g a, f = .ok g ∧ r = .ok a ∧ g a = b := by
  cases f <;> cases r <;> simp [Seq.seq, apply]

/-- Goes on with what was read, if it was. -/
def andThen (r : Reading α) (next : α → Reading β) : Reading β :=
  match r with
  | ok a => next a
  | failed issues => failed issues

/-- The reading of a part seen from the whole. -/
def within (step : Step) : Reading α → Reading α
  | ok a => ok a
  | failed issues => failed (issues.map (·.within step))

/-- The reading as a result. -/
def toExcept : Reading α → Except (List Issue) α
  | ok a => .ok a
  | failed issues => .error issues

/-- Reads every item of a list, counting from `start`. -/
def items (read : Document → Reading α) (start : Nat) : List Document → Reading (List α)
  | [] => pure []
  | d :: ds => List.cons <$> (read d).within (.index start) <*> items read (start + 1) ds

/-- Reads a list, or a set of names as one. -/
def list (read : Document → Reading α) : Document → Reading (List α)
  | .list ds => items read 0 ds
  | .set names => items read 0 (names.map Document.Key.document)
  | _ => fault .notList

end Reading

/-- The members of a mapping. -/
abbrev Members := List (Document.Key × Document)

namespace Members

variable {α : Type}

/-- The member of the given name. -/
def find? (members : Members) (name : String) : Option Document :=
  members.lookup (.text name)

/-- The first of some names that a member has, with that member. -/
def findFirst? (members : Members) : List String → Option (String × Document)
  | [] => none
  | name :: names =>
    match members.find? name with
    | some d => some (name, d)
    | none => members.findFirst? names

/-- Reads the member that goes by one of the names; `absent` stands in for a missing one. -/
def read (members : Members) (names : List String) (absent : Reading α)
    (readMember : Document → Reading α) : Reading α :=
  match members.findFirst? names with
  | some (name, d) => (readMember d).within (.name name)
  | none => absent

/-- Reads a member that has to be there; a missing one is reported under its first name. -/
def required (members : Members) (name : String) (others : List String)
    (readMember : Document → Reading α) : Reading α :=
  members.read (name :: others) ((Reading.fault .missing).within (.name name)) readMember

/-- Reads a member that may be left out. -/
def optional (members : Members) (name : String) (others : List String) (standard : α)
    (readMember : Document → Reading α) : Reading α :=
  members.read (name :: others) (.ok standard) readMember

end Members

/-- The members of a document that has to be a mapping, for the model of the given name. -/
def Reading.object {α : Type} (model : String) (read : Members → Reading α) :
    Document → Reading α
  | .object members => read members
  | _ => .fault (.notObject model)

end Workflow
