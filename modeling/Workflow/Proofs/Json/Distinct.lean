import Workflow.Proofs.Graph.Members
import Workflow.Proofs.Json.Found

/-!
# Documents of distinct names

In a document that a program hands over, and in one that is read from a workflow file, no mapping
has two members of one name. So no payload that is read from it has.
-/

namespace Workflow

/-- No mapping in a document has two members of one name. -/
inductive Document.IsDistinct : Document → Prop where
  | null : IsDistinct .null
  | bool (b : Bool) : IsDistinct (.bool b)
  | int (n : Int) : IsDistinct (.int n)
  | float (x : Float) : IsDistinct (.float x)
  | str (s : String) : IsDistinct (.str s)
  | moment (m : Moment) : IsDistinct (.moment m)
  | bytes (b : List UInt8) : IsDistinct (.bytes b)
  | set (names : List Document.Key) : IsDistinct (.set names)
  | list {items : List Document} (h : ∀ d ∈ items, IsDistinct d) : IsDistinct (.list items)
  | object {members : List (Document.Key × Document)} (hnames : (members.map Prod.fst).Nodup)
      (h : ∀ m ∈ members, IsDistinct m.2) : IsDistinct (.object members)

/-- No object in a value has two members of one name. -/
def Value.IsDistinct (v : Value) : Prop :=
  (Document.ofValue v).IsDistinct

section Value

lemma Value.isDistinct_list {items : List Value} (h : ∀ v ∈ items, v.IsDistinct) :
    (Value.list items).IsDistinct := by
  have hall : ∀ d ∈ Document.ofItems items, d.IsDistinct := by
    induction items with
    | nil => nofun
    | cons v items ih =>
      obtain ⟨hv, hitems⟩ := List.forall_mem_cons.1 h
      exact List.forall_mem_cons.2 ⟨hv, ih hitems⟩
  exact .list hall

lemma Value.isDistinct_object {members : List (String × Value)}
    (hnames : (members.map Prod.fst).Nodup) (h : ∀ m ∈ members, m.2.IsDistinct) :
    (Value.object members).IsDistinct := by
  have hall : ∀ m ∈ Document.ofMembers members, m.2.IsDistinct := by
    clear hnames
    induction members with
    | nil => nofun
    | cons m members ih =>
      obtain ⟨hm, hmembers⟩ := List.forall_mem_cons.1 h
      exact List.forall_mem_cons.2 ⟨hm, ih hmembers⟩
  refine .object ?_ hall
  rw [map_fst_ofMembers]
  exact hnames.map fun a b hab => Document.Key.text.inj hab

end Value

/-- What is found in a file has objects of distinct names. -/
lemma Value.IsFound.isDistinct {room : Nat} {v : Value} (h : v.IsFound room) : v.IsDistinct := by
  induction h with
  | null => exact .null
  | bool _ b => exact .bool b
  | int _ n => exact .int n
  | float _ x => exact .float x
  | str _ s => exact .str s
  | noItems => exact .list nofun
  | noMembers => exact .object .nil nofun
  | list _ ih => exact isDistinct_list ih
  | object hnames _ _ ih => exact isDistinct_object hnames ih

/-- What is read from the characters of a workflow file has no object with a repeated name. -/
lemma Json.isDistinct_of_read {cs : List Char} {v : Value}
    (h : Json.read .file (Text.ofChars cs) = .ok v) : v.IsDistinct :=
  (Json.isFound_of_read h).isDistinct

end Workflow
