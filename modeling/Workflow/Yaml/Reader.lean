import Workflow.Reading.Basic
import Workflow.Yaml.Node
import Workflow.Yaml.Standard

/-!
# Reading YAML

A text as a document. A name that is given twice has its last value at its first place. A mapping
may take over the entries of others by the name `<<`, and its own entries override those. Of several
faults of single nodes the one that is nearest to the root counts, and of those the first.
-/

namespace Workflow.Yaml

/-! ### Merged mappings -/

/-- Whether a name takes over the entries of another mapping. -/
def Node.isMerge : Node → Bool
  | .scalar text style => text = "<<" && style = .plain
  | .tagged tag _ => tag = .merge
  | _ => false

/-- The entries or members of a mapping: those that it takes over from others, and its own. -/
structure Split (α : Type) where
  taken : List α := []
  own : List α := []

/-- All of them, the own ones last, so that they override the others. -/
def Split.all {α : Type} (s : Split α) : List α :=
  s.taken ++ s.own

mutual

/-- The entries of a mapping. -/
def splitEntries : List (Node × Node) → Except Fault (Split (Node × Node))
  | [] => .ok {}
  | (name, value) :: rest =>
    if name.isMerge then do
      let first ← value.offered
      let others ← splitEntries rest
      .ok { others with taken := first ++ others.taken }
    else (splitEntries rest).map fun others => { others with own := (name, value) :: others.own }

/-- The entries that a mapping, or a sequence of mappings, has for another to take over. -/
def Node.offered : Node → Except Fault (List (Node × Node))
  | .scalar _ _ => .error .malformed
  | .mapping entries => (splitEntries entries).map Split.all
  | .sequence items => offeredByAll items
  | .loop _ => .ok []
  | .tagged _ n => n.offered

/-- The entries that several mappings have, those of the last one first. -/
def offeredByAll : List Node → Except Fault (List (Node × Node))
  | [] => .ok []
  | .mapping entries :: rest => do
    let first ← splitEntries entries
    let others ← offeredByAll rest
    .ok (others ++ first.all)
  | .tagged _ (.mapping entries) :: rest => do
    let first ← splitEntries entries
    let others ← offeredByAll rest
    .ok (others ++ first.all)
  | .loop _ :: rest => offeredByAll rest
  | _ :: _ => .error .malformed

end

/-- The entries of a mapping with those that it takes over. -/
def merged (entries : List (Node × Node)) : Except Fault (List (Node × Node)) :=
  (splitEntries entries).map Split.all

/-! ### Tagged nodes -/

/-- Whether a name is that of a mapping's default, which stands for the mapping as a text. -/
def Node.isDefault : Node → Bool
  | .scalar text style => text = "=" && style = .plain
  | .tagged tag _ => tag = .default
  | _ => false

mutual

/-- The text of a node that should be a scalar. -/
def Node.scalarText : Node → Except Fault String
  | .scalar text _ => .ok text
  | .sequence _ => .error .malformed
  | .mapping entries => defaultText entries
  | .loop _ => .error .tooDeep
  | .tagged _ n => n.scalarText

/-- The text of a mapping's default. -/
def defaultText : List (Node × Node) → Except Fault String
  | [] => .error .malformed
  | (name, value) :: rest => if name.isDefault then value.scalarText else defaultText rest

end

/-- A node without its tag. -/
def Node.untagged : Node → Node
  | .tagged _ n => n
  | n => n

/-- What a node stands for behind a tag for texts. A mapping has a text, but is no date. -/
def Node.standard (tag : Tag) (n : Node) : Except Fault Document :=
  if !tag.isScalar then .error .malformed
  else do
    let text ← n.scalarText
    match tag, n with
    | .timestamp, .mapping _ => .error .mappedDate
    | _, _ => taggedDocument tag text

/-! ### Faults -/

/-- The fault of a result, if it is one. -/
def faultOf? {α : Type} : Except Fault α → Option Fault
  | .ok _ => none
  | .error f => some f

/-- What is wrong with a scalar, if anything is. -/
def scalarFault? (text : String) : ScalarStyle → Option Fault
  | .plain => faultOf? (plainDocument text)
  | .quoted => none

/-- What is wrong with a node as far as it can be seen from its parent. -/
def Node.valueFault? : Node → Option Fault
  | .scalar text style => scalarFault? text style
  | .tagged tag n => if tag.isCollection then none else faultOf? (n.standard tag)
  | _ => none

/-- What is wrong with a node as a name. The name of a default is a text, though no value. -/
def Node.keyFault? : Node → Option Fault
  | .scalar text style => if text = "=" then none else scalarFault? text style
  | .tagged .default n => faultOf? n.scalarText
  | .tagged tag n => faultOf? (n.standard tag)
  | _ => some .malformed

/-- What is wrong with the names and the values of a mapping. -/
def entriesFault? (entries : List (Node × Node)) : Option Fault :=
  match merged entries with
  | .error f => some f
  | .ok all => all.findSome? fun (name, value) => name.keyFault? <|> value.valueFault?

/-- The name and the value of a node that is one of some pairs: a mapping with one entry. -/
def Node.pair? (n : Node) : Option (Node × Node) :=
  match n.untagged with
  | .mapping [entry] => some entry
  | _ => none

/-- What is wrong with a node that should be one of some pairs. Its name may be any value. -/
def Node.pairFault? (n : Node) : Option Fault :=
  match n, n.pair? with
  | .loop _, _ => none
  | _, some (name, value) => name.valueFault? <|> value.valueFault?
  | _, none => some .malformed

/-- What is wrong with a node itself, its collections left aside. -/
def Node.ownFault? : Node → Option Fault
  | .scalar text style => scalarFault? text style
  | .sequence items => items.findSome? valueFault?
  | .mapping entries => entriesFault? entries
  | .loop _ => none
  | .tagged .set (.mapping entries) => entriesFault? entries
  | .tagged .omap (.sequence items) | .tagged .pairs (.sequence items) =>
    items.findSome? pairFault?
  | .tagged tag n => faultOf? (n.standard tag)

/-- The values of a mapping. -/
def mergedValues (entries : List (Node × Node)) : List Node :=
  ((merged entries).toOption.getD []).map (·.2)

/-- The parts of a node. -/
def Node.parts : Node → List Node
  | .sequence items => items
  | .mapping entries | .tagged .set (.mapping entries) => mergedValues entries
  | .tagged .omap (.sequence items) | .tagged .pairs (.sequence items) =>
    (items.filterMap pair?).flatMap fun (name, value) => [name, value]
  | _ => []

mutual

/-- How many levels of nodes there are in a node. -/
def Node.height : Node → Nat
  | .sequence items => heightOfItems items + 1
  | .mapping entries => heightOfEntries entries + 1
  | .tagged _ n => n.height
  | _ => 1

/-- How many levels of nodes there are in the highest of some nodes. -/
def Node.heightOfItems : List Node → Nat
  | [] => 0
  | n :: ns => max n.height (heightOfItems ns)

/-- How many levels of nodes there are in the highest of some entries. -/
def Node.heightOfEntries : List (Node × Node) → Nat
  | [] => 0
  | (name, value) :: rest => max (max name.height value.height) (heightOfEntries rest)

end

/-- The first fault in some levels of nodes, of which the first is given. -/
def firstFault? : Nat → List Node → Option Fault
  | 0, _ => none
  | levels + 1, ns => ns.findSome? Node.ownFault? <|> firstFault? levels (ns.flatMap Node.parts)

/-! ### Documents -/

/-- A name as the name of a member. A boolean counts as a number, and a collection is no name. -/
def keyOf : Document → Document.Key
  | .str s => .text s
  | .int n => .int n
  | .bool b => .int (Value.ofBool b)
  | .float x => .float x
  | .moment m => .moment m
  | .bytes b => .bytes b
  | .null | .set _ | .list _ | .object _ => .null

/-- A scalar as a document, if nothing is wrong with it. -/
def scalarDocument (text : String) : ScalarStyle → Document
  | .plain => (plainDocument text).toOption.getD .null
  | .quoted => .str text

/-- A node as the name of a member. -/
def Node.key : Node → Document.Key
  | .scalar text style => if text = "=" then .text text else keyOf (scalarDocument text style)
  | .tagged .default n => .text (n.scalarText.toOption.getD "")
  | .tagged tag n => keyOf ((n.standard tag).toOption.getD .null)
  | _ => .null

/-- The members with another one. A name that is there already keeps its place and its spelling. -/
def addMember (ms : Members) (key : Document.Key) (d : Document) : Members :=
  match ms with
  | [] => [(key, d)]
  | (k, old) :: rest => if k.same key then (k, d) :: rest else (k, old) :: addMember rest key d

/-- The members with those of some more entries added one after the other. -/
def addMembers (ms more : Members) : Members :=
  more.foldl (fun ms m => addMember ms m.1 m.2) ms

mutual

/-- A node as a document, if nothing is wrong with it. -/
def Node.document : Node → Document
  | .scalar text style => scalarDocument text style
  | .sequence items => .list (documents items)
  | .mapping entries => .object (addMembers [] (splitMembers entries).all)
  | .loop _ => .null
  | .tagged .set (.mapping entries) =>
    .set ((addMembers [] (splitMembers entries).all).map (·.1))
  | .tagged .omap (.sequence items) | .tagged .pairs (.sequence items) =>
    .list (pairDocuments items)
  | .tagged tag n => (n.standard tag).toOption.getD .null

/-- The items of a sequence as documents. -/
def Node.documents : List Node → List Document
  | [] => []
  | n :: ns => n.document :: documents ns

/-- Some pairs as lists of two documents. -/
def Node.pairDocuments : List Node → List Document
  | [] => []
  | .mapping [(name, value)] :: rest | .tagged _ (.mapping [(name, value)]) :: rest =>
    .list [name.document, value.document] :: pairDocuments rest
  | _ :: rest => .null :: pairDocuments rest

/-- The members of a mapping. -/
def Node.splitMembers : List (Node × Node) → Split (Document.Key × Document)
  | [] => {}
  | (name, value) :: rest =>
    let others := splitMembers rest
    if name.isMerge then { others with taken := value.offeredMembers ++ others.taken }
    else { others with own := (name.key, value.document) :: others.own }

/-- The members that a mapping, or a sequence of mappings, has for another to take over. -/
def Node.offeredMembers : Node → Members
  | .mapping entries => (splitMembers entries).all
  | .sequence items => membersOfAll items
  | .tagged _ n => n.offeredMembers
  | _ => []

/-- The members that several mappings have, those of the last one first. -/
def Node.membersOfAll : List Node → Members
  | [] => []
  | .mapping entries :: rest | .tagged _ (.mapping entries) :: rest =>
    membersOfAll rest ++ (splitMembers entries).all
  | _ :: rest => membersOfAll rest

end

/-- The document that a source holds; an empty one is null. -/
def Source.read (source : Source) : Except Fault Document := do
  match ← Node.ofTokens? source.tokens with
  | none => .ok .null
  | some n =>
    match firstFault? n.height [n] with
    | some f => .error f
    | none => .ok n.document

/-- The document that a file of the given bytes holds. -/
def read (bytes : ByteArray) : Except Fault Document :=
  (Source.ofBytes bytes).read

end Workflow.Yaml
