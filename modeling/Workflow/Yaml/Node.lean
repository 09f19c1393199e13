import Workflow.Yaml.Plain
import Workflow.Yaml.Token

/-!
# Nodes

The tree that tokens form. A node may have a tag, which is known by what its handle is short for in
the document. An alias stands for the node that was given its name before. That may be
a node in which the alias stands itself; such a node goes on forever, and is cut off at a depth that
is more than a workflow has. Every function takes tokens from the front; `fuel` bounds how deep the
calls go, and no token takes more than four of them.
-/

namespace Workflow.Yaml

/-- A node: a scalar, a sequence, or a mapping whose names are nodes as well. -/
inductive Node where
  | scalar (text : String) (style : ScalarStyle)
  | sequence (items : List Node)
  | mapping (entries : List (Node × Node))
  /-- The collection of the given name within itself. -/
  | loop (name : String)
  /-- A node that stands for something else than it would without its tag. -/
  | tagged (tag : Tag) (n : Node)

/-- The node of a place where nothing is written. -/
def Node.empty : Node :=
  .scalar "" .plain

instance : Inhabited Node := ⟨.empty⟩

mutual

/-- A node with another one in place of the loops of a name. -/
def Node.replaceLoop (name : String) (inner : Node) : Node → Node
  | .scalar text style => .scalar text style
  | .sequence items => .sequence (replaceInItems name inner items)
  | .mapping entries => .mapping (replaceInEntries name inner entries)
  | .loop other => if other = name then inner else .loop other
  | .tagged tag n => .tagged tag (replaceLoop name inner n)

/-- The items of a sequence with another node in place of the loops of a name. -/
def Node.replaceInItems (name : String) (inner : Node) : List Node → List Node
  | [] => []
  | n :: ns => replaceLoop name inner n :: replaceInItems name inner ns

/-- The entries of a mapping with another node in place of the loops of a name. -/
def Node.replaceInEntries (name : String) (inner : Node) : List (Node × Node) → List (Node × Node)
  | [] => []
  | (key, value) :: rest =>
    (replaceLoop name inner key, replaceLoop name inner value)
      :: replaceInEntries name inner rest

end

/-- A node of a name that stands within itself so many times. -/
def Node.unroll (name : String) (n : Node) : Nat → Node
  | 0 => n
  | times + 1 => replaceLoop name (unroll name n times) n

/-- How many times a node stands within itself at least before it is cut off. -/
def loopDepth : Nat := 5

/-- How deep collections may be nested. -/
def maxNesting : Nat := 487

/-! ### Tags -/

/-- A node with a tag. A tag that it has anyway makes no difference to it. -/
def Node.withTag (tag : Tag) (n : Node) : Node :=
  match tag, n with
  | .str, .scalar text _ => .scalar text .quoted
  | .seq, .sequence items => .sequence items
  | .map, .mapping entries => .mapping entries
  | tag, n => .tagged tag n

/-- A scalar read as if it were plain, though it may end with a line break. -/
def Node.asPlain (text : String) : Node :=
  match text.toList.reverse with
  | '\n' :: line =>
    if line.isEmpty then .scalar text .quoted
    else withTag (plainTag (String.ofList line.reverse)) (.scalar text .quoted)
  | _ => .scalar text .plain

/-- A node with the tag of a text. The mark of tags alone is one for scalars to be read as plain. -/
def Node.withTagText (s : String) (n : Node) : Node :=
  match s, n with
  | "!", .scalar text _ => asPlain text
  | "!", n => n
  | s, n => n.withTag (.ofText s)

/-! ### Places between tokens -/

/--
The tokens that are left, what the handles are short for, the nodes that were given names, and how
deep collections may still be nested. A node still being read is none.
-/
structure Parse where
  tokens : List Token
  handles : List (String × String) := standardHandles
  anchors : List (String × Option Node) := []
  room : Nat := maxNesting

/-- The parse after the first token. -/
def Parse.tail (p : Parse) : Parse :=
  { p with tokens := p.tokens.tail }

/-- Whether one of the given tokens comes next. -/
def Parse.at (p : Parse) (ts : List Token) : Bool :=
  p.tokens.head?.any ts.contains

/-- The fault that ends the tokens, if it comes next. -/
def Parse.fault? (p : Parse) : Option Fault :=
  match p.tokens with
  | .fault f :: _ => some f
  | _ => none

/-- What is wrong where the next token does not fit. -/
def Parse.misfit (p : Parse) : Fault :=
  p.fault?.getD .malformed

/-- Goes on without a token, unless there is none because of a fault. -/
def Parse.unless {α : Type} (p : Parse) (a : α) : Except Fault (α × Parse) :=
  match p.fault? with
  | some f => .error f
  | none => .ok (a, p)

/-- The text of a tag, with what its handle is short for. -/
def Parse.tagText (p : Parse) (handle? : Option String) (suffix : String) : Except Fault String :=
  match handle? with
  | none => .ok suffix
  | some handle =>
    match p.handles.lookup handle with
    | some start => .ok (start ++ suffix)
    | none => .error .malformed

/-- The name and the tag before a node, in either order, and what follows them. -/
def Parse.properties (p : Parse) :
    Except Fault (Option String × Option String × Parse) :=
  match p.tokens, p.tail.tokens with
  | _, .fault f :: _ => .error f
  | .anchor name :: _, .tag handle? suffix :: _
  | .tag handle? suffix :: _, .anchor name :: _ =>
    (p.tagText handle? suffix).map fun tag => (some name, some tag, p.tail.tail)
  | .anchor name :: _, _ => .ok (some name, none, p.tail)
  | .tag handle? suffix :: _, _ =>
    (p.tagText handle? suffix).map fun tag => (none, some tag, p.tail)
  | _, _ => .ok (none, none, p)

/-- Gives a node its name, by which the loops in it go on. -/
def Parse.name (p : Parse) (name : String) (n : Node) : Node × Parse :=
  let n := n.unroll name loopDepth
  let anchors := p.anchors.map fun a => (a.1, a.2.map (Node.replaceLoop name n))
  (n, { p with anchors := (name, some n) :: anchors })

/-- The parse inside a collection that begins with the next token. -/
def Parse.deeper (p : Parse) : Except Fault Parse :=
  if p.room = 0 then .error .tooDeep else .ok { p with room := p.room - 1 }

/-- The parse after a collection. -/
def Parse.shallower (p : Parse) : Parse :=
  { p with room := p.room + 1 }

mutual

/--
Reads a node. A block collection is only read where one may stand, and a block sequence without
indentation only as an entry of a mapping.
-/
def parseNode : Nat → Bool → Bool → Parse → Except Fault (Node × Parse)
  | 0, _, _, _ => .error .malformed
  | fuel + 1, block, flush, p =>
    match p.tokens with
    | .alias name :: rest =>
      match p.anchors.lookup name with
      | some (some node) => .ok (node, { p with tokens := rest })
      | some none => .ok (.loop name, { p with tokens := rest })
      | none => .error .malformed
    | .anchor _ :: _ | .tag _ _ :: _ => do
      let (name?, tag?, p) ← p.properties
      match p.fault?, name?.bind fun name => p.anchors.lookup name with
      | some f, _ => .error f
      | none, some _ => .error .malformed
      | none, none => do
        let p := { p with anchors := name?.toList.map (fun name => (name, none)) ++ p.anchors }
        let (node, p) ← parseContent fuel block flush true p
        let node := tag?.elim node node.withTagText
        .ok (name?.elim (node, p) fun name => p.name name node)
    | _ => parseContent fuel block flush false p

/-- Reads a node after its name and its tag. With one of them it may be empty. -/
def parseContent : Nat → Bool → Bool → Bool → Parse → Except Fault (Node × Parse)
  | 0, _, _, _, _ => .error .malformed
  | fuel + 1, block, flush, announced, p =>
    match p.tokens with
    | .scalar text style :: _ => .ok (.scalar text style, p.tail)
    | .flowSequence :: _ => sequence (p.deeper.bind fun p => parseFlowItems fuel true p.tail)
    | .flowMapping :: _ => mapping (p.deeper.bind fun p => parseFlowEntries fuel true p.tail)
    | .blockSequence :: _ =>
      if block then sequence (p.deeper.bind fun p => parseItems fuel p.tail) else absent announced p
    | .blockMapping :: _ =>
      if block then mapping (p.deeper.bind fun p => parseEntries fuel p.tail) else absent announced p
    | .blockEntry :: _ =>
      if flush then sequence (p.deeper.bind (parseFlushItems fuel)) else absent announced p
    | _ => absent announced p
where
  /-- The sequence of some items. -/
  sequence (r : Except Fault (List Node × Parse)) : Except Fault (Node × Parse) :=
    r.map fun (items, p) => (.sequence items, p.shallower)
  /-- The mapping of some entries. -/
  mapping (r : Except Fault (List (Node × Node) × Parse)) : Except Fault (Node × Parse) :=
    r.map fun (entries, p) => (.mapping entries, p.shallower)
  /-- A node that is not there. -/
  absent (announced : Bool) (p : Parse) : Except Fault (Node × Parse) :=
    if announced then p.unless .empty else .error p.misfit

/-- Reads a node, or the empty one before one of the given tokens. -/
def parseOptional : Nat → Bool → Bool → List Token → Parse → Except Fault (Node × Parse)
  | 0, _, _, _, _ => .error .malformed
  | fuel + 1, block, flush, before, p =>
    if p.at before then .ok (.empty, p) else parseNode fuel block flush p

/-- Reads the value of an entry, which is empty unless a colon comes next. -/
def parseValue : Nat → Bool → List Token → Parse → Except Fault (Node × Parse)
  | 0, _, _, _ => .error .malformed
  | fuel + 1, block, before, p =>
    if p.at [.value] then parseOptional fuel block block before p.tail else p.unless .empty

/-- Reads the items of a block sequence up to its end. -/
def parseItems : Nat → Parse → Except Fault (List Node × Parse)
  | 0, _ => .error .malformed
  | fuel + 1, p =>
    match p.tokens with
    | .blockEnd :: _ => .ok ([], p.tail)
    | .blockEntry :: _ => do
      let (item, p) ← parseOptional fuel true false [.blockEntry, .blockEnd] p.tail
      let (items, p) ← parseItems fuel p
      .ok (item :: items, p)
    | _ => .error p.misfit

/-- Reads the items of a block sequence without indentation. -/
def parseFlushItems : Nat → Parse → Except Fault (List Node × Parse)
  | 0, _ => .error .malformed
  | fuel + 1, p =>
    match p.tokens with
    | .blockEntry :: _ => do
      let (item, p) ←
        parseOptional fuel true false [.blockEntry, .key, .value, .blockEnd] p.tail
      let (items, p) ← parseFlushItems fuel p
      .ok (item :: items, p)
    | _ => p.unless []

/-- Reads the entries of a block mapping up to its end. -/
def parseEntries : Nat → Parse → Except Fault (List (Node × Node) × Parse)
  | 0, _ => .error .malformed
  | fuel + 1, p =>
    match p.tokens with
    | .blockEnd :: _ => .ok ([], p.tail)
    | .key :: _ => do
      let (name, p) ← parseOptional fuel true true [.key, .value, .blockEnd] p.tail
      let (value, p) ← parseValue fuel true [.key, .value, .blockEnd] p
      let (entries, p) ← parseEntries fuel p
      .ok ((name, value) :: entries, p)
    | _ => .error p.misfit

/--
Reads the items of a flow sequence up to its end. An entry with a name is a mapping of its own.
-/
def parseFlowItems : Nat → Bool → Parse → Except Fault (List Node × Parse)
  | 0, _, _ => .error .malformed
  | fuel + 1, first, p =>
    if p.at [.flowSequenceEnd] then .ok ([], p.tail)
    else if !first && !p.at [.flowEntry] then .error p.misfit
    else
      let p := if first then p else p.tail
      if p.at [.flowSequenceEnd] then .ok ([], p.tail)
      else do
        let (item, p) ←
          if p.at [.key] then do
            let (name, p) ←
              parseOptional fuel false false [.value, .flowEntry, .flowSequenceEnd] p.tail
            let (value, p) ← parseValue fuel false [.flowEntry, .flowSequenceEnd] p
            .ok (.mapping [(name, value)], p)
          else parseNode fuel false false p
        let (items, p) ← parseFlowItems fuel false p
        .ok (item :: items, p)

/-- Reads the entries of a flow mapping up to its end. -/
def parseFlowEntries : Nat → Bool → Parse → Except Fault (List (Node × Node) × Parse)
  | 0, _, _ => .error .malformed
  | fuel + 1, first, p =>
    if p.at [.flowMappingEnd] then .ok ([], p.tail)
    else if !first && !p.at [.flowEntry] then .error p.misfit
    else
      let p := if first then p else p.tail
      if p.at [.flowMappingEnd] then .ok ([], p.tail)
      else do
        let (entry, p) ←
          if p.at [.key] then do
            let (name, p) ←
              parseOptional fuel false false [.value, .flowEntry, .flowMappingEnd] p.tail
            let (value, p) ← parseValue fuel false [.flowEntry, .flowMappingEnd] p
            .ok ((name, value), p)
          else (parseNode fuel false false p).map fun (name, p) => ((name, .empty), p)
        let (entries, p) ← parseFlowEntries fuel false p
        .ok (entry :: entries, p)

end

/-- Whether a directive comes next. -/
def Parse.atDirective (p : Parse) : Bool :=
  match p.tokens with
  | .directive _ :: _ => true
  | _ => false

/--
Takes the directives that come next: what the handles in them are short for, after those given, and
the tokens that follow. Of the version there is one directive at most, and of a handle too.
-/
def takeDirectives (versioned : Bool) (handles : List (String × String)) :
    List Token → Except Fault (List (String × String) × List Token)
  | .directive (.version major) :: rest =>
    if versioned || major ≠ 1 then .error .malformed else takeDirectives true handles rest
  | .directive (.handle name start) :: rest =>
    if (handles.lookup name).isSome then .error .malformed
    else takeDirectives versioned ((name, start) :: handles) rest
  | .directive .other :: rest => takeDirectives versioned handles rest
  | ts => .ok (handles, ts)

/-- Reads the directives of a document. -/
def Parse.directives (p : Parse) : Except Fault Parse :=
  (takeDirectives false [] p.tokens).map fun (handles, ts) =>
    { p with tokens := ts, handles := handles ++ standardHandles }

/--
Reads the content of a document, which may be missing after an explicit start. Directives stand
before such a start.
-/
def parseDocument (p : Parse) : Except Fault (Node × Parse) :=
  let fuel := 4 * p.tokens.length + 4
  if p.at [.documentStart] || p.atDirective then do
    let p ← p.directives
    if !p.at [.documentStart] then .error p.misfit
    else
      let p := p.tail
      if p.tokens.isEmpty || p.atDirective then .ok (.empty, p)
      else parseOptional fuel true false [.documentStart, .documentEnd] p
  else parseNode fuel true false p

/--
The node of a list of tokens, which may hold one document at most. The directives of another one are
looked at before it is refused.
-/
def Node.ofTokens? (ts : List Token) : Except Fault (Option Node) :=
  if ts.isEmpty then .ok none
  else do
    let (node, p) ← parseDocument { tokens := ts }
    let p := { p with tokens := p.tokens.dropWhile (· = Token.documentEnd) }
    if p.tokens.isEmpty then .ok (some node)
    else do
      let p ← p.directives
      .error p.misfit

end Workflow.Yaml
