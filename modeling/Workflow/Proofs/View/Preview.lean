import Workflow.Proofs.Run.Recursion
import Workflow.Proofs.View.Growth

/-!
# The tree of a workflow foretells its run

Read from top to bottom, the branch of the start node lists the nodes in the order in which a run
comes to them. The first mark in it, be it of a node that is met again or of a node that is missing,
stands where the run stops, unless a node fails before.
-/

namespace Workflow

/-! ### The lines of a branch -/

/-- A line of the tree of a workflow. -/
inductive Line where
  | node (n : Node)
  /-- The mark of a node that has its line already. -/
  | again (id : String)
  /-- The mark of an id that no node has. -/
  | missing (id : String)

namespace Line

/-- Whether a line is that of a node, and no mark. -/
def isNode : Line → Bool
  | node _ => true
  | again _ | missing _ => false

/-- The id that a line names. -/
def id : Line → String
  | node n => n.id
  | again id | missing id => id

@[simp] lemma isNode_node (n : Node) : (node n).isNode = true := rfl

@[simp] lemma isNode_again (id : String) : (again id).isNode = false := rfl

@[simp] lemma isNode_missing (id : String) : (missing id).isNode = false := rfl

@[simp] lemma id_comp_node : id ∘ node = Node.id := rfl

/-- The branch of which a line is the first line, without what comes below. -/
def alone : Line → Branch
  | node n => .node n []
  | again id => .again id
  | missing id => .missing id

end Line

mutual

/-- The lines of a branch from top to bottom. -/
def Branch.lines : Branch → List Line
  | .node n children => .node n :: linesOf children
  | .again id => [.again id]
  | .missing id => [.missing id]

/-- The lines of some branches from top to bottom. -/
def Branch.linesOf : List Branch → List Line
  | [] => []
  | b :: bs => b.lines ++ linesOf bs

end

/-- The label at the top of a tree. -/
def Tree.label : Tree → String
  | .mk label _ => label

/-- The markup of a line. -/
def Line.markup (line : Line) : String := line.alone.toTree.label

mutual

/-- The labels of a tree from top to bottom. -/
def Tree.labels : Tree → List String
  | .mk label children => label :: labelsOf children

/-- The labels of some trees from top to bottom. -/
def Tree.labelsOf : List Tree → List String
  | [] => []
  | t :: ts => t.labels ++ labelsOf ts

end

mutual

/-- A branch is shown by its lines. -/
lemma Branch.labels_toTree : ∀ b : Branch, b.toTree.labels = b.lines.map Line.markup
  | .node n children => by
    rw [toTree, Tree.labels, lines, List.map_cons, Branch.labelsOf_toTrees children, Line.markup,
      Line.alone, toTree, Tree.label]
  | .again id => by
    rw [lines, List.map_singleton, Line.markup, Line.alone, toTree, Tree.labels, Tree.labelsOf,
      Tree.label]
  | .missing id => by
    rw [lines, List.map_singleton, Line.markup, Line.alone, toTree, Tree.labels, Tree.labelsOf,
      Tree.label]

lemma Branch.labelsOf_toTrees :
    ∀ bs : List Branch, Tree.labelsOf (toTrees bs) = (linesOf bs).map Line.markup
  | [] => by rw [toTrees, Tree.labelsOf, linesOf, List.map_nil]
  | b :: bs => by
    rw [toTrees, Tree.labelsOf, linesOf, List.map_append, Branch.labels_toTree b,
      Branch.labelsOf_toTrees bs]

end

/-! ### Marks -/

/-- The lines before the first mark. -/
def Line.beforeMark (lines : List Line) : List Line := lines.takeWhile Line.isNode

/-- The first mark, if there is one. -/
def Line.firstMark? (lines : List Line) : Option Line := lines.find? fun line => !line.isNode

section Marks

variable (nodes : List Node) (rest : List Line)

@[simp] lemma Line.beforeMark_again (id : String) : beforeMark (.again id :: rest) = [] := rfl

@[simp] lemma Line.beforeMark_missing (id : String) : beforeMark (.missing id :: rest) = [] := rfl

@[simp] lemma Line.firstMark?_again (id : String) :
    firstMark? (.again id :: rest) = some (.again id) := rfl

@[simp] lemma Line.firstMark?_missing (id : String) :
    firstMark? (.missing id :: rest) = some (.missing id) := rfl

@[simp] lemma Line.beforeMark_nodes_append :
    beforeMark (nodes.map .node ++ rest) = nodes.map .node ++ beforeMark rest :=
  List.takeWhile_append_of_pos (by simp)

@[simp] lemma Line.firstMark?_nodes_append :
    firstMark? (nodes.map .node ++ rest) = firstMark? rest := by
  rw [firstMark?, List.find?_append, List.find?_eq_none.2 (by simp), Option.none_or, firstMark?]

@[simp] lemma Line.beforeMark_nodes : beforeMark (nodes.map .node) = nodes.map .node := by
  rw [← List.append_nil (nodes.map Line.node), beforeMark_nodes_append, beforeMark,
    List.takeWhile_nil]

@[simp] lemma Line.firstMark?_nodes : firstMark? (nodes.map .node) = none := by
  rw [← List.append_nil (nodes.map Line.node), firstMark?_nodes_append, firstMark?, List.find?_nil]

end Marks

/-! ### What lines foretell -/

/--
What is logged and what stops a run, as the lines foretell it: all nodes up to the first mark and
what that mark says, or the nodes before one that fails.
-/
inductive Foretell : List Line → List String → Option WalkError → Prop
  | finished (nodes : List Node) : Foretell (nodes.map .node) (nodes.map Node.id) none
  | cycle (nodes : List Node) (id label : String) (rest : List Line) :
      Foretell (nodes.map .node ++ .again id :: rest) (nodes.map Node.id)
        (some (.cycle id label))
  | dangling (nodes : List Node) (id : String) (rest : List Line) :
      Foretell (nodes.map .node ++ .missing id :: rest) (nodes.map Node.id)
        (some (.dangling id))
  | failure (nodes : List Node) (n : Node) (cause : NodeError) (rest : List Line) :
      Foretell (nodes.map .node ++ .node n :: rest) (nodes.map Node.id)
        (some (.node n.id n.label n.type cause))

section Foretell

variable {lines lines' : List Line} {ids ids' : List String} {error? : Option WalkError}
  {error : WalkError}

/-- What comes after the lines of nodes that did not fail stands for what comes after them. -/
lemma Foretell.append (h : Foretell lines ids none) (h' : Foretell lines' ids' error?) :
    Foretell (lines ++ lines') (ids ++ ids') error? := by
  cases h with
  | finished nodes =>
    cases h' with
    | finished nodes' => simpa using Foretell.finished (nodes ++ nodes')
    | cycle nodes' id label rest => simpa using Foretell.cycle (nodes ++ nodes') id label rest
    | dangling nodes' id rest => simpa using Foretell.dangling (nodes ++ nodes') id rest
    | failure nodes' n cause rest => simpa using Foretell.failure (nodes ++ nodes') n cause rest

/-- What comes after the line at which a run stops does not matter. -/
lemma Foretell.append_right (h : Foretell lines ids (some error)) (more : List Line) :
    Foretell (lines ++ more) ids (some error) := by
  cases h with
  | cycle nodes id label rest => simpa using Foretell.cycle nodes id label (rest ++ more)
  | dangling nodes id rest => simpa using Foretell.dangling nodes id (rest ++ more)
  | failure nodes n cause rest => simpa using Foretell.failure nodes n cause (rest ++ more)

/-- The ids that were logged are those of the first lines, and no mark comes before them. -/
lemma Foretell.ids_isPrefix (h : Foretell lines ids error?) :
    ids <+: (Line.beforeMark lines).map Line.id := by
  cases h <;> simp

/-- If no node fails, everything up to the first mark was logged, and that mark says the rest. -/
lemma Foretell.of_no_failure (h : Foretell lines ids error?)
    (hnode : ∀ id label type cause, error? ≠ some (.node id label type cause)) :
    ids = (Line.beforeMark lines).map Line.id ∧
    (error? = none ↔ Line.firstMark? lines = none) ∧
    (∀ id, Line.firstMark? lines = some (.again id) → ∃ label, error? = some (.cycle id label)) ∧
    ∀ id, Line.firstMark? lines = some (.missing id) → error? = some (.dangling id) := by
  cases h with
  | finished nodes => simp
  | cycle nodes id label rest => simp
  | dangling nodes id rest => simp
  | failure nodes n cause rest => exact absurd rfl (hnode n.id n.label n.type cause)

end Foretell

/-! ### The recursion keeps to the lines -/

/--
A recursion goes on, and the unseen ids are those of the nodes that it has not marked, each once.
-/
structure Graph.Faces (g : Graph) (unseen : List String) (d : Descent) : Prop where
  going : d.error? = none
  nodup : unseen.Nodup
  mem_iff : ∀ id, id ∈ unseen ↔ id ∈ g.ids ∧ id ∉ d.marked

/-- A recursion goes from `d` to `d'` as lines foretell it, and then faces what is left. -/
structure Graph.Foretold (g : Graph) (lines : List Line) (left : List String) (d d' : Descent) :
    Prop where
  logged : ∃ ids, idsOf d'.trace = idsOf d.trace ++ ids ∧ Foretell lines ids d'.error?
  faces : d'.error? = none → g.Faces left d'

section Foretold

variable {g : Graph} {clock : Nat → Int} {unseen left between targets later : List String}
  {lines lines' : List Line} {branches : List Branch} {d d' d'' : Descent} {target : String}
  {input : Value} {n : Node}

lemma Graph.faces_ids (g : Graph) : g.Faces g.ids {} where
  going := rfl
  nodup := g.nodup_ids
  mem_iff := by simp

lemma Graph.Faces.log (h : g.Faces unseen d) (n : Node) (input output : Value) (timestamp : Int) :
    g.Faces (unseen.erase n.id) (d.log n input output timestamp) where
  going := h.going
  nodup := h.nodup.erase _
  mem_iff id := by
    simp only [h.nodup.mem_erase_iff, h.mem_iff, Descent.log, List.mem_cons]
    tauto

/-- A known node is marked exactly if it is not unseen. -/
lemma Graph.Faces.marked_iff (h : g.Faces unseen d) (hn : g.find? target = some n) :
    n.id ∈ d.marked ↔ target ∉ unseen := by
  have hid : n.id = target := Graph.id_of_find? hn
  have hknown : target ∈ g.ids := Graph.mem_ids.2 ⟨n, Graph.mem_of_find? hn, hid⟩
  rw [hid, h.mem_iff]
  tauto

lemma Graph.Foretold.refl (h : g.Faces left d) : g.Foretold [] left d d where
  logged := ⟨[], by simp, h.going ▸ .finished []⟩
  faces _ := h

lemma Graph.Foretold.trans (h : g.Foretold lines between d d')
    (h' : g.Foretold lines' left d' d'') (hgoing : d'.error? = none) :
    g.Foretold (lines ++ lines') left d d'' where
  logged := by
    obtain ⟨ids, hids, hlines⟩ := h.logged
    obtain ⟨ids', hids', hlines'⟩ := h'.logged
    rw [hgoing] at hlines
    exact ⟨ids ++ ids', by rw [hids', hids, List.append_assoc], hlines.append hlines'⟩
  faces := h'.faces

/-- What comes after the line at which a recursion has stopped does not matter. -/
lemma Graph.Foretold.stop (h : g.Foretold lines between d d') {error : WalkError}
    (hstop : d'.error? = some error) (more : List Line) (left : List String) :
    g.Foretold (lines ++ more) left d d' where
  logged := by
    obtain ⟨ids, hids, hlines⟩ := h.logged
    rw [hstop] at hlines ⊢
    exact ⟨ids, hids, hlines.append_right more⟩
  faces hgoing := by simp [hstop] at hgoing

/-- Visits go as their lines foretell if the first does, and then the others. -/
lemma Graph.Foretold.visitEach_cons
    (h : g.Foretold lines between d (g.visit clock d target input).1)
    (h' : ∀ d', g.Faces between d' →
      g.Foretold lines' left d' (g.visitEach clock d' later input).1) :
    g.Foretold (lines ++ lines') left d (g.visitEach clock d (target :: later) input).1 := by
  cases herror : (g.visit clock d target input).1.error? with
  | none =>
    rw [Graph.visitEach_go herror]
    exact h.trans (h' _ (h.faces herror)) herror
  | some error =>
    rw [Graph.visitEach_stop herror]
    exact h.stop herror lines' left

/-- The visit of an unseen node goes as its branch foretells if those of its targets do. -/
lemma Graph.Foretold.visit_node {children : List Branch} (hfaces : g.Faces unseen d)
    (hn : g.find? target = some n) (hunseen : target ∈ unseen)
    (h : ∀ d' output, g.Faces (unseen.erase target) d' → g.Foretold (Branch.linesOf children) left
      d' (g.visitEach clock d' (g.targets target) output).1) :
    g.Foretold (Branch.node n children).lines left d (g.visit clock d target input).1 := by
  have hid : n.id = target := Graph.id_of_find? hn
  have hunmarked : n.id ∉ d.marked := by rwa [hfaces.marked_iff hn, not_not]
  cases houtput : n.evaluate input with
  | error cause =>
    -- the node's own line is there, but nothing was logged for it
    rw [Graph.visit_failure hn hunmarked houtput]
    exact ⟨⟨[], by simp, .failure [] n cause _⟩, by simp⟩
  | ok output =>
    rw [Graph.visit_success hn hunmarked houtput, hid]
    obtain ⟨⟨ids, hids, hlines⟩, hleft⟩ := h (d.log n input output (clock d.trace.length)) output
      (hid ▸ hfaces.log n input output _)
    refine ⟨⟨n.id :: ids, ?_, ?_⟩, hleft⟩
    · rw [hids, Descent.log, idsOf_append_entry, List.append_assoc, List.singleton_append]
    · rw [Branch.lines]
      exact (Foretell.finished [n]).append hlines

/-- Visits go as the branches foretell that grow from the same targets. -/
lemma Graph.Grows.foretold (h : g.Grows unseen targets branches left) (clock : Nat → Int) :
    ∀ d input, g.Faces unseen d →
      g.Foretold (Branch.linesOf branches) left d (g.visitEach clock d targets input).1 := by
  induction h with
  | nil unseen =>
    intro d input hfaces
    rw [Graph.visitEach_nil, Branch.linesOf]
    exact .refl hfaces
  | @missing unseen later left target siblings hn _ ih =>
    intro d input hfaces
    rw [Branch.linesOf, Branch.lines]
    refine .visitEach_cons ?_ fun d' (hfaces' : g.Faces unseen d') => ih d' input hfaces'
    rw [Graph.visit_unknown hn]
    exact ⟨⟨[], by simp, .dangling [] target []⟩, by simp⟩
  | @again unseen later left target n siblings hn hseen _ ih =>
    intro d input hfaces
    rw [Branch.linesOf, Branch.lines]
    refine .visitEach_cons ?_ fun d' (hfaces' : g.Faces unseen d') => ih d' input hfaces'
    rw [Graph.visit_marked hn ((hfaces.marked_iff hn).2 hseen), Graph.id_of_find? hn]
    exact ⟨⟨[], by simp, .cycle [] target n.label []⟩, by simp⟩
  | node hn hunseen _ _ ih ih' =>
    intro d input hfaces
    rw [Branch.linesOf]
    exact .visitEach_cons (.visit_node hfaces hn hunseen ih) fun d' hfaces' => ih' d' input hfaces'

end Foretold

/-- The recursion from a start node goes as its branch foretells. -/
lemma Graph.foretold_descend {g : Graph} {start : Node} (hids : (g.nodes.map Node.id).Nodup)
    (hs : g.start? = some start) (clock : Nat → Int) :
    ∃ left, g.Foretold (g.growth start).1.lines left {} (g.descend clock start.id .null) := by
  have hstart : start ∈ g.nodes := (Graph.start?_mem hs).1
  have hknown : start.id ∈ g.ids := Graph.mem_ids.2 ⟨start, hstart, rfl⟩
  have hgrows := g.grows_branches (g.ids.erase start.id) (g.targets start.id)
  exact ⟨_, .visit_node g.faces_ids (Graph.find?_of_mem hids hstart) hknown
    (hgrows.foretold clock)⟩

/--
In a graph in which no id is there twice, the lines of the start node's branch foretell the run: the
ids in its trace are those of the first lines, in the same order, and no mark comes before them. If
no node fails they are all ids before the first mark, the run succeeds exactly if there is no mark,
and otherwise it stops for what the first mark says.
-/
theorem Graph.execute_keeps_to_lines {g : Graph} {start : Node}
    (hids : (g.nodes.map Node.id).Nodup) (hs : g.start? = some start) (hend : g.hasEnd = true)
    (clock : Nat → Int) :
    let branch := (g.growth start).1
    let run := g.execute clock
    (∀ title, ∃ heading rest, g.tree title = .mk heading (branch.toTree :: rest)) ∧
    branch.toTree.labels = branch.lines.map Line.markup ∧
    idsOf run.trace <+: (Line.beforeMark branch.lines).map Line.id ∧
    ((∀ id label type cause last,
        run.error? ≠ some (.stopped (.node id label type cause) last)) →
      idsOf run.trace = (Line.beforeMark branch.lines).map Line.id ∧
      (run.error? = none ↔ Line.firstMark? branch.lines = none) ∧
      (∀ id, Line.firstMark? branch.lines = some (.again id) →
        ∃ label last, run.error? = some (.stopped (.cycle id label) last)) ∧
      ∀ id, Line.firstMark? branch.lines = some (.missing id) →
        ∃ last, run.error? = some (.stopped (.dangling id) last)) := by
  intro branch run
  obtain ⟨left, ⟨ids, hlogged, hlines⟩, -⟩ := Graph.foretold_descend hids hs clock
  obtain ⟨htrace, herror, -⟩ := Graph.execute_eq_descend clock hs hend
  rw [idsOf_nil, List.nil_append] at hlogged
  have hrun : idsOf run.trace = ids := by rw [htrace, hlogged]
  have htree : ∀ title, ∃ heading rest, g.tree title = .mk heading (branch.toTree :: rest) := by
    intro title
    simp only [Graph.tree, hs]
    exact ⟨_, _, rfl⟩
  refine ⟨htree, Branch.labels_toTree branch, hrun ▸ hlines.ids_isPrefix, fun hnode => ?_⟩
  have hnode' : ∀ id label type cause,
      (g.descend clock start.id .null).error? ≠ some (.node id label type cause) := by
    intro id label type cause hfails
    exact hnode id label type cause _ (by rw [herror, hfails, Option.map_some])
  obtain ⟨hall, hsucceeds, hcycle, hdangling⟩ := hlines.of_no_failure hnode'
  refine ⟨hrun.trans hall, ?_, fun id hmark => ?_, fun id hmark => ?_⟩
  · rw [herror, Option.map_eq_none_iff, hsucceeds]
  · obtain ⟨label, hlabel⟩ := hcycle id hmark
    exact ⟨label, _, by rw [herror, hlabel, Option.map_some]⟩
  · exact ⟨_, by rw [herror, hdangling id hmark, Option.map_some]⟩

/-- The way back has a mark, and so both nodes are visited and then the run stops. -/
theorem Graph.execute_keeps_to_lines_thereAndBack :
    (Graph.thereAndBack.nodes.map Node.id).Nodup ∧
    Graph.thereAndBack.start? = some ⟨"a", ⟨0, 0⟩, .standard .start⟩ ∧
    Graph.thereAndBack.hasEnd = true ∧
    let run := Graph.thereAndBack.execute fun _ => 0
    idsOf run.trace <+: ["a", "b"] ∧
    ((∀ id label type cause last,
        run.error? ≠ some (.stopped (.node id label type cause) last)) →
      idsOf run.trace = ["a", "b"] ∧
      ∃ label last, run.error? = some (.stopped (.cycle "a" label) last)) := by
  have hids : (Graph.thereAndBack.nodes.map Node.id).Nodup := by decide
  have hs : Graph.thereAndBack.start? = some ⟨"a", ⟨0, 0⟩, .standard .start⟩ := rfl
  have hlines : (Graph.thereAndBack.growth ⟨"a", ⟨0, 0⟩, .standard .start⟩).1.lines
      = [.node ⟨"a", ⟨0, 0⟩, .standard .start⟩, .node ⟨"b", ⟨0, 0⟩, .standard .finish⟩,
        .again "a"] := by
    simp [Graph.thereAndBack, Graph.growth, Graph.branches, Graph.find?, Graph.targets,
      Graph.edgesFrom, Edge.between, Graph.ids, List.eraseDups_cons, Branch.lines, Branch.linesOf]
  obtain ⟨-, -, hfirst, hall⟩ := Graph.execute_keeps_to_lines hids hs rfl fun _ => 0
  rw [hlines] at hfirst hall
  refine ⟨hids, hs, rfl, hfirst, fun hnode => ?_⟩
  obtain ⟨hlogged, -, hcycle, -⟩ := hall hnode
  exact ⟨hlogged, hcycle "a" rfl⟩

end Workflow
