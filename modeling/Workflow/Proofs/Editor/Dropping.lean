import Workflow.Proofs.Editor.Action
import Workflow.Proofs.Editor.Comparing
import Workflow.Proofs.Graph.Regular
import Workflow.Proofs.Json.Document
import Workflow.Proofs.Number.Sum

/-!
# What history drops

History drops a state with the fingerprint of the newest one. Such a state has the same nodes, which
at most jitter, and the same edges, where a surrogate pair that a text holds as two halves counts as
the character that it stands for. So it is similar to the newest one, unless they differ in such a
pair. But not every similar state is dropped: a node that moves a little over the middle between two
whole units is rounded to another one.
-/

namespace Workflow

/-- The JSON text of a payload, if it is a JSON document. -/
def Payload.text (p : Payload) : Except DumpFault String :=
  p.dump.map (Json.write .fingerprint)

/-- Whether two payloads are the same JSON document. -/
def Payload.SameDocument (p q : Payload) : Prop :=
  ∃ v w, p.dump = .ok v ∧ q.dump = .ok w ∧ v.SameDocument w

/-- An edge whose texts have every surrogate pair as one character. -/
def Edge.joined (e : Edge) : Edge :=
  ⟨Text.joined e.id, Text.joined e.source, Text.joined e.target⟩

/-- Whether a node is another one that stands on the same whole units, as documents. -/
structure Node.Repeats (a b : Node) : Prop where
  id : Text.joined a.id = Text.joined b.id
  type : a.type = b.type
  x : roundHalfUp a.position.x = roundHalfUp b.position.x
  y : roundHalfUp a.position.y = roundHalfUp b.position.y
  payload : a.payload.text = b.payload.text

/-- Whether a node is another one, as documents, no more than one unit away on either axis. -/
structure Node.Jitters (a b : Node) : Prop where
  id : Text.joined a.id = Text.joined b.id
  type : a.type = b.type
  x : |Double.toRat a.position.x - Double.toRat b.position.x| ≤ 1
  y : |Double.toRat a.position.y - Double.toRat b.position.y| ≤ 1
  payload : a.payload.SameDocument b.payload

/-- Whether a state is another one, as documents, but for nodes that jitter. -/
structure EditorState.Jitters (s t : EditorState) : Prop where
  nodes : List.Forall₂ Node.Jitters s.graph.nodes t.graph.nodes
  edges : s.graph.edges.map Edge.joined = t.graph.edges.map Edge.joined

/-- Whether the ids and payloads of two states, and the edges, have the very same texts. -/
structure EditorState.SpelledLike (s t : EditorState) : Prop where
  nodes : List.Forall₂ (fun a b => a.id = b.id ∧ a.payload.dump = b.payload.dump)
    s.graph.nodes t.graph.nodes
  edges : s.graph.edges = t.graph.edges

/-- Whether no text of a graph holds a surrogate pair as two halves. -/
structure Graph.IsJoined (g : Graph) : Prop where
  ids : ∀ n ∈ g.nodes, Text.IsJoined n.id
  payloads : ∀ n ∈ g.nodes, ∀ v, n.payload.dump = .ok v → v.IsJoined
  edges : ∀ e ∈ g.edges, e.toValue.IsJoined

/-- Whether the payloads of a graph are regular. -/
def Graph.IsRegular (g : Graph) : Prop :=
  ∀ n ∈ g.nodes, n.payload.toValue.IsRegular

/-! ### Similar states -/

section Similar

variable {a b : Node} {as bs : List Node} {s t : EditorState}

lemma Node.similar_eq_true_iff : a.similar b = .ok true ↔ a.id = b.id ∧ a.type = b.type ∧
    nearby a.position.x b.position.x = true ∧ nearby a.position.y b.position.y = true ∧
      ∃ v w, a.payload.dump = .ok v ∧ b.payload.dump = .ok w ∧ v.equal w = true := by
  have hnear : (a.id = b.id && a.type = b.type && nearby a.position.x b.position.x
      && nearby a.position.y b.position.y) = true ↔ a.id = b.id ∧ a.type = b.type ∧
        nearby a.position.x b.position.x = true ∧ nearby a.position.y b.position.y = true := by
    simp only [Bool.and_eq_true, decide_eq_true_iff, and_assoc]
  rw [similar]
  cases a.payload.dump <;> cases b.payload.dump <;> split_ifs with h <;>
    rw [hnear] at h <;> simp [bind, Except.bind] <;> grind

lemma similarNodes_eq_true_iff (h : as.length = bs.length) : similarNodes as bs = .ok true ↔
    List.Forall₂ (fun a b => a.similar b = .ok true) as bs := by
  induction as generalizing bs with
  | nil =>
    obtain rfl := List.length_eq_zero_iff.1 h.symm
    exact iff_of_true rfl .nil
  | cons a as ih =>
    cases bs with
    | nil => cases h
    | cons b bs =>
      rw [List.forall₂_cons, ← ih (Nat.succ.inj h), similarNodes]
      cases hfirst : a.similar b with
      | error reason => simp [bind, Except.bind]
      | ok same => cases same <;> simp [bind, Except.bind]

/-- States are similar if their nodes are, one by one, and their edges are the same. -/
lemma EditorState.similar_eq_true_iff : s.similar t = .ok true ↔
    List.Forall₂ (fun a b => a.similar b = .ok true) s.graph.nodes t.graph.nodes ∧
      s.graph.edges = t.graph.edges := by
  rw [similar]
  split_ifs with hlength
  · rw [← similarNodes_eq_true_iff hlength.1]
    cases similarNodes s.graph.nodes t.graph.nodes with
    | error reason => simp [Except.map]
    | ok same => simp [Except.map]
  · refine iff_of_false nofun fun h => hlength ⟨h.1.length_eq, ?_⟩
    rw [h.2]

end Similar

/-! ### States of one fingerprint -/

section Fingerprint

variable {a b : Node} {as bs : List Node} {v : Value} {vs : List Value} {s t : EditorState}
  {text : String}

/-- A list is read item by item. -/
lemma mapM_eq_ok_iff {ε α β : Type} {read : α → Except ε β} {items : List α} {values : List β} :
    items.mapM read = .ok values ↔ List.Forall₂ (fun a b => read a = .ok b) items values := by
  induction items generalizing values with
  | nil => cases values <;> simp [pure, Except.pure]
  | cons a items ih =>
    rw [List.mapM_cons]
    cases ha : read a with
    | error reason => cases values <;> simp [ha, bind, Except.bind]
    | ok b =>
      cases hitems : items.mapM read with
      | error reason => cases values <;> simp [← ih, ha, hitems, bind, Except.bind]
      | ok rest =>
        cases values <;> simp [← ih, ha, hitems, bind, Except.bind, pure, Except.pure]

lemma forall₂_comp_iff {α β γ : Type} {R : α → β → Prop} {S : β → γ → Prop} {as : List α}
    {cs : List γ} : List.Forall₂ (Relation.Comp R S) as cs ↔
      ∃ bs, List.Forall₂ R as bs ∧ List.Forall₂ S bs cs := by
  constructor
  · intro h
    induction h with
    | nil => exact ⟨[], .nil, .nil⟩
    | cons hfirst _ ih =>
      obtain ⟨b, hR, hS⟩ := hfirst
      obtain ⟨bs, hRs, hSs⟩ := ih
      exact ⟨b :: bs, .cons hR hRs, .cons hS hSs⟩
  · rintro ⟨bs, hRs, hSs⟩
    induction hRs generalizing cs with
    | nil =>
      cases hSs
      exact .nil
    | cons hR _ ih =>
      cases hSs with
      | cons hS hSs => exact .cons ⟨_, hR, hS⟩ (ih hSs)

lemma Node.simplified_eq_ok_iff : a.simplified = .ok v ↔ ∃ x y data,
    roundHalfUp a.position.x = .ok x ∧ roundHalfUp a.position.y = .ok y ∧
      a.payload.dump = .ok data ∧ v = .object [("id", .str a.id), ("type", .str a.type.name),
        ("position", .object [("x", .int x), ("y", .int y)]), ("data", data)] := by
  cases hx : roundHalfUp a.position.x <;> cases hy : roundHalfUp a.position.y <;>
    cases hdata : a.payload.dump <;>
      simp [simplified, hx, hy, hdata, Except.mapError, bind, Except.bind, eq_comm]

lemma Node.sameDocument_iff {x y x' y' : Int} {data data' : Value} :
    (Value.object [("id", .str a.id), ("type", .str a.type.name),
        ("position", .object [("x", .int x), ("y", .int y)]), ("data", data)]).SameDocument
      (.object [("id", .str b.id), ("type", .str b.type.name),
        ("position", .object [("x", .int x'), ("y", .int y')]), ("data", data')]) ↔
      Text.joined a.id = Text.joined b.id ∧ a.type = b.type ∧ x = x' ∧ y = y' ∧
        data.SameDocument data' := by
  have htype : Text.joined a.type.name = Text.joined b.type.name ↔ a.type = b.type := by
    rw [Text.joined_eq_self (by cases a.type <;> decide),
      Text.joined_eq_self (by cases b.type <;> decide)]
    refine ⟨fun h => Option.some.inj ?_, congrArg _⟩
    rw [← NodeType.ofName?_name, ← NodeType.ofName?_name, h]
  simp [Value.SameDocument, Value.joined, Value.joinedMembers, htype, and_assoc]

lemma Payload.text_eq_iff {p q : Payload} (h : p.dump = .ok v) :
    p.text = q.text ↔ ∃ w, q.dump = .ok w ∧ v.SameDocument w := by
  cases hq : q.dump <;> simp [text, h, hq, Except.map, Json.write_fingerprint_eq_iff]

/-- Two nodes repeat each other if they become the same document in a fingerprint. -/
lemma Node.repeats_iff (ha : a.simplified = .ok v) :
    a.Repeats b ↔ ∃ w, b.simplified = .ok w ∧ v.SameDocument w := by
  obtain ⟨x, y, data, hx, hy, hdata, rfl⟩ := simplified_eq_ok_iff.1 ha
  constructor
  · intro h
    obtain ⟨data', hdata', hsame⟩ := (Payload.text_eq_iff hdata).1 h.payload
    exact ⟨_, simplified_eq_ok_iff.2 ⟨x, y, data', h.x ▸ hx, h.y ▸ hy, hdata', rfl⟩,
      sameDocument_iff.2 ⟨h.id, h.type, rfl, rfl, hsame⟩⟩
  · rintro ⟨w, hb, hsame⟩
    obtain ⟨x', y', data', hx', hy', hdata', rfl⟩ := simplified_eq_ok_iff.1 hb
    obtain ⟨hid, htype, rfl, rfl, hdocument⟩ := sameDocument_iff.1 hsame
    exact ⟨hid, htype, hx.trans hx'.symm, hy.trans hy'.symm,
      (Payload.text_eq_iff hdata).2 ⟨data', hdata', hdocument⟩⟩

lemma Edge.joined_toValue (e : Edge) : e.toValue.joined = e.joined.toValue := by
  simp (disch := decide) only [toValue, joined, Value.joined, Value.joinedMembers,
    Text.joined_eq_self]

lemma Edge.toValue_injective : Function.Injective Edge.toValue := by
  rintro ⟨id, source, target⟩ ⟨id', source', target'⟩ h
  simpa [toValue] using h

lemma Edge.joined_eq_self {e : Edge} (h : e.toValue.IsJoined) : e.joined = e :=
  toValue_injective (by rw [← joined_toValue, Value.joined_eq_self h])

/-- What a fingerprint is the text of. -/
def EditorState.fingerprinted (s : EditorState) (nodes : List Value) : Value :=
  .object [("nodes", .list nodes), ("edges", .list (s.graph.edges.map Edge.toValue))]

lemma EditorState.fingerprint_eq_ok_iff : s.fingerprint = .ok text ↔ ∃ nodes,
    List.Forall₂ (fun n v => n.simplified = .ok v) s.graph.nodes nodes ∧
      text = Json.write .fingerprint (s.fingerprinted nodes) := by
  simp only [← mapM_eq_ok_iff, fingerprint, fingerprinted]
  cases s.graph.nodes.mapM Node.simplified <;> simp [bind, Except.bind, eq_comm]

lemma Node.forall₂_repeats_iff (h : List.Forall₂ (fun n v => n.simplified = .ok v) as vs) :
    List.Forall₂ Node.Repeats as bs ↔ ∃ ws, List.Forall₂ Value.SameDocument vs ws ∧
      List.Forall₂ (fun w n => n.simplified = .ok w) ws bs := by
  rw [← forall₂_comp_iff]
  induction h generalizing bs with
  | nil => simp
  | cons ha _ ih => cases bs <;> simp [repeats_iff ha, ih, Relation.Comp, and_comm]

lemma EditorState.sameDocument_fingerprinted_iff {ws : List Value} :
    (s.fingerprinted vs).SameDocument (t.fingerprinted ws) ↔
      List.Forall₂ Value.SameDocument vs ws ∧
        s.graph.edges.map Edge.joined = t.graph.edges.map Edge.joined := by
  have hedges : ∀ es : List Edge, (es.map Edge.toValue).map Value.joined
      = (es.map Edge.joined).map Edge.toValue := by
    simp [Edge.joined_toValue]
  simp only [fingerprinted, Value.SameDocument, Value.joined, Value.joinedMembers,
    Value.joinedItems_eq_map, hedges, Value.object.injEq, List.cons.injEq, Prod.mk.injEq,
    Value.list.injEq, true_and, and_true, Edge.toValue_injective.list_map.eq_iff,
    Value.forall₂_sameDocument_iff]

/-- States have the same fingerprint if they repeat each other. -/
lemma EditorState.fingerprint_eq_iff (htext : s.fingerprint = .ok text) :
    t.fingerprint = .ok text ↔ List.Forall₂ Node.Repeats s.graph.nodes t.graph.nodes ∧
      s.graph.edges.map Edge.joined = t.graph.edges.map Edge.joined := by
  obtain ⟨vs, hvs, rfl⟩ := fingerprint_eq_ok_iff.1 htext
  rw [Node.forall₂_repeats_iff hvs, fingerprint_eq_ok_iff]
  simp only [Json.write_fingerprint_eq_iff, sameDocument_fingerprinted_iff]
  constructor
  · rintro ⟨ws, hws, hsame, hedges⟩
    exact ⟨⟨ws, hsame, hws.flip⟩, hedges⟩
  · rintro ⟨⟨ws, hsame, hws⟩, hedges⟩
    exact ⟨ws, hws.flip, hsame, hedges⟩

end Fingerprint

/-! ### Repetitions are similar -/

section Repeats

variable {a b : Node} {s t : EditorState} {text : String}

/-- Coordinates of one whole unit are no more than one unit apart. -/
lemma Node.Repeats.jitters (h : a.Repeats b) (ha : a.position.IsFinite)
    (hdump : ∃ data, a.payload.dump = .ok data) : a.Jitters b := by
  obtain ⟨x, hx⟩ := Double.exists_roundHalfUp_iff.2 ha.1
  obtain ⟨y, hy⟩ := Double.exists_roundHalfUp_iff.2 ha.2
  obtain ⟨data, hdata⟩ := hdump
  obtain ⟨data', hdata', hsame⟩ := (Payload.text_eq_iff hdata).1 h.payload
  exact ⟨h.id, h.type, Double.abs_sub_le_one_of_roundHalfUp hx (h.x ▸ hx),
    Double.abs_sub_le_one_of_roundHalfUp hy (h.y ▸ hy), data, data', hdata, hdata', hsame⟩

/-- A node that jitters is similar if its id and its payload have the very same texts. -/
lemma Node.Jitters.similar (h : a.Jitters b) (ha : a.position.IsFinite) (hb : b.position.IsFinite)
    (hpayload : a.payload.toValue.IsRegular) (hid : a.id = b.id)
    (hdump : a.payload.dump = b.payload.dump) : a.similar b = .ok true := by
  obtain ⟨data, -, hdata, -, -⟩ := h.payload
  exact Node.similar_eq_true_iff.2 ⟨hid, h.type, Double.nearby_of_abs_sub_le ha.1 hb.1 h.x,
    Double.nearby_of_abs_sub_le ha.2 hb.2 h.y, data, data, hdata, hdump ▸ hdata,
    (Payload.isRegular_of_dump hpayload hdata).equal_self⟩

/-- Nodes that jitter have the very same texts if no text of them holds a pair as two halves. -/
lemma Node.Jitters.spelledLike (h : a.Jitters b) (hids : Text.IsJoined a.id ∧ Text.IsJoined b.id)
    (ha : ∀ v, a.payload.dump = .ok v → v.IsJoined)
    (hb : ∀ v, b.payload.dump = .ok v → v.IsJoined) :
    a.id = b.id ∧ a.payload.dump = b.payload.dump := by
  obtain ⟨v, w, hv, hw, hsame⟩ := h.payload
  have hid := h.id
  rw [Text.joined_eq_self hids.1, Text.joined_eq_self hids.2] at hid
  obtain rfl := (Value.sameDocument_iff_eq (ha v hv) (hb w hw)).1 hsame
  exact ⟨hid, hv.trans hw.symm⟩

namespace EditorState

/-- The nodes of states of one fingerprint at most jitter. -/
lemma jitters_of_fingerprint_eq (htext : s.fingerprint = .ok text)
    (htext' : t.fingerprint = .ok text) : s.Jitters t := by
  obtain ⟨hrepeats, hedges⟩ := (fingerprint_eq_iff htext).1 htext'
  obtain ⟨hfinite, hvisible⟩ := fingerprint_ok_iff.1 ⟨text, htext⟩
  have hnodes := (List.forall₂_and_left s.graph.nodes t.graph.nodes).2
    ⟨fun n hn => And.intro (hfinite n hn) (Graph.isVisible_iff.1 hvisible n hn), hrepeats⟩
  exact ⟨hnodes.imp fun a b h => h.2.jitters h.1.1 h.1.2, hedges⟩

lemma Jitters.similar (h : s.Jitters t) (hs : s.IsFinite) (ht : t.IsFinite)
    (hregular : s.graph.IsRegular) (hspelled : s.SpelledLike t) : s.similar t = .ok true := by
  obtain ⟨hlength, hjitters⟩ := List.forall₂_iff_zip.1 h.nodes
  refine similar_eq_true_iff.2 ⟨List.forall₂_iff_zip.2 ⟨hlength, fun hab => ?_⟩, hspelled.edges⟩
  obtain ⟨ha, hb⟩ := List.of_mem_zip hab
  obtain ⟨hid, hdump⟩ := (List.forall₂_iff_zip.1 hspelled.nodes).2 hab
  exact (hjitters hab).similar (hs _ ha) (ht _ hb) (hregular _ ha) hid hdump

lemma Jitters.spelledLike (h : s.Jitters t) (hs : s.graph.IsJoined) (ht : t.graph.IsJoined) :
    s.SpelledLike t := by
  obtain ⟨hlength, hjitters⟩ := List.forall₂_iff_zip.1 h.nodes
  constructor
  · refine List.forall₂_iff_zip.2 ⟨hlength, fun hab => ?_⟩
    obtain ⟨ha, hb⟩ := List.of_mem_zip hab
    exact (hjitters hab).spelledLike ⟨hs.ids _ ha, ht.ids _ hb⟩ (hs.payloads _ ha)
      (ht.payloads _ hb)
  · have hedges := h.edges
    rwa [List.map_congr_left fun e he => Edge.joined_eq_self (hs.edges e he),
      List.map_congr_left fun e he => Edge.joined_eq_self (ht.edges e he), List.map_id',
      List.map_id'] at hedges

/--
States of one fingerprint have the same nodes in the same order, none of them moved by more than one
unit on either axis, with the same payloads, and the same edges, where a surrogate pair that a text
holds as two halves counts as the character that it stands for. They are similar unless they differ
in such a pair, which two states without such halves cannot. So a recording that is dropped as a
repetition drops a state that is similar to the newest one of history, unless it differs from that
one in such a pair.
-/
theorem similar_of_repeated :
    (∀ (s t : EditorState) (text : String), s.fingerprint = .ok text → t.fingerprint = .ok text →
      s.Jitters t ∧ (s.graph.IsRegular → s.SpelledLike t → s.similar t = .ok true)) ∧
    (∀ s t : EditorState, s.graph.IsJoined → t.graph.IsJoined → s.Jitters t → s.SpelledLike t) ∧
    ∀ e : Editor, e.state.graph.IsRegular → (e.recordState false).answer = .ok false →
      ∃ s newest older, e.snapshot = .ok s ∧ e.past = newest :: older ∧ s.Jitters newest ∧
        (s.SpelledLike newest → s.similar newest = .ok true) := by
  have hsimilar : ∀ (s t : EditorState) (text : String), s.fingerprint = .ok text →
      t.fingerprint = .ok text → s.Jitters t ∧
        (s.graph.IsRegular → s.SpelledLike t → s.similar t = .ok true) := by
    intro s t text htext htext'
    have hjitters := jitters_of_fingerprint_eq htext htext'
    exact ⟨hjitters, hjitters.similar (fingerprint_ok_iff.1 ⟨text, htext⟩).1
      (fingerprint_ok_iff.1 ⟨text, htext'⟩).1⟩
  refine ⟨hsimilar, fun s t hs ht h => h.spelledLike hs ht, fun e hregular hdropped => ?_⟩
  obtain ⟨s, hsnapshot, hunchanged⟩ := (Editor.recordState_answer_ok_iff e false).1 hdropped
  obtain ⟨newest, hnewest, text, htext, htext'⟩ := Editor.unchanged_eq_true_iff.1 hunchanged
  obtain ⟨older, holder⟩ := List.head?_eq_some_iff.1 hnewest
  obtain ⟨hjitters, hspelled⟩ := hsimilar s newest text htext htext'
  exact ⟨s, newest, older, hsnapshot, holder, hjitters,
    hspelled ((Editor.snapshot_eq_ok hsnapshot).1 ▸ hregular)⟩

end EditorState

/-- A state with one node, which stands somewhere on the first axis. -/
def EditorState.standingAt (x : Float) : EditorState :=
  { graph := ⟨[⟨"a", ⟨x, 0⟩, .standard .finish⟩], []⟩ }

/-- An editor in which a node was moved after its state was recorded. -/
def Editor.moved (x y : Float) : Editor :=
  { state := .standingAt y, past := [.standingAt x] }

/-- A node that is moved by less than half a unit around a whole one was not moved for history. -/
theorem EditorState.similar_of_repeated_jitter :
    (standingAt 10.3).similar (standingAt 9.8) = .ok true ∧
      ((Editor.moved 9.8 10.3).recordState false).answer = .ok false ∧
      ∃ s newest older, (Editor.moved 9.8 10.3).snapshot = .ok s ∧
        (Editor.moved 9.8 10.3).past = newest :: older ∧ s.similar newest = .ok true := by
  have hregular : (standingAt 10.3).graph.IsRegular := by
    refine List.forall_mem_singleton.2 (.object (by decide) fun m hm => ?_)
    simp only [Payload.members, Payload.known, Payload.standard, Payload.extras, List.append_nil,
      List.mem_cons, List.not_mem_nil, or_false] at hm
    rcases hm with rfl | rfl
    · exact .str _
    · exact .null
  have hspelled : (standingAt 10.3).SpelledLike (standingAt 9.8) := ⟨.cons ⟨rfl, rfl⟩ .nil, rfl⟩
  obtain ⟨text, htext⟩ : ∃ text, (standingAt 10.3).fingerprint = .ok text := ⟨_, rfl⟩
  have htext' : (standingAt 9.8).fingerprint = .ok text := by
    refine (fingerprint_eq_iff htext).2 ⟨.cons ?_ .nil, rfl⟩
    exact ⟨rfl, rfl, by decide, rfl, rfl⟩
  have hdropped : ((Editor.moved 9.8 10.3).recordState false).answer = .ok false :=
    (Editor.recordState_answer_ok_iff _ false).2 ⟨standingAt 10.3, rfl,
      Editor.unchanged_eq_true_iff.2 ⟨standingAt 9.8, rfl, text, htext, htext'⟩⟩
  obtain ⟨s, newest, older, hsnapshot, hpast, -, hsimilar⟩ :=
    similar_of_repeated.2.2 (Editor.moved 9.8 10.3) hregular hdropped
  obtain rfl : standingAt 10.3 = s := Except.ok.inj hsnapshot
  obtain ⟨rfl, rfl⟩ : standingAt 9.8 = newest ∧ [] = older := List.cons.inj hpast
  exact ⟨(similar_of_repeated.1 _ _ text htext htext').2 hregular hspelled, hdropped,
    _, _, _, rfl, rfl, hsimilar hspelled⟩

/-- A state with one end node, which has received some value. -/
def EditorState.received (v : Value) : EditorState :=
  { graph := ⟨[⟨"a", ⟨0, 0⟩, .finish ⟨"End", v, []⟩⟩], []⟩ }

/-- An editor in which an end node received another value after its state was recorded. -/
def Editor.receivedAfter (v w : Value) : Editor :=
  { state := .received w, past := [.received v] }

lemma Payload.text_splitPair : (Payload.finish ⟨"End", .str "😀", []⟩).text
    = (Payload.finish ⟨"End", .str Text.splitPair, []⟩).text := by
  refine (Payload.text_eq_iff rfl).2 ⟨_, rfl, ?_⟩
  simp only [Value.SameDocument, Value.joined, Value.joinedMembers, List.append_nil,
    Text.joined_splitPair]

/--
States that differ in that one holds a surrogate pair as two halves have the same fingerprint, but
they are not similar. And a recording is dropped although an infinity was put in the place of
`null`, which it is in the JSON document of its payload.
-/
theorem EditorState.repeated_but_different :
    (∃ text, (received (.str "😀")).fingerprint = .ok text ∧
      (received (.str Text.splitPair)).fingerprint = .ok text) ∧
    (received (.str "😀")).similar (received (.str Text.splitPair)) = .ok false ∧
    ((Editor.receivedAfter .null (.float Double.infinity)).recordState false).answer = .ok false ∧
    received (.float Double.infinity) ≠ received .null := by
  have hpair : ∃ text, (received (.str "😀")).fingerprint = .ok text ∧
      (received (.str Text.splitPair)).fingerprint = .ok text := by
    obtain ⟨text, htext⟩ : ∃ text, (received (.str "😀")).fingerprint = .ok text := ⟨_, rfl⟩
    exact ⟨text, htext, (fingerprint_eq_iff htext).2
      ⟨.cons ⟨rfl, rfl, rfl, rfl, Payload.text_splitPair⟩ .nil, rfl⟩⟩
  exact ⟨hpair, by decide, rfl, by simp [received]⟩

end Repeats

/-! ### Not all that is similar repeats -/

namespace Editor

variable {e : Editor} {s newest : EditorState} {older : List EditorState}

end Editor

end Workflow
