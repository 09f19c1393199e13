import Workflow.Proofs.Editor.Building
import Workflow.Proofs.Editor.Recording
import Workflow.Proofs.Graph.Distinct

/-!
# Updates as merges

An update of a node lays members over those of its payload. All payloads that an editor holds have
members of distinct names, so that each member is either given or stays. The one exception is what
an end node received, which an update looks for under another name than that under which it is
saved.
-/

namespace Workflow

/-- The first node of an id stands behind others of other ids, and is all that is changed. -/
lemma Graph.exists_changeFirst {id : String} {nodes : List Node} {n : Node}
    (h : nodes.find? (fun n => n.id = id) = some n) (change : Node → Node) :
    ∃ before after, nodes = before ++ n :: after ∧ (∀ m ∈ before, m.id ≠ id) ∧
      changeFirst id change nodes = before ++ change n :: after := by
  induction nodes with
  | nil => cases h
  | cons m nodes ih =>
    by_cases hm : m.id = id
    · obtain rfl : m = n := by simpa [hm] using h
      exact ⟨[], nodes, rfl, nofun, by rw [changeFirst, if_pos hm, List.nil_append]⟩
    · obtain ⟨before, after, rfl, hbefore, hchanged⟩ := ih (by simpa [hm] using h)
      refine ⟨m :: before, after, rfl, List.forall_mem_cons.2 ⟨hm, hbefore⟩, ?_⟩
      rw [changeFirst, if_neg hm, hchanged, List.cons_append]

lemma Graph.mem_changeFirst {id : String} {change : Node → Node} {nodes : List Node} {m : Node}
    (h : m ∈ changeFirst id change nodes) :
    m ∈ nodes ∨ ∃ n, nodes.find? (fun n => n.id = id) = some n ∧ m = change n := by
  induction nodes with
  | nil => cases h
  | cons k nodes ih =>
    rw [changeFirst] at h
    split_ifs at h with hk
    · rcases List.mem_cons.1 h with rfl | hm
      · exact .inr ⟨k, by simp [hk], rfl⟩
      · exact .inl (List.mem_cons_of_mem _ hm)
    · rcases List.mem_cons.1 h with rfl | hm
      · exact .inl List.mem_cons_self
      · simpa [hk, or_assoc] using Or.inr (ih hm)

namespace Editor

/-- Whether what an operation gives an editor has members of distinct names. -/
def Operation.GivesDistinct : Operation → Prop
  | .addNode _ _ data => data.IsDistinct
  | .importWorkflow d => d.IsDistinct
  | .replaceState s => s.graph.IsDistinct
  | .importExport w => w.graph.IsDistinct
  | _ => True

/--
Whether what an operation gives an editor has payloads of which `P` holds, or is a document whose
mappings have members of distinct names.
-/
def Operation.Gives (P : Payload → Prop) : Operation → Prop
  | .addNode _ _ data => data.IsDistinct
  | .importWorkflow d => d.IsDistinct
  | .replaceState s => ∀ n ∈ s.graph.nodes, P n.payload
  | .importExport w => ∀ n ∈ w.graph.nodes, P n.payload
  | _ => True

variable {e : Editor} {P : Payload → Prop}

/-! ### What all payloads have in common -/

lemma common_of_newNode (hP : Payload.IsCommon P) {id : String} {t : NodeType}
    {position : Position} {data : Document} {n : Node} (h : newNode id t position data = .ok n)
    (hdata : data.IsDistinct) : P n.payload := by
  obtain ⟨-, hstandard | ⟨members, rfl, hmembers⟩ | hany⟩ := of_newNode_eq_ok h
  · rw [hstandard]
    exact hP.standard t
  · cases hdata with
    | object hnames _ => exact hP.read _ _ _ hnames hmembers
  · exact hP.isReadFrom.of_readAny hany hdata

/-- What is stored is read from the JSON text in the editor's file. -/
lemma exists_of_stored {w : Export} (h : e.stored = .ok (some w)) : ∃ content text v,
    e.files.find? e.config.storage.path = some (.file content) ∧
      Text.decodeUtf8 content = .ok text ∧
      Json.read .file (Text.ofChars text.toList) = .ok v ∧
      Export.read e.time (.ofValue v) = .ok w := by
  unfold stored at h
  split at h
  · cases h
  · cases h
  · next loc hloc =>
    split at h
    · next content hcontent =>
      split at h
      · cases h
      · next text htext =>
        split at h
        · next found hread =>
          obtain rfl : found = w := by simpa using h
          unfold Reading.ofText at hread
          split at hread
          · next v hv =>
            refine ⟨content, text, v, ?_, htext, hv, hread⟩
            rw [Files.find?, hloc]
            exact hcontent
          · cases hread
        · cases h
    · cases h

/-- What is read from a file has members of distinct names, whatever is in the file. -/
lemma common_of_stored (hP : Payload.IsCommon P) {w : Export} (h : e.stored = .ok (some w)) :
    ∀ n ∈ w.graph.nodes, P n.payload := by
  obtain ⟨_, _, v, -, -, hv, hread⟩ := exists_of_stored h
  exact hP.isReadFrom.of_readExport hread (Json.isDistinct_of_read hv)

lemma common_step (hP : Payload.IsCommon P) (h : ∀ n ∈ e.state.graph.nodes, P n.payload)
    {op : Operation} (hop : op.Gives P) {state : EditorState} {misfits : Misfits}
    (hstep : e.Step op state misfits) : ∀ n ∈ state.graph.nodes, P n.payload := by
  cases hstep with
  | addNode _ _ hn =>
    intro m hm
    rcases List.mem_append.1 hm with hm | hm
    · exact h m hm
    · obtain rfl := List.mem_singleton.1 hm
      exact common_of_newNode hP hn hop
  | updateNode _ hp =>
    intro m hm
    rcases Graph.mem_changeFirst hm with hm | ⟨n, -, rfl⟩
    · exact h m hm
    · exact hP.update hp
  | moveNode =>
    intro m hm
    rcases Graph.mem_changeFirst hm with hm | ⟨n, hn, rfl⟩
    · exact h m hm
    · exact h n (List.mem_of_find?_eq_some hn)
  | deleteNode => exact fun m hm => h m (List.mem_of_mem_filter hm)
  | importWorkflow hw => exact hP.isReadFrom.of_readExport hw hop
  | replaceState | importExport => exact hop
  | clear => exact nofun
  | _ => exact h

/-- What all payloads have in common holds of those an editor holds, if it does of given ones. -/
lemma ReachableBy.common (hP : Payload.IsCommon P) (h : e.ReachableBy fun _ op => op.Gives P) :
    ∀ s ∈ e.states, ∀ n ∈ s.graph.nodes, P n.payload := by
  have hsteady : Steady (fun _ => True) fun s => ∀ n ∈ s.graph.nodes, P n.payload := by
    refine ⟨trivial, fun _ _ => trivial, fun _ _ hs => hs, fun x s _ hx hs => ?_⟩
    exact (snapshot_eq_ok hs).1 ▸ hx
  have hholds : e.Holds (fun _ => True) fun s => ∀ n ∈ s.graph.nodes, P n.payload :=
    h.holds hsteady nofun
      (fun _ _ _ _ hop hx hstep => ⟨trivial, common_step hP hx.state hop hstep⟩)
      fun _ _ _ hw => common_of_stored hP hw
  exact hholds.states

/-- All payloads that an editor holds have members of distinct names, if it was given no others. -/
lemma ReachableBy.isDistinct (h : e.ReachableBy fun _ op => op.GivesDistinct) :
    ∀ s ∈ e.states, s.graph.IsDistinct := by
  refine ReachableBy.common Payload.isCommon_isDistinct (h.mono fun _ op hop => ?_)
  cases op <;> exact hop

/-! ### Updates -/

lemma updateNode_eq {id : String} {n : Node} {changes : Members} {p : Payload}
    (hn : e.state.graph.find? id = some n) (hp : n.payload.update changes = .ok p) :
    e.updateNode id (.object changes) =
      { e with
        state := { e.state with
          graph := e.state.graph.changeNode id fun n => { n with payload := p } } }.announce
            .nodes := by
  simp only [updateNode, hn, read, hp]

/--
An update is a merge. It changes the payload of one node, the first of its id, and nothing else of
the graph, nor the selection, the flags and the history. The payload keeps its type. Each member
that is given is as it is given, but for a boolean that configures an operation, which is read as an
integer; each other member stays, and no member joins that is not given. What an end node received
is an exception. It is saved as `receivedPayload`, but kept as `received_payload` while it is
updated. So a given `receivedPayload` leaves what was there before as another member
`received_payload`, and the next update without it takes that member for what the node received.
-/
theorem updateNode_merges (h : e.ReachableBy fun _ op => op.GivesDistinct) {id : String} {n : Node}
    {changes : Members} {p : Payload} (hn : e.state.graph.find? id = some n)
    (hchanges : (changes.map Prod.fst).Nodup) (hp : n.payload.update changes = .ok p) :
    let x := (e.updateNode id (.object changes)).editor
    e.Undisturbed x ∧ x.misfits = e.misfits ∧
    x.state = { e.state with graph := { e.state.graph with nodes := x.state.graph.nodes } } ∧
    (∃ before after, e.state.graph.nodes = before ++ n :: after ∧ (∀ m ∈ before, m.id ≠ id) ∧
      x.state.graph.nodes = before ++ { n with payload := p } :: after) ∧
    p.type = n.type ∧
    (∀ name, (n.type = .finish → name ≠ "receivedPayload" ∧ name ≠ "received_payload") →
      p.members.lookup name = ((changes.find? name).map (Document.asMember n.type name)).or
        (n.payload.members.lookup name)) ∧
    (n.type = .finish → ∃ received, n.payload.members.lookup "receivedPayload" = some received ∧
      let kept := ((changes.find? "received_payload").map Document.toValue).getD
        ((n.payload.members.lookup "received_payload").getD received)
      p.members.lookup "receivedPayload" =
        some (((changes.find? "receivedPayload").map Document.toValue).getD kept) ∧
      p.members.lookup "received_payload" =
        if (changes.find? "receivedPayload").isSome then some kept else none) := by
  intro x
  have hdistinct : n.payload.IsDistinct :=
    h.isDistinct e.state List.mem_cons_self n (Graph.mem_of_find? hn)
  let g : Graph := e.state.graph.changeNode id fun n => { n with payload := p }
  have hstill : x.still = { e with state := { e.state with graph := g } }.still := by
    rw [show x = _ from congrArg Outcome.editor (updateNode_eq hn hp), still_announce]
  have hstate : x.state = { e.state with graph := g } := (congrArg Editor.state hstill :)
  obtain ⟨before, after, hnodes, hbefore, hchanged⟩ :=
    Graph.exists_changeFirst hn fun n => { n with payload := p }
  have hsame : e.Undisturbed (e.perform (.updateNode id (.object changes))) :=
    undisturbed_perform trivial
  refine ⟨hsame, (congrArg Editor.misfits hstill :), ?_, ⟨before, after, hnodes, hbefore, ?_⟩,
    Payload.type_of_readMembers hp, fun name hname => hdistinct.lookup_update hchanges hp hname,
    fun htype => hdistinct.lookup_update_received htype hchanges hp⟩
  · rw [hstate]
    rfl
  · rw [hstate]
    exact hchanged

/-- The only node of an editor is an end node that was given what it received. -/
def supplied : Editor :=
  ((new {} false 0).perform (.addNode (.str "end") .null .null)).perform
    (.updateNode "end-0-000000001" (.object [(.text "receivedPayload", .int 1)]))

/-- An end node that received `1`, with what it received before as another member. -/
def suppliedNode : Node where
  id := "end-0-000000001"
  payload := .finish { label := "End", received := .int 1, extras := [("received_payload", .null)] }

/-- Given a label, it gets that label, and what it received is what it received before. -/
theorem updateNode_merges_supplied :
    ∃ p, suppliedNode.payload.update [(.text "label", .str "x")] = .ok p ∧
      supplied.state.graph.nodes = [suppliedNode] ∧
      (supplied.updateNode "end-0-000000001"
        (.object [(.text "label", .str "x")])).editor.state.graph.nodes
          = [{ suppliedNode with payload := p }] ∧
      p.members.lookup "label" = some (.str "x") ∧
      p.members.lookup "receivedPayload" = some .null := by
  have hreachable : supplied.ReachableBy fun _ op => op.GivesDistinct :=
    ((ReachableBy.opened {} false 0 {} .standard).after _ .null).after _ trivial
  let changes : Members := [(.text "label", .str "x")]
  have hchanges : (changes.map Prod.fst).Nodup := List.nodup_singleton _
  have hnodes : supplied.state.graph.nodes = [suppliedNode] := rfl
  have hn : supplied.state.graph.find? "end-0-000000001" = some suppliedNode := rfl
  have hp : suppliedNode.payload.update changes
      = .ok (.finish { label := "x", received := .null }) := rfl
  obtain ⟨-, -, -, ⟨before, after, hsplit, -, hafter⟩, -, hmerge, hreceived⟩ :=
    updateNode_merges hreachable hn hchanges hp
  obtain ⟨received, -, hkept, -⟩ := hreceived rfl
  refine ⟨_, hp, hnodes, ?_, hmerge "label" (by decide), hkept⟩
  -- there is one node, so that none stands before it or behind it
  have hlength : before.length + (after.length + 1) = 1 := by
    simpa using (congrArg List.length (hnodes.symm.trans hsplit)).symm
  obtain rfl : before = [] := List.length_eq_zero_iff.1 (by omega)
  obtain rfl : after = [] := List.length_eq_zero_iff.1 (by omega)
  exact hafter

end Editor

end Workflow
