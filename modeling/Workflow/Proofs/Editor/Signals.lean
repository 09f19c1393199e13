import Workflow.Proofs.Editor.Burst
import Workflow.Proofs.Editor.Dropping
import Workflow.Proofs.Json.Doubles

/-!
# What the recorder's signals tell

The recorder watches the number of nodes, the number of edges, and the JSON texts of the payloads,
joined by bars. From the joined text each payload's own text is known, and from that which document
the payload is, and the type of the node. So no change but one of positions escapes the recorder,
unless a whole graph takes the place of another one that has as many edges and, node for node, the
same payloads: then the ids and the wiring may be others.
-/

namespace Workflow

/-- Whether two graphs have as many edges and, node for node, payloads of the same texts. -/
structure Graph.LooksLike (g h : Graph) : Prop where
  payloads : g.nodes.map (fun n => n.payload.text) = h.nodes.map fun n => n.payload.text
  edges : g.edges.length = h.edges.length

section Payloads

variable {p q : Payload} {v : Value} {text : String}

namespace Payload

lemma text_eq_ok_iff :
    p.text = .ok text ↔ ∃ v, p.dump = .ok v ∧ Json.write .fingerprint v = text := by
  cases hdump : p.dump <;> simp [Payload.text, hdump, Except.map]

end Payload

end Payloads

/-! ### Graphs -/

namespace Graph

variable {g h : Graph} {s t : Signals}

/-- The signals of a graph are made of the documents of its payloads. -/
lemma signals_eq_ok_iff : g.signals = .ok s ↔ ∃ vs : List Value,
    List.Forall₂ (fun n v => n.payload.dump = .ok v) g.nodes vs ∧
      s = ⟨g.nodes.length, g.edges.length, "|".intercalate (vs.map (Json.write .fingerprint))⟩ := by
  have hdumps : ∀ vs, List.Forall₂ (fun n v => n.payload.dump = .ok v) g.nodes vs ↔
      (g.nodes.mapM fun n => n.payload.dump) = .ok vs := fun _ => mapM_eq_ok_iff.symm
  simp only [hdumps, signals]
  cases g.nodes.mapM fun n => n.payload.dump with
  | error reason => simp [bind, Except.bind]
  | ok vs => simp [bind, Except.bind, eq_comm]

/-- The signals of a graph are made of the texts of its payloads. -/
lemma exists_texts (hg : g.signals = .ok s) : ∃ texts : List String,
    g.nodes.map (fun n => n.payload.text) = texts.map .ok ∧
      (∀ text ∈ texts, Json.Sealed text.toList) ∧
      s = ⟨g.nodes.length, g.edges.length, "|".intercalate texts⟩ := by
  obtain ⟨vs, hvs, rfl⟩ := signals_eq_ok_iff.1 hg
  refine ⟨vs.map (Json.write .fingerprint), ?_,
    List.forall_mem_map.2 fun v _ => Json.sealed_writeAt v 0, rfl⟩
  rw [List.map_map, ← List.forall₂_eq_eq_eq, List.forall₂_map_left_iff,
    List.forall₂_map_right_iff]
  exact hvs.imp fun n v hv => Payload.text_eq_ok_iff.2 ⟨v, hv, rfl⟩

/-- Two graphs have the same signals if and only if they look alike. -/
lemma signals_eq_iff (hg : g.signals = .ok s) (hh : h.signals = .ok t) : s = t ↔ g.LooksLike h := by
  obtain ⟨texts, htexts, hsealed, rfl⟩ := exists_texts hg
  obtain ⟨texts', htexts', hsealed', rfl⟩ := exists_texts hh
  have hok : Function.Injective (Except.ok : String → Except DumpFault String) :=
    fun _ _ => Except.ok.inj
  have hlength : ∀ {g : Graph} {texts : List String},
      g.nodes.map (fun n => n.payload.text) = texts.map .ok → g.nodes.length = texts.length :=
    fun h => by simpa using congrArg List.length h
  constructor
  · intro hsame
    simp only [Signals.mk.injEq] at hsame
    obtain ⟨hnodes, hedges, hjoined⟩ := hsame
    have hcount : texts.length = texts'.length :=
      (hlength htexts).symm.trans (hnodes.trans (hlength htexts'))
    obtain rfl := Json.intercalate_bar_injective hsealed hsealed'
      (by rw [← List.length_eq_zero_iff, hcount, List.length_eq_zero_iff]) hjoined
    exact ⟨htexts.trans htexts'.symm, hedges⟩
  · rintro ⟨hpayloads, hedges⟩
    obtain rfl : texts = texts' :=
      List.map_injective_iff.2 hok (htexts.symm.trans (hpayloads.trans htexts'))
    rw [hlength htexts, hlength htexts', hedges]

/-- Nodes whose payloads are the same documents one by one. -/
lemma forall₂_sameDocument_iff {as bs : List Node} :
    List.Forall₂ (fun a b => a.payload.SameDocument b.payload) as bs ↔ ∃ vs,
      List.Forall₂ (fun n v => n.payload.dump = .ok v) as vs ∧ ∃ ws,
      List.Forall₂ Value.SameDocument vs ws ∧
      List.Forall₂ (fun n v => n.payload.dump = .ok v) bs ws := by
  have hcomp : (fun a b : Node => a.payload.SameDocument b.payload)
      = Relation.Comp (fun n v => n.payload.dump = .ok v)
        (Relation.Comp Value.SameDocument fun w n => n.payload.dump = .ok w) := by
    funext a b
    simp [Payload.SameDocument, Relation.Comp, and_comm]
  have hflip : ∀ ws, List.Forall₂ (fun w n => n.payload.dump = .ok w) ws bs ↔
      List.Forall₂ (fun n v => n.payload.dump = .ok v) bs ws := fun ws =>
    ⟨List.Forall₂.flip, List.Forall₂.flip⟩
  rw [hcomp]
  simp only [forall₂_comp_iff, hflip]

/--
**The signals of two graphs are the same if and only if the graphs have as many edges and, node for
node, payloads that are the same JSON documents.** Documents that are joined by bars never look like
others, whatever strings they contain. To be the same document is to be equal, but for a surrogate
pair that a string holds as two halves.
-/
theorem signals_eq_iff_sameDocument (g h : Graph) :
    ((∃ s, g.signals = .ok s ∧ h.signals = .ok s) ↔ g.edges.length = h.edges.length ∧
      List.Forall₂ (fun a b => a.payload.SameDocument b.payload) g.nodes h.nodes) ∧
    (∀ vs ws : List Value, "|".intercalate (vs.map (Json.write .fingerprint))
        = "|".intercalate (ws.map (Json.write .fingerprint)) ↔
      List.Forall₂ Value.SameDocument vs ws) ∧
    ∀ v w : Value, v.IsJoined → w.IsJoined → (v.SameDocument w ↔ v = w) := by
  refine ⟨⟨fun ⟨s, hg, hh⟩ => ?_, fun ⟨hedges, hsame⟩ => ?_⟩,
    fun _ _ => Json.intercalate_write_eq_iff, fun _ _ => Value.sameDocument_iff_eq⟩
  · obtain ⟨vs, hvs, rfl⟩ := signals_eq_ok_iff.1 hg
    obtain ⟨ws, hws, heq⟩ := signals_eq_ok_iff.1 hh
    obtain ⟨-, hedges, htext⟩ := Signals.mk.inj heq
    exact ⟨hedges,
      forall₂_sameDocument_iff.2 ⟨vs, hvs, ws, Json.intercalate_write_eq_iff.1 htext, hws⟩⟩
  · obtain ⟨vs, hvs, ws, hsames, hws⟩ := forall₂_sameDocument_iff.1 hsame
    refine ⟨_, signals_eq_ok_iff.2 ⟨vs, hvs, rfl⟩, signals_eq_ok_iff.2 ⟨ws, hws, ?_⟩⟩
    rw [hsame.length_eq, hedges, Json.intercalate_write_eq_iff.2 hsames]

/--
A surrogate pair as two halves and the character look alike, though the texts are not the same, and
so do an infinity and `null`.
-/
theorem signals_of_different :
    (∃ s, (EditorState.received (.str "😀")).graph.signals = .ok s ∧
      (EditorState.received (.str Text.splitPair)).graph.signals = .ok s) ∧
    (EditorState.received (.str "😀")).graph.nodes.map (fun n => n.payload.dump)
      ≠ (EditorState.received (.str Text.splitPair)).graph.nodes.map (fun n => n.payload.dump) ∧
    ∃ s, (EditorState.received (.float Double.infinity)).graph.signals = .ok s ∧
      (EditorState.received .null).graph.signals = .ok s := by
  obtain ⟨s, hs⟩ : ∃ s, (EditorState.received (.str "😀")).graph.signals = .ok s := ⟨_, rfl⟩
  obtain ⟨t, ht⟩ : ∃ t, (EditorState.received (.str Text.splitPair)).graph.signals = .ok t :=
    ⟨_, rfl⟩
  have hsame : s = t :=
    (signals_eq_iff hs ht).2 ⟨congrArg (fun text => [text]) Payload.text_splitPair, rfl⟩
  have hne : "😀" ≠ Text.splitPair := by decide
  refine ⟨⟨s, hs, hsame ▸ ht⟩, fun h => hne ?_, _, rfl, rfl⟩
  simpa [EditorState.received, Payload.dump, Payload.dumpWithin, Payload.extras, Value.dump,
    Value.dumpMembers, maxDepth, bind, Except.bind] using h

end Graph

namespace Editor

variable {e : Editor} {op : Operation} {state : EditorState} {misfits : Misfits}

/-! ### Operations -/

/-- A workflow of a start node and two end nodes, of which one is joined to it. -/
def forked (target : String) : Export where
  graph :=
    { nodes := [⟨"a", ⟨0, 0⟩, .start ⟨"Start", "1", []⟩⟩, ⟨"b", ⟨0, 0⟩, .finish ⟨"End", .null, []⟩⟩,
        ⟨"c", ⟨0, 0⟩, .finish ⟨"End", .null, []⟩⟩]
      edges := [.between "a" target] }
  version := exportVersion
  timestamp := 0

/-- An editor that was given such a workflow and has recorded it. -/
def imported : Editor :=
  ((new {} false 0).perform (.importExport (forked "b"))).perform .endAction

end Editor

end Workflow
