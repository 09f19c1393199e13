import Workflow.Proofs.Graph.Payload
import Workflow.Proofs.Json.Distinct

/-!
# Graphs that are read

What is said of a document and of all its parts is said of the mappings that payloads are read from.
So whatever payloads have in common that are read from such mappings is said of all payloads of a
graph that is read. Above all, that is so for mappings that have members of distinct names.
-/

namespace Workflow

open Reading

/-- The members of each payload have distinct names. -/
def Graph.IsDistinct (g : Graph) : Prop :=
  ∀ n ∈ g.nodes, n.payload.IsDistinct

/-- The payload of each node is sound. -/
def Graph.IsSound (g : Graph) : Prop :=
  ∀ n ∈ g.nodes, n.payload.IsSound

/-- What is said of a document is said of its parts. -/
structure Document.IsInherited (Q : Document → Prop) : Prop where
  item : ∀ {items}, Q (.list items) → ∀ d ∈ items, Q d
  member : ∀ {members}, Q (.object members) → ∀ m ∈ members, Q m.2

/-- What payloads have in common that are read from documents of which something is said. -/
structure Payload.IsReadFrom (Q : Document → Prop) (P : Payload → Prop) : Prop
    extends Document.IsInherited Q where
  read : ∀ {ms t p}, Q (.object ms) → Payload.readMembers ms t = .ok p → P p

section Parts

variable {α : Type} {ms : Members} {name : String} {d : Document} {Q : Document → Prop}
  {P : Payload → Prop}

lemma Payload.IsCommon.isReadFrom (hP : Payload.IsCommon P) :
    Payload.IsReadFrom Document.IsDistinct P where
  item h := by
    cases h
    assumption
  member h := by
    cases h
    assumption
  read h hread := by
    cases h with
    | object hnames _ => exact hP.read _ _ _ hnames hread

lemma Members.inherits_of_find? (h : ∀ m ∈ ms, Q m.2) (hd : ms.find? name = some d) : Q d := by
  obtain ⟨before, after, rfl, -⟩ := List.lookup_eq_some_iff.1 hd
  exact h (.text name, d) (List.mem_append_right _ List.mem_cons_self)

/-- Every item that is read comes from an item of the document. -/
lemma Reading.exists_of_items {read : Document → Reading α} {start : Nat} {ds : List Document}
    {values : List α} (h : items read start ds = .ok values) {a : α} (ha : a ∈ values) :
    ∃ d ∈ ds, read d = .ok a := by
  induction ds generalizing start values with
  | nil =>
    obtain rfl : [] = values := Reading.ok.inj h
    cases ha
  | cons d ds ih =>
    obtain ⟨_, rest, hfirst, hrest, rfl⟩ := seq_eq_ok_iff.1 h
    obtain ⟨b, hb, rfl⟩ := map_eq_ok_iff.1 hfirst
    rcases List.mem_cons.1 ha with rfl | ha
    · exact ⟨d, List.mem_cons_self, within_eq_ok_iff.1 hb⟩
    · obtain ⟨d', hd', hread⟩ := ih hrest ha
      exact ⟨d', List.mem_cons_of_mem _ hd', hread⟩

/-! ### Nodes -/

lemma Payload.IsReadFrom.of_read (hP : Payload.IsReadFrom Q P) {t : NodeType} {p : Payload}
    (h : Payload.read t d = .ok p) (hd : Q d) : P p := by
  cases d with
  | object ms => exact hP.read hd h
  | _ => cases h

lemma Payload.IsReadFrom.of_readAny (hP : Payload.IsReadFrom Q P) {p : Payload}
    (h : Payload.readAny d = .ok p) (hd : Q d) : P p := by
  rw [readAny] at h
  split at h <;> cases h <;> exact hP.of_read ‹_› hd

lemma Node.payload_of_readParts {payload : Reading Payload} {n : Node}
    (h : Node.readParts ms payload = .ok n) : payload = .ok n.payload := by
  unfold readParts at h
  dsimp only at h
  generalize hparts :
    (_ <*> payload : Reading (String × NodeType × Position × Payload)) = parts at h
  cases parts with
  | failed issues => cases h
  | ok found =>
    obtain ⟨_, p, hthird, hp, rfl⟩ := seq_eq_ok_iff.1 hparts
    obtain ⟨_, position, hsecond, -, rfl⟩ := seq_eq_ok_iff.1 hthird
    obtain ⟨_, type, hfirst, -, rfl⟩ := seq_eq_ok_iff.1 hsecond
    obtain ⟨id, -, rfl⟩ := map_eq_ok_iff.1 hfirst
    simp only [andThen, join] at h
    split_ifs at h
    · obtain rfl := Reading.ok.inj h
      exact hp
    · cases h

lemma Payload.IsReadFrom.of_readNodeMembers (hP : Payload.IsReadFrom Q P) {n : Node}
    (h : Node.readMembers ms = .ok n) (hms : ∀ m ∈ ms, Q m.2) : P n.payload := by
  rw [Node.readMembers] at h
  split at h
  · next t data _ hdata =>
    cases hp : Payload.readMembers data t with
    | failed issues =>
      rw [hp] at h
      cases h
    | ok p =>
      rw [hp] at h
      obtain rfl : p = n.payload := Reading.ok.inj (Node.payload_of_readParts h)
      exact hP.read (Members.inherits_of_find? hms hdata) hp
  · obtain ⟨data, hdata, hp⟩ := Members.required_eq_ok_iff.1 (Node.payload_of_readParts h)
    exact hP.of_readAny hp (Members.inherits_of_find? hms hdata)

lemma Payload.IsReadFrom.of_readNode (hP : Payload.IsReadFrom Q P) {n : Node}
    (h : Node.read d = .ok n) (hd : Q d) : P n.payload := by
  cases d with
  | object ms => exact hP.of_readNodeMembers h (hP.member hd)
  | _ => cases h

/-! ### Saved workflows -/

lemma Payload.IsReadFrom.of_readGraph (hP : Payload.IsReadFrom Q P) {g : Graph}
    (h : Graph.readMembers ms = .ok g) (hms : ∀ m ∈ ms, Q m.2) :
    ∀ n ∈ g.nodes, P n.payload := by
  obtain ⟨_, edges, hfirst, -, rfl⟩ := seq_eq_ok_iff.1 h
  obtain ⟨nodes, hnodes, rfl⟩ := map_eq_ok_iff.1 hfirst
  intro n hn
  rcases Members.optional_eq_ok_iff.1 hnodes with ⟨d, hd, hread⟩ | ⟨-, rfl⟩
  · have hlist := Members.inherits_of_find? hms hd
    cases d with
    | null =>
      obtain rfl : [] = nodes := Reading.ok.inj hread
      cases hn
    | list items =>
      obtain ⟨item, hitem, hn⟩ := exists_of_items hread hn
      exact hP.of_readNode hn (hP.item hlist item hitem)
    | set names =>
      -- a name is no mapping, and so no node
      obtain ⟨item, hitem, hn⟩ := exists_of_items hread hn
      obtain ⟨key, -, rfl⟩ := List.mem_map.1 hitem
      cases key <;> cases hn
    | _ => cases hread
  · cases hn

lemma Payload.IsReadFrom.of_readExport (hP : Payload.IsReadFrom Q P) {now : Int} {w : Export}
    (h : Export.read now d = .ok w) (hd : Q d) : ∀ n ∈ w.graph.nodes, P n.payload := by
  cases d with
  | object ms =>
    obtain ⟨_, _, hfirst, -, rfl⟩ := seq_eq_ok_iff.1 h
    obtain ⟨_, _, hgraph, -, rfl⟩ := seq_eq_ok_iff.1 hfirst
    obtain ⟨g, hg, rfl⟩ := map_eq_ok_iff.1 hgraph
    exact hP.of_readGraph hg (hP.member hd)
  | _ => cases h

end Parts

end Workflow
