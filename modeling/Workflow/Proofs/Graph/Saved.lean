import Workflow.Proofs.Graph.Distinct
import Workflow.Proofs.Json.File

/-!
# Workflows are read as they were saved

A workflow that a file can hold is a JSON document as it is. From the document it is read again:
the members a payload knows under their names, and all others as the extra ones they were.
-/

namespace Workflow

open Reading

/-! ### Parts of a value that fits -/

namespace Value.Fits

variable {room depth : Nat} {items : List Value} {members : List (String × Value)}

lemma item (h : (Value.list items).Fits (room + 1)) : ∀ v ∈ items, v.Fits room := by
  cases h with
  | noItems => nofun
  | list h => exact h

lemma member (h : (Value.object members).Fits (room + 1)) : ∀ m ∈ members, m.2.Fits room := by
  cases h with
  | noMembers => nofun
  | object _ _ h => exact h

lemma nodup (h : (Value.object members).Fits room) : (members.map Prod.fst).Nodup := by
  cases h with
  | noMembers => exact List.nodup_nil
  | object hnames _ _ => exact hnames

lemma unbroken (h : (Value.object members).Fits room) :
    ∀ m ∈ members, Text.hasHalf m.1 = false := by
  cases h with
  | noMembers => nofun
  | object _ hbroken _ => exact hbroken

end Value.Fits

/-! ### Documents -/

section Dump

variable {room depth : Nat} {v : Value} {items : List Value} {members : List (String × Value)}
  {p : Payload} {n : Node} {w : Export}

lemma Value.dumpItems_eq (h : ∀ v ∈ items, v.dump depth = .ok v) :
    Value.dumpItems depth items = .ok items := by
  induction items with
  | nil => rfl
  | cons v items ih =>
    obtain ⟨hv, hitems⟩ := List.forall_mem_cons.1 h
    simp only [dumpItems, hv, ih hitems, bind, Except.bind]

lemma Value.dumpMembers_eq (hbroken : ∀ m ∈ members, Text.hasHalf m.1 = false)
    (h : ∀ m ∈ members, m.2.dump depth = .ok m.2) :
    Value.dumpMembers depth members = .ok members := by
  induction members with
  | nil => rfl
  | cons m members ih =>
    obtain ⟨name, v⟩ := m
    obtain ⟨hname, hothers⟩ := List.forall_mem_cons.1 hbroken
    obtain ⟨hv, hmembers⟩ := List.forall_mem_cons.1 h
    simp only [dumpMembers, hname, hv, ih hothers hmembers, bind, Except.bind, Bool.false_eq_true,
      if_false]

/-- A value that a file can hold is a JSON document as it is, which may be nested deeper. -/
lemma Value.Fits.dump (h : v.Fits room) (hroom : room < depth) : v.dump depth = .ok v := by
  induction h generalizing depth with
  | null | bool | int | str =>
    rw [Value.dump, if_neg (by omega)]
    all_goals nofun
  | float room hfinite => rw [Value.dump, if_neg (by omega), if_pos hfinite]
  | noItems => rw [Value.dump, if_neg (by omega)]; rfl
  | noMembers => rw [Value.dump, if_neg (by omega)]; rfl
  | list _ ih =>
    rw [Value.dump, if_neg (by omega), dumpItems_eq fun v hv => ih v hv (by omega)]
    rfl
  | object _ hbroken _ ih =>
    rw [Value.dump, if_neg (by omega), dumpMembers_eq hbroken fun m hm => ih m hm (by omega)]
    rfl

lemma Payload.dumpWithin_of_fits (h : p.toValue.Fits (room + 1)) (hroom : room < depth) :
    p.dumpWithin depth = .ok p.toValue := by
  have hmember : ∀ m ∈ p.members, m.2.dump depth = .ok m.2 := fun m hm => (h.member m hm).dump hroom
  have hextras : Value.dumpMembers depth p.extras = .ok p.extras :=
    Value.dumpMembers_eq (fun m hm => h.unbroken m (List.mem_append_right _ hm))
      fun m hm => hmember m (List.mem_append_right _ hm)
  cases p with
  | start d =>
    rw [dumpWithin, hextras]
    · rfl
    · nofun
  | transform d =>
    rw [dumpWithin, hextras]
    · rfl
    · nofun
  | finish d =>
    have hreceived : d.received.dump depth = .ok d.received :=
      hmember ("receivedPayload", d.received) (by simp [members, known])
    rw [dumpWithin, hreceived, hextras]
    rfl

lemma Payload.dump_of_fits (h : p.toValue.Fits (room + 1)) (hroom : room < maxDepth) :
    p.dump = .ok p.toValue :=
  dumpWithin_of_fits h hroom

/-- The payload of a node is a member of it. -/
lemma Node.payload_fits (h : n.toValue.Fits (room + 1)) : n.payload.toValue.Fits room :=
  h.member ("data", n.payload.toValue) (by simp)

lemma Node.dump_of_fits (h : n.toValue.Fits (room + 2)) (hroom : room + 1 < maxDepth) :
    n.dump = .ok n.toValue := by
  rw [dump, Payload.dumpWithin_of_fits (payload_fits h) (by omega)]
  rfl

/-- The nodes of a saved workflow are items of one of its members. -/
lemma Export.node_fits (h : w.toValue.Fits (room + 2)) : ∀ n ∈ w.graph.nodes, n.toValue.Fits room :=
  fun n hn => (h.member ("nodes", .list (w.graph.nodes.map Node.toValue))
    (by simp [Graph.members, Graph.around])).item _ (List.mem_map_of_mem hn)

lemma mapM_eq_ok_map {ε α β : Type} {read : α → Except ε β} {f : α → β} {items : List α}
    (h : ∀ a ∈ items, read a = .ok (f a)) : items.mapM read = .ok (items.map f) := by
  induction items with
  | nil => rfl
  | cons a items ih =>
    obtain ⟨ha, hitems⟩ := List.forall_mem_cons.1 h
    rw [List.mapM_cons, ha, ih hitems]
    rfl

/-- The text of a workflow that a file can hold is that of the workflow as a value. -/
lemma Export.fileText_of_fits (h : w.toValue.Fits (room + 4)) (hroom : room + 1 < maxDepth) :
    w.fileText = .ok (Json.write .file w.toValue) := by
  have hnodes : w.graph.nodes.mapM Node.dump = .ok (w.graph.nodes.map Node.toValue) :=
    mapM_eq_ok_map fun n hn => Node.dump_of_fits (node_fits h n hn) hroom
  rw [fileText, dump, Graph.dumpWith, hnodes]
  rfl

end Dump

/-! ### Reading -/

section Reading

variable {α : Type} {ms : Members} {name : String} {d : Document}

lemma Members.required_of_find? {read : Document → Reading α} {a : α} (hd : ms.find? name = some d)
    (h : read d = .ok a) : ms.required name [] read = .ok a :=
  required_eq_ok_iff.2 ⟨d, hd, h⟩

lemma Members.optional_of_find? {read : Document → Reading α} {standard a : α}
    (hd : ms.find? name = some d) (h : read d = .ok a) :
    ms.optional name [] standard read = .ok a :=
  optional_eq_ok_iff.2 (.inl ⟨d, hd, h⟩)

lemma Position.read_toValue (p : Position) : Position.read (.ofValue p.toValue) = .ok p :=
  rfl

lemma Operand.read_toValue (operand : Operand) :
    Operand.read (.ofValue operand.toValue) = .ok operand := by
  cases operand <;> rfl

/-- Members that are not known are read as the extra members that they are. -/
lemma readExtras_of_not_known {known : List String} {extras : List (String × Value)}
    (h : ∀ m ∈ extras, m.1 ∉ known) :
    readExtras known (Document.ofMembers extras) = .ok extras := by
  induction extras with
  | nil => rfl
  | cons m extras ih =>
    obtain ⟨hm, hextras⟩ := List.forall_mem_cons.1 h
    rw [Document.ofMembers, readExtras, if_neg (by simpa using hm), ih hextras,
      Document.toValue_ofValue]
    rfl

/-- The members that a payload knows are passed over. -/
lemma readExtras_append {names : List String} {known extras : List (String × Value)}
    (hknown : known.map Prod.fst = names)
    (hnames : ((known ++ extras).map Prod.fst).Nodup) :
    readExtras names (Document.ofMembers (known ++ extras)) = .ok extras := by
  have hextras : ∀ m ∈ extras, m.1 ∉ names := by
    intro m hm hname
    rw [List.map_append, List.nodup_append, hknown] at hnames
    exact hnames.2.2 _ hname _ (List.mem_map_of_mem hm) rfl
  have hskip : ∀ before : List (String × Value), (∀ m ∈ before, m.1 ∈ names) →
      readExtras names (Document.ofMembers (before ++ extras)) = .ok extras := by
    intro before hbefore
    induction before with
    | nil => exact readExtras_of_not_known hextras
    | cons m before ih =>
      obtain ⟨hm, hlater⟩ := List.forall_mem_cons.1 hbefore
      rw [List.cons_append, Document.ofMembers, readExtras, if_pos (by simpa using hm), ih hlater]
  exact hskip known fun m hm => hknown ▸ List.mem_map_of_mem hm

/-! ### Payloads -/

lemma StartData.read_eq {data : StartData}
    (hlabel : ms.required "label" [] text = .ok data.label)
    (hpayload : ms.optional "payload" [] "" text = .ok data.payload)
    (hextras : readExtras ["label", "payload"] ms = .ok data.extras) :
    StartData.read ms = .ok data := by
  rw [StartData.read, hlabel, hpayload, hextras]
  rfl

lemma TransformData.read_eq {data : TransformData}
    (hlabel : ms.required "label" [] text = .ok data.label)
    (hoperation : ms.optional "operation" [] "uppercase" text = .ok data.operation)
    (hoperand : ms.optional "value" [] .none Operand.read = .ok data.operand)
    (hextras : readExtras ["label", "operation", "value"] ms = .ok data.extras) :
    TransformData.read ms = .ok data := by
  rw [TransformData.read, hlabel, hoperation, hoperand, hextras]
  rfl

/-- What an end node received stands under the first of its two names. -/
lemma EndData.read_eq {data : EndData}
    (hlabel : ms.required "label" [] text = .ok data.label)
    (hreceived : ms.find? "receivedPayload" = some (.ofValue data.received))
    (hextras : readExtras ["label", "receivedPayload"] ms = .ok data.extras) :
    EndData.read ms = .ok data := by
  have hfirst : ms.findFirst? ["receivedPayload", "received_payload"]
      = some ("receivedPayload", .ofValue data.received) := by
    rw [Members.findFirst?, hreceived]
  have hvalue : ms.optional "receivedPayload" ["received_payload"] .null value
      = .ok data.received := by
    rw [Members.optional, Members.read, hfirst]
    simp only [value, Document.toValue_ofValue, within]
  rw [EndData.read, hlabel, hvalue, hfirst]
  change EndData.mk <$> _ <*> _ <*> readExtras ["label", "receivedPayload"] ms = _
  rw [hextras]
  rfl

variable {p : Payload} {n : Node} {room : Nat}

/-- A payload is read from its members if their names are distinct. -/
lemma Payload.readKnown_members (h : p.IsDistinct) :
    readKnown (Document.ofMembers p.members) p.type = .ok p := by
  have hextras := readExtras_append rfl h
  cases p with
  | start data => exact map_eq_ok_iff.2 ⟨data, StartData.read_eq rfl rfl hextras, rfl⟩
  | transform data =>
    have hoperand := Operand.read_toValue data.operand
    exact map_eq_ok_iff.2 ⟨data, TransformData.read_eq rfl rfl
      (Members.optional_of_find? rfl hoperand) hextras, rfl⟩
  | finish data => exact map_eq_ok_iff.2 ⟨data, EndData.read_eq rfl rfl hextras, rfl⟩

/-- A sound payload is read from its members. -/
lemma Payload.IsSound.readMembers (h : p.IsSound) :
    readMembers (Document.ofMembers p.members) p.type = .ok p := by
  have hunbroken : (Document.ofMembers p.members).any (fun m => m.1.isBroken) = false := by
    rw [List.any_eq_false]
    intro m hm
    have hname : m.1 ∈ (p.members.map Prod.fst).map Document.Key.text :=
      map_fst_ofMembers p.members ▸ List.mem_map_of_mem hm
    obtain ⟨name, hmem, hkey⟩ := List.mem_map.1 hname
    obtain ⟨member, hmember, rfl⟩ := List.mem_map.1 hmem
    rw [← hkey, Document.Key.isBroken, h.isUnbroken member hmember]
    exact Bool.false_ne_true
  rw [Payload.readMembers, hunbroken]
  exact readKnown_members h.isDistinct

/-- A payload that a file can hold is sound. -/
lemma Payload.isSound_of_fits (h : p.toValue.Fits room) : p.IsSound :=
  ⟨h.nodup, h.unbroken⟩

/-! ### Nodes, edges and workflows -/

/-- A node is read from its payload, if that is sound, and from what its position is read from. -/
lemma Node.read_of_position {position : Value} (h : n.payload.IsSound)
    (hposition : Position.read (.ofValue position) = .ok n.position) :
    Node.read (.ofValue (.object [("id", .str n.id), ("type", .str n.type.name),
      ("position", position), ("data", n.payload.toValue)])) = .ok n := by
  let ms : Members := Document.ofMembers [("id", .str n.id), ("type", .str n.type.name),
    ("position", position), ("data", n.payload.toValue)]
  have hpayload := h.readMembers
  have hoptional : ms.optional "position" [] ⟨0, 0⟩ Position.read = .ok n.position :=
    Members.optional_of_find? rfl hposition
  have htype : NodeType.read (.str n.type.name) = .ok n.type := by
    simp only [NodeType.read, NodeType.ofName?_name]
  have hparts : readParts ms (.ok n.payload) = .ok n := by
    rw [readParts, Members.required_of_find? (d := .str n.type.name) rfl htype, hoptional]
    change join n.id n.type n.position n.payload = _
    rw [join, if_pos (by rfl)]
  change readMembers ms = _
  have hfound : (ms.find? "type").bind NodeType.ofDocument? = some n.type :=
    NodeType.ofName?_name n.type
  have hdata : ms.find? "data" = some (.object (Document.ofMembers n.payload.members)) := rfl
  rw [readMembers, hfound, hdata]
  change (Payload.readMembers (Document.ofMembers n.payload.members) n.payload.type).andThen _ = _
  rw [hpayload]
  exact hparts

/-- A node with a sound payload is read as it was saved. -/
lemma Node.read_toValue (h : n.payload.IsSound) : Node.read (.ofValue n.toValue) = .ok n :=
  read_of_position h (Position.read_toValue n.position)

lemma Edge.read_toValue (e : Edge) : Edge.read (.ofValue e.toValue) = .ok e :=
  rfl

lemma Reading.items_ofItems {read : Document → Reading α} {toValue : α → Value} {as : List α}
    (h : ∀ a ∈ as, read (.ofValue (toValue a)) = .ok a) (start : Nat) :
    items read start (Document.ofItems (as.map toValue)) = .ok as := by
  induction as generalizing start with
  | nil => rfl
  | cons a as ih =>
    obtain ⟨ha, hrest⟩ := List.forall_mem_cons.1 h
    rw [List.map_cons, Document.ofItems, items, ha, ih hrest]
    rfl

/-- A list is read item by item. -/
lemma readNullableList_of_items {read : Document → Reading α} {toValue : α → Value} {as : List α}
    (h : ∀ a ∈ as, read (.ofValue (toValue a)) = .ok a) :
    readNullableList read (.ofValue (.list (as.map toValue))) = .ok as :=
  items_ofItems h 0

/-- A workflow that a file can hold is sound. -/
lemma Export.isSound_of_fits {w : Export} (h : w.toValue.Fits (room + 3)) : w.graph.IsSound :=
  fun n hn => Payload.isSound_of_fits (Node.payload_fits (node_fits h n hn))

/-- A workflow is read from what its nodes are read from. -/
lemma Export.read_of_nodes {w : Export} {values : List Value}
    (h : readNullableList Node.read (.ofValue (.list values)) = .ok w.graph.nodes) (now : Int) :
    Export.read now (.ofValue (.object (w.graph.around values ++ w.stamp))) = .ok w := by
  let ms : Members := Document.ofMembers (w.graph.around values ++ w.stamp)
  have hnodes : ms.optional "nodes" [] [] (readNullableList Node.read) = .ok w.graph.nodes :=
    Members.optional_of_find? rfl h
  have hedges : ms.optional "edges" [] [] (readNullableList Edge.read) = .ok w.graph.edges :=
    Members.optional_of_find? rfl (readNullableList_of_items fun e _ => Edge.read_toValue e)
  have hgraph : Graph.readMembers ms = .ok w.graph := by
    rw [Graph.readMembers, hnodes, hedges]
    rfl
  change Export.mk <$> Graph.readMembers ms <*> _ <*> _ = _
  rw [hgraph]
  rfl

/-- **A workflow with sound payloads is read as it was saved.** -/
lemma Export.read_toValue {w : Export} (h : w.graph.IsSound) (now : Int) :
    Export.read now (.ofValue w.toValue) = .ok w :=
  read_of_nodes (readNullableList_of_items fun n hn => Node.read_toValue (h n hn)) now

end Reading

end Workflow
