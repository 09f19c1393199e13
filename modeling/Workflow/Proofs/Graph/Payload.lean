import Workflow.Editor.Edit
import Workflow.Proofs.Graph.Members

/-!
# Payloads and their members

A payload is read from members and written as members again. What it was read from can be found in
it, member by member; only the payload of an end node knows one of its members by two names. An
update lays members over those of a payload and reads the outcome anew, so that it is a merge but
for that one member.
-/

namespace Workflow

/-! ### Payloads that are read -/

/-- A document as the member of a payload. A boolean that configures an operation is an integer. -/
def Document.asMember (t : NodeType) (name : String) : Document → Value
  | .bool b => if t = .transform ∧ name = "value" then .int (Value.ofBool b) else .bool b
  | d => d.toValue

lemma Document.asMember_eq_toValue {t : NodeType} {name : String}
    (h : ¬(t = .transform ∧ name = "value")) (d : Document) : d.asMember t name = d.toValue := by
  cases d <;> simp [asMember, toValue, h]

/-- A text that is read as a member is that member. -/
lemma Document.asMember_of_text {t : NodeType} {name s : String} {d : Document}
    (h : Reading.text d = .ok s) : d.asMember t name = .str s := by
  have hvalue := Reading.toValue_of_text h
  cases d with
  | bool b => cases h
  | _ => exact hvalue

lemma Operand.toValue_of_read {d : Document} {operand : Operand}
    (h : Operand.read d = .ok operand) : operand.toValue = d.asMember .transform "value" := by
  cases d with
  | bytes b =>
    have hread : Reading.ok (text (Document.bytesText b)) = .ok operand :=
      @Reading.of_fromBytes _ b _ (fun s => .ok (text s)) _ h (by simp)
    cases hread
    rfl
  | _ => cases h <;> rfl

section Parts

variable {ms : Members}

/-- The members that an end node knows are its label and one of the two that it may be given. -/
lemma mem_received_iff {name : String} :
    name ∈ "label" ::
        ((ms.findFirst? ["receivedPayload", "received_payload"]).map (·.1)).toList ↔
      name = "label" ∨ name = "receivedPayload" ∧ (ms.find? "receivedPayload").isSome ∨
        name = "received_payload" ∧ ms.find? "receivedPayload" = none ∧
          (ms.find? "received_payload").isSome := by
  cases hfirst : ms.find? "receivedPayload" <;> cases hsecond : ms.find? "received_payload" <;>
    simp [Members.findFirst?, hfirst, hsecond, eq_comm]

lemma StartData.of_read {data : StartData} (h : StartData.read ms = .ok data) :
    ms.required "label" [] Reading.text = .ok data.label ∧
      ms.optional "payload" [] "" Reading.text = .ok data.payload ∧
      readExtras ["label", "payload"] ms = .ok data.extras := by
  obtain ⟨_, extras, hfirst, hextras, rfl⟩ := Reading.seq_eq_ok_iff.1 h
  obtain ⟨_, payload, hstart, hpayload, rfl⟩ := Reading.seq_eq_ok_iff.1 hfirst
  obtain ⟨label, hlabel, rfl⟩ := Reading.map_eq_ok_iff.1 hstart
  exact ⟨hlabel, hpayload, hextras⟩

lemma TransformData.of_read {data : TransformData} (h : TransformData.read ms = .ok data) :
    ms.required "label" [] Reading.text = .ok data.label ∧
      ms.optional "operation" [] "uppercase" Reading.text = .ok data.operation ∧
      ms.optional "value" [] .none Operand.read = .ok data.operand ∧
      readExtras ["label", "operation", "value"] ms = .ok data.extras := by
  obtain ⟨_, extras, hfirst, hextras, rfl⟩ := Reading.seq_eq_ok_iff.1 h
  obtain ⟨_, operand, hsecond, hoperand, rfl⟩ := Reading.seq_eq_ok_iff.1 hfirst
  obtain ⟨_, operation, hstart, hoperation, rfl⟩ := Reading.seq_eq_ok_iff.1 hsecond
  obtain ⟨label, hlabel, rfl⟩ := Reading.map_eq_ok_iff.1 hstart
  exact ⟨hlabel, hoperation, hoperand, hextras⟩

/-- What an end node received is looked for under two names, the first of which goes first. -/
lemma EndData.of_read {data : EndData} (h : EndData.read ms = .ok data) :
    ms.required "label" [] Reading.text = .ok data.label ∧
      data.received = (((ms.find? "receivedPayload").or (ms.find? "received_payload")).map
        Document.toValue).getD .null ∧
      readExtras ("label" ::
        ((ms.findFirst? ["receivedPayload", "received_payload"]).map (·.1)).toList) ms
          = .ok data.extras := by
  obtain ⟨_, extras, hfirst, hextras, rfl⟩ := Reading.seq_eq_ok_iff.1 h
  obtain ⟨_, received, hstart, hreceived, rfl⟩ := Reading.seq_eq_ok_iff.1 hfirst
  obtain ⟨label, hlabel, rfl⟩ := Reading.map_eq_ok_iff.1 hstart
  refine ⟨hlabel, ?_, hextras⟩
  rw [Members.optional, Members.read, Members.findFirst?] at hreceived
  cases hfound : ms.find? "receivedPayload" with
  | some d => simpa [hfound, Reading.value, Reading.within, eq_comm] using hreceived
  | none =>
    cases hother : ms.find? "received_payload" <;>
      simpa [hfound, hother, Members.findFirst?, Reading.value, Reading.within, eq_comm]
        using hreceived

end Parts

namespace Payload

/-- No two members of a payload have one name. -/
def IsDistinct (p : Payload) : Prop :=
  (p.members.map Prod.fst).Nodup

/-- No member of a payload has half a surrogate pair in its name. -/
def IsUnbroken (p : Payload) : Prop :=
  ∀ m ∈ p.members, Text.hasHalf m.1 = false

/-- The members of a payload have names under which they can be found again. -/
structure IsSound (p : Payload) : Prop where
  isDistinct : p.IsDistinct
  isUnbroken : p.IsUnbroken

variable {p : Payload} {ms : Members} {t : NodeType} {name s : String}

lemma of_readMembers (h : readMembers ms t = .ok p) : readKnown ms t = .ok p := by
  rw [readMembers] at h
  split_ifs at h
  · cases h
  · exact h

lemma asMember_of_required (h : ms.required name [] Reading.text = .ok s) :
    (ms.find? name).map (Document.asMember t name) = some (.str s) := by
  obtain ⟨d, hd, htext⟩ := Members.required_eq_ok_iff.1 h
  rw [hd, Option.map_some, Document.asMember_of_text htext]

lemma asMember_of_optional {standard : String}
    (h : ms.optional name [] standard Reading.text = .ok s) :
    ((ms.find? name).map (Document.asMember t name)).or (some (.str s)) = some (.str s) := by
  rcases Members.optional_eq_ok_iff.1 h with ⟨d, hd, htext⟩ | ⟨hnone, rfl⟩
  · rw [hd, Option.map_some, Document.asMember_of_text htext, Option.some_or]
  · rw [hnone]
    rfl

lemma asMember_of_operand {operand : Operand}
    (h : ms.optional "value" [] .none Operand.read = .ok operand) :
    ((ms.find? "value").map (Document.asMember .transform "value")).or (some operand.toValue)
      = some operand.toValue := by
  rcases Members.optional_eq_ok_iff.1 h with ⟨d, hd, hoperand⟩ | ⟨hnone, rfl⟩
  · rw [hd, Operand.toValue_of_read hoperand]
    rfl
  · rw [hnone]
    rfl

/-- Known members are what was read under their names, and extra members all the others. -/
lemma lookup_append_extras {names : List String} {known extras : List (String × Value)}
    (hextras : readExtras names ms = .ok extras)
    (hknown : name ∈ names → ((ms.find? name).map (Document.asMember t name)).or
      (known.lookup name) = known.lookup name)
    (hother : name ∉ names → known.lookup name = none ∧ ¬(t = .transform ∧ name = "value")) :
    (known ++ extras).lookup name
      = ((ms.find? name).map (Document.asMember t name)).or (known.lookup name) := by
  rw [List.lookup_append, lookup_of_readExtras hextras]
  by_cases hname : name ∈ names
  · rw [if_pos hname, hknown hname, Option.or_none]
  · obtain ⟨hnone, hplain⟩ := hother hname
    rw [if_neg hname, hnone, Option.none_or, Option.or_none]
    exact congrArg (Option.map · _) (funext fun d => (Document.asMember_eq_toValue hplain d).symm)

/--
A payload has the members that it was read from. One that it knows and was not given has a standard
value. What an end node received is left out here, as it goes by two names.
-/
lemma lookup_members_of_readMembers (h : readMembers ms t = .ok p)
    (hname : t = .finish → name ≠ "receivedPayload" ∧ name ≠ "received_payload") :
    p.members.lookup name = ((ms.find? name).map (Document.asMember t name)).or
      ((p.known "receivedPayload").lookup name) := by
  have hread := of_readMembers h
  cases t with
  | start =>
    obtain ⟨data, hdata, rfl⟩ := Reading.map_eq_ok_iff.1 hread
    obtain ⟨hlabel, hpayload, hextras⟩ := StartData.of_read hdata
    refine lookup_append_extras hextras (fun hmem => ?_) fun hmem => ?_
    · rcases List.mem_pair.1 hmem with rfl | rfl
      · rw [asMember_of_required hlabel]
        rfl
      · exact asMember_of_optional hpayload
    · simp only [List.mem_cons, List.not_mem_nil, or_false, not_or] at hmem
      simp [known, lookup_cons_if, hmem]
  | transform =>
    obtain ⟨data, hdata, rfl⟩ := Reading.map_eq_ok_iff.1 hread
    obtain ⟨hlabel, hoperation, hoperand, hextras⟩ := TransformData.of_read hdata
    refine lookup_append_extras hextras (fun hmem => ?_) fun hmem => ?_
    · rcases List.mem_cons.1 hmem with rfl | hmem
      · rw [asMember_of_required hlabel]
        rfl
      · rcases List.mem_pair.1 hmem with rfl | rfl
        · exact asMember_of_optional hoperation
        · exact asMember_of_operand hoperand
    · simp only [List.mem_cons, List.not_mem_nil, or_false, not_or] at hmem
      simp [known, lookup_cons_if, hmem]
  | finish =>
    obtain ⟨data, hdata, rfl⟩ := Reading.map_eq_ok_iff.1 hread
    obtain ⟨hlabel, -, hextras⟩ := EndData.of_read hdata
    obtain ⟨hfirst, hsecond⟩ := hname rfl
    refine lookup_append_extras hextras (fun hmem => ?_) fun hmem => ?_
    · rcases mem_received_iff.1 hmem with rfl | ⟨heq, -⟩ | ⟨heq, -⟩
      · rw [asMember_of_required hlabel]
        rfl
      · exact absurd heq hfirst
      · exact absurd heq hsecond
    · have hlabel' : name ≠ "label" := fun heq => hmem (heq ▸ List.mem_cons_self)
      simp [known, lookup_cons_if, hlabel', hfirst]

/-- What an end node received, and the extra member of the second name if it was given both. -/
lemma lookup_received_of_readMembers (h : readMembers ms .finish = .ok p) :
    p.members.lookup "receivedPayload" =
      some ((((ms.find? "receivedPayload").or (ms.find? "received_payload")).map
        Document.toValue).getD .null) ∧
    p.members.lookup "received_payload" =
      if (ms.find? "receivedPayload").isSome then
        (ms.find? "received_payload").map Document.toValue
      else none := by
  obtain ⟨data, hdata, rfl⟩ := Reading.map_eq_ok_iff.1 (of_readMembers h)
  obtain ⟨-, hreceived, hextras⟩ := EndData.of_read hdata
  constructor
  · rw [← hreceived, members, List.lookup_append]
    rfl
  · change data.extras.lookup "received_payload" = _
    rw [lookup_of_readExtras hextras]
    simp only [mem_received_iff]
    cases ms.find? "receivedPayload" <;> cases ms.find? "received_payload" <;> simp

lemma nodup_append_extras {names : List String} {known extras : List (String × Value)}
    (hextras : readExtras names ms = .ok extras) (hms : (ms.map Prod.fst).Nodup)
    (hknown : (known.map Prod.fst).Nodup)
    (hleft : ∀ name ∈ known.map Prod.fst, name ∈ names ∨ ms.find? name = none) :
    ((known ++ extras).map Prod.fst).Nodup := by
  rw [List.map_append]
  refine hknown.append (nodup_of_readExtras hextras hms) fun name hname hmem => ?_
  have hnone : extras.lookup name = none := by
    rw [lookup_of_readExtras hextras]
    rcases hleft name hname with hmem | hnone
    · rw [if_pos hmem]
    · rw [hnone, Option.map_none, ite_self]
  exact lookup_eq_none_iff_not_mem.1 hnone hmem

/-- What is read from members of distinct names has members of distinct names. -/
lemma isDistinct_of_readMembers (h : readMembers ms t = .ok p) (hms : (ms.map Prod.fst).Nodup) :
    p.IsDistinct := by
  have hread := of_readMembers h
  cases t with
  | start =>
    obtain ⟨data, hdata, rfl⟩ := Reading.map_eq_ok_iff.1 hread
    obtain ⟨-, -, hextras⟩ := StartData.of_read hdata
    exact nodup_append_extras hextras hms (by simp [known]) (by simp [known])
  | transform =>
    obtain ⟨data, hdata, rfl⟩ := Reading.map_eq_ok_iff.1 hread
    obtain ⟨-, -, -, hextras⟩ := TransformData.of_read hdata
    exact nodup_append_extras hextras hms (by simp [known]) (by simp [known])
  | finish =>
    obtain ⟨data, hdata, rfl⟩ := Reading.map_eq_ok_iff.1 hread
    obtain ⟨-, -, hextras⟩ := EndData.of_read hdata
    refine nodup_append_extras hextras hms (by simp [known]) fun name hname => ?_
    rcases List.mem_pair.1 hname with rfl | rfl
    · exact .inl List.mem_cons_self
    · cases hfirst : ms.find? "receivedPayload" with
      | none => exact .inr rfl
      | some d => exact .inl (mem_received_iff.2 (.inr (.inl ⟨rfl, by simp [hfirst]⟩)))

/-- What payloads have in common that are new, or are read from members of distinct names. -/
structure IsCommon (P : Payload → Prop) : Prop where
  standard : ∀ t, P (Payload.standard t)
  read : ∀ ms t p, (ms.map Prod.fst).Nodup → readMembers ms t = .ok p → P p

lemma isDistinct_standard (t : NodeType) : (standard t).IsDistinct := by
  cases t <;> simp [IsDistinct, standard, members, known, extras]

lemma isCommon_isDistinct : IsCommon IsDistinct :=
  ⟨isDistinct_standard, fun _ _ _ hms h => isDistinct_of_readMembers h hms⟩

lemma nodup_overlay (p : Payload) (changes : Members) :
    ((p.overlay changes).map Prod.fst).Nodup := by
  apply nodup_foldl_setMember
  rw [map_fst_ofMembers]
  apply List.Nodup.map fun a b hab => Document.Key.text.inj hab
  apply nodup_foldl_setMember
  cases p <;> simp [known]

/-- Whatever a payload is updated with, it is as one that was read. -/
lemma IsCommon.update {P : Payload → Prop} (hP : IsCommon P) {changes : Members} {p' : Payload}
    (h : p.update changes = .ok p') : P p' :=
  hP.read _ _ _ (p.nodup_overlay changes) h

lemma IsDistinct.nodup_extras (h : p.IsDistinct) : (p.extras.map Prod.fst).Nodup := by
  rw [IsDistinct, members, List.map_append] at h
  exact h.of_append_right

/-- An extra member has the name of no known one. -/
lemma IsDistinct.lookup_extras (h : p.IsDistinct)
    (hname : name ∈ (p.known "receivedPayload").map Prod.fst) : p.extras.lookup name = none := by
  rw [IsDistinct, members, List.map_append] at h
  exact lookup_eq_none_iff_not_mem.2 fun hmem => List.disjoint_of_nodup_append h hname hmem

/-- What an update finds under a name: what it is given, or else what the payload has. -/
lemma IsDistinct.find?_overlay (h : p.IsDistinct) {changes : Members}
    (hchanges : (changes.map Prod.fst).Nodup) (name : String) :
    (p.overlay changes).find? name = (changes.find? name).or
      (((p.extras.lookup name).or ((p.known "received_payload").lookup name)).map
        Document.ofValue) := by
  rw [overlay, Members.find?, lookup_foldl_setMember hchanges, ← Members.find?, ← Members.find?,
    lookup_ofMembers, addressed, lookup_foldl_setMember h.nodup_extras]

lemma lookup_known_of_ne
    (hname : p.type = .finish → name ≠ "receivedPayload" ∧ name ≠ "received_payload") :
    (p.known "received_payload").lookup name = (p.known "receivedPayload").lookup name := by
  cases p with
  | start | transform => rfl
  | finish data => simp [known, lookup_cons_if, hname rfl]

lemma IsDistinct.find?_overlay_of_ne (h : p.IsDistinct) {changes : Members}
    (hchanges : (changes.map Prod.fst).Nodup)
    (hname : p.type = .finish → name ≠ "receivedPayload" ∧ name ≠ "received_payload") :
    (p.overlay changes).find? name
      = (changes.find? name).or ((p.members.lookup name).map Document.ofValue) := by
  rw [h.find?_overlay hchanges, lookup_known_of_ne hname, members, List.lookup_append]
  by_cases hmem : name ∈ (p.known "receivedPayload").map Prod.fst
  · rw [h.lookup_extras hmem, Option.none_or, Option.or_none]
  · rw [lookup_eq_none_iff_not_mem.2 hmem, Option.none_or, Option.or_none]

/-- What a payload has is read as it is, as no operand is a boolean. -/
lemma asMember_ofValue {v : Value} (hv : p.members.lookup name = some v) :
    (Document.ofValue v).asMember p.type name = v := by
  by_cases hoperand : p.type = .transform ∧ name = "value"
  · obtain ⟨htype, rfl⟩ := hoperand
    cases p with
    | transform data =>
      obtain rfl : data.operand.toValue = v := Option.some.inj hv
      cases data.operand <;> rfl
    | start | finish => cases htype
  · rw [Document.asMember_eq_toValue hoperand, Document.toValue_ofValue]

lemma lookup_known_eq_none {p' : Payload} (htype : p'.type = p.type) {received : String}
    (h : (p.known received).lookup name = none) : (p'.known received).lookup name = none := by
  rw [lookup_eq_none_iff_not_mem] at h ⊢
  cases p <;> cases p' <;> first | exact h | cases htype

/-- An update gives a payload the members it is given, and leaves it all others. -/
lemma IsDistinct.lookup_update (h : p.IsDistinct) {changes : Members}
    (hchanges : (changes.map Prod.fst).Nodup) {p' : Payload} (hp : p.update changes = .ok p')
    (hname : p.type = .finish → name ≠ "receivedPayload" ∧ name ≠ "received_payload") :
    p'.members.lookup name =
      ((changes.find? name).map (Document.asMember p.type name)).or (p.members.lookup name) := by
  rw [lookup_members_of_readMembers hp hname, h.find?_overlay_of_ne hchanges hname]
  cases changes.find? name with
  | some d => rfl
  | none =>
    -- what is not given either was there before, or is no known member of the type
    rw [Option.none_or, Option.map_none, Option.none_or]
    cases hv : p.members.lookup name with
    | some v => simp [asMember_ofValue hv]
    | none =>
      rw [members, List.lookup_append, Option.or_eq_none_iff] at hv
      exact lookup_known_eq_none (type_of_readMembers hp) hv.1

/--
What an end node received stays under its second name while it is updated, where an extra member of
that name takes its place. So that member is lost again unless what it received is given anew.
-/
lemma IsDistinct.lookup_update_received (h : p.IsDistinct) (htype : p.type = .finish)
    {changes : Members} (hchanges : (changes.map Prod.fst).Nodup) {p' : Payload}
    (hp : p.update changes = .ok p') :
    ∃ received, p.members.lookup "receivedPayload" = some received ∧
      let kept := ((changes.find? "received_payload").map Document.toValue).getD
        ((p.members.lookup "received_payload").getD received)
      p'.members.lookup "receivedPayload" =
        some (((changes.find? "receivedPayload").map Document.toValue).getD kept) ∧
      p'.members.lookup "received_payload" =
        if (changes.find? "receivedPayload").isSome then some kept else none := by
  cases p with
  | start | transform => cases htype
  | finish data =>
    refine ⟨data.received, rfl, ?_⟩
    intro kept
    -- the first name is found only if it is given, the second one always
    have hgiven : ((finish data).overlay changes).find? "receivedPayload"
        = changes.find? "receivedPayload" := by
      have hnone : data.extras.lookup "receivedPayload" = none :=
        h.lookup_extras (by simp [known])
      rw [h.find?_overlay hchanges]
      simp [extras, hnone, known, lookup_cons_if]
    have hkept : (((finish data).overlay changes).find? "received_payload").map Document.toValue
        = some kept := by
      have hextra : (finish data).members.lookup "received_payload"
          = (finish data).extras.lookup "received_payload" := rfl
      simp only [kept, hextra, h.find?_overlay hchanges]
      cases changes.find? "received_payload" with
      | some d => rfl
      | none =>
        cases (finish data).extras.lookup "received_payload" <;>
          simp [known, lookup_cons_if, Document.toValue_ofValue]
    obtain ⟨hfirst, hsecond⟩ := lookup_received_of_readMembers hp
    rw [hfirst, hsecond, hgiven, hkept]
    cases changes.find? "receivedPayload" with
    | some d => exact ⟨rfl, rfl⟩
    | none =>
      rw [Option.none_or, hkept]
      exact ⟨rfl, rfl⟩

end Payload

end Workflow
