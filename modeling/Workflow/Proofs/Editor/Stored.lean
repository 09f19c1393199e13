import Workflow.Proofs.Editor.Loading
import Workflow.Proofs.Editor.Merging
import Workflow.Proofs.Editor.Waiting
import Workflow.Proofs.Json.Dumping

/-!
# Loading whatever is stored

Whatever stands in an editor's file, loading either puts the stored graph in place of the present
one and begins a new history with it, or leaves the editor as it is. It fails if the bytes of the
file are no text or its path is too long.
-/

namespace Workflow

/-! ### Graphs that are read from files -/

lemma Document.toItems_eq_map (ds : List Document) : toItems ds = ds.map toValue := by
  induction ds with
  | nil => rfl
  | cons d ds ih => rw [toItems, ih, List.map_cons]

lemma Document.toMembers_eq_map (ms : List (Key × Document)) :
    toMembers ms = ms.map fun m => (m.1.listed, m.2.toValue) := by
  induction ms with
  | nil => rfl
  | cons m ms ih => rw [toMembers, ih, List.map_cons]

/-- Whether the value of a document can be written. -/
def Document.Dumps (d : Document) : Prop :=
  d.toValue.Dumps maxDepth

lemma Document.isInherited_dumps : IsInherited Dumps where
  item {items} h d hd := by
    rw [Dumps, toValue, toItems_eq_map] at h
    exact (Value.dumps_list_iff.1 h _ (List.mem_map_of_mem hd)).succ
  member {members} h m hm := by
    rw [Dumps, toValue, toMembers_eq_map] at h
    exact (Value.dumps_object_iff.1 h _ (List.mem_map_of_mem hm)).2.succ

section Payload

variable {ms : Members} {known : List String} {extras : List (String × Value)}

/-- The extra members of a payload are among those that it is read from. -/
lemma subset_of_readExtras (h : readExtras known ms = .ok extras) :
    extras ⊆ Document.toMembers ms := by
  induction ms generalizing extras with
  | nil =>
    obtain rfl : [] = extras := Reading.ok.inj h
    exact List.Subset.refl _
  | cons m ms ih =>
    obtain ⟨name, hname, ⟨-, hrest⟩ | ⟨-, rest, hrest, rfl⟩⟩ := of_readExtras_cons h
    · exact List.subset_cons_of_subset _ (ih hrest)
    · rw [Document.toMembers, hname]
      exact List.cons_subset_cons _ (ih hrest)

/-- What is read as a payload can be written if the document can. -/
lemma Payload.isReadFrom_dumps :
    IsReadFrom Document.Dumps fun p => ∃ dumped, p.dump = .ok dumped where
  toIsInherited := Document.isInherited_dumps
  read {ms t p} h hread := by
    have hmembers : ∀ m ∈ Document.toMembers ms,
        Text.hasHalf m.1 = false ∧ m.2.Dumps maxDepth := by
      rw [Document.Dumps, Document.toValue] at h
      exact fun m hm => (Value.dumps_object_iff.1 h m hm).imp_right .succ
    have hextras : ∀ {known extras}, readExtras known ms = .ok extras →
        ∃ dumped, Value.dumpMembers maxDepth extras = .ok dumped := fun hextras =>
      Value.dumpMembers_ok_iff.2 fun m hm => hmembers m (subset_of_readExtras hextras hm)
    have hknown := of_readMembers hread
    cases t with
    | start =>
      obtain ⟨data, hdata, rfl⟩ := Reading.map_eq_ok_iff.1 hknown
      obtain ⟨dumped, hdumped⟩ := hextras (StartData.of_read hdata).2.2
      simp [dump, dumpWithin, extras, hdumped, bind, Except.bind]
    | transform =>
      obtain ⟨data, hdata, rfl⟩ := Reading.map_eq_ok_iff.1 hknown
      obtain ⟨dumped, hdumped⟩ := hextras (TransformData.of_read hdata).2.2.2
      simp [dump, dumpWithin, extras, hdumped, bind, Except.bind]
    | finish =>
      obtain ⟨data, hdata, rfl⟩ := Reading.map_eq_ok_iff.1 hknown
      obtain ⟨-, hreceived, hothers⟩ := EndData.of_read hdata
      obtain ⟨dumped, hdumped⟩ := hextras hothers
      obtain ⟨received, hdump⟩ : data.received.Dumps maxDepth := by
        rw [hreceived]
        have hfound : ∀ {name d}, Members.find? ms name = some d → d.Dumps :=
          Members.inherits_of_find? (Document.isInherited_dumps.member h)
        cases hfirst : Members.find? ms "receivedPayload" with
        | some d => exact hfound hfirst
        | none =>
          cases hsecond : Members.find? ms "received_payload" with
          | some d => exact hfound hsecond
          | none => exact ⟨_, rfl⟩
      simp [dump, dumpWithin, extras, hdump, hdumped, bind, Except.bind]

end Payload

namespace Editor

variable {e : Editor} {w : Export}

/-- The recorder sees every graph that is stored. -/
lemma visible_of_stored (h : e.stored = .ok (some w)) : w.graph.IsVisible := by
  obtain ⟨_, _, v, -, -, hv, hread⟩ := exists_of_stored h
  have hdumps : (Document.ofValue v).Dumps := by
    rw [Document.Dumps, Document.toValue_ofValue]
    exact (Json.dumps_of_read hv).mono (by decide)
  exact Graph.isVisible_iff.2 (Payload.isReadFrom_dumps.of_readExport hread hdumps)

/-! ### All or nothing -/

/-- Why an editor cannot even look at what is stored. -/
inductive Unreadable (e : Editor) : EditorFailure → Prop where
  /-- The path of its file is too long. -/
  | tooLong (h : e.files.locate e.config.storage.path = .error .tooLong) :
      e.Unreadable (.badPath e.config.storage.path .tooLong)
  /-- The bytes of its file are no text. -/
  | undecodable {content : ByteArray} {reason : Text.Utf8Error}
      (hfile : e.files.find? e.config.storage.path = some (.file content))
      (h : Text.decodeUtf8 content = .error reason) : e.Unreadable (.undecodable reason)

lemma stored_eq_error_iff {f : EditorFailure} : e.stored = .error f ↔ e.Unreadable f := by
  constructor
  · intro h
    unfold stored at h
    split at h
    · next hloc =>
      cases h
      exact .tooLong hloc
    · cases h
    · next loc hloc =>
      split at h
      · next content hcontent =>
        split at h
        · next reason htext =>
          cases h
          refine .undecodable ?_ htext
          rw [Files.find?, hloc]
          exact hcontent
        · split at h <;> cases h
      · cases h
  · rintro (hlong | ⟨hfile, htext⟩)
    · rw [stored, hlong]
    · rw [stored_of_find? hfile, htext]
      rfl

/--
Loading is all or nothing, whatever the editor was used for and whatever stands at the path of its
file. If the path is too long or the bytes of the file are no text, loading fails and leaves the
editor as it is. Otherwise it answers: either no, and leaves the editor as it is, with nothing
announced, or yes, and the graph that is stored has taken the place of the present one.
-/
theorem load_all_or_nothing (e : Editor) :
    (∀ f, e.Unreadable f → e.load = e.fail f) ∧
    ((∀ f, ¬e.Unreadable f) → e.load = e.done false ∨
      ∃ w, e.stored = .ok (some w) ∧ e.load.answer = .ok true ∧
        e.load.editor.state = { graph := w.graph }) := by
  refine ⟨fun f hf => ?_, fun hreadable => ?_⟩
  · rw [load, stored_eq_error_iff.2 hf]
  · cases hstored : e.stored with
    | error f => exact absurd (stored_eq_error_iff.1 hstored) (hreadable f)
    | ok found =>
      cases found with
      | none =>
        left
        rw [load, hstored]
      | some w => exact .inr ⟨w, rfl, load_of_stored hstored (visible_of_stored hstored)⟩

/-! ### A history of its own -/

/-- An editor with a graph as the only entry of its history, and nothing going on. -/
structure IsFresh (e : Editor) (g : Graph) : Prop where
  state : e.state = { graph := g }
  misfits : e.misfits = {}
  past : e.past = [{ graph := g }]
  future : e.future = []
  inAction : e.inAction = false
  pending : e.recordingTimer.pending = false

lemma IsFresh.undergoAll {g : Graph} (h : e.IsFresh g) (events : List Event) :
    (e.undergoAll events).IsFresh g := by
  have hnot : ¬e.WillRecord := fun hwill => Bool.false_ne_true (h.pending.symm.trans hwill.1)
  have hrests := rests_undergoAll hnot events
  refine ⟨hrests.state.trans h.state, hrests.misfits.trans h.misfits, hrests.past.trans h.past,
    hrests.future.trans h.future, hrests.inAction.trans h.inAction, ?_⟩
  exact Bool.eq_false_iff.2 fun hpending =>
    Bool.false_ne_true (h.pending.symm.trans (hrests.pending hpending))

lemma IsBare.push {g : Graph} (h : e.IsBare g) (hroom : 1 ≤ e.config.history.maxStates) :
    (e.push { graph := g }).IsFresh g := by
  refine ⟨h.state, h.misfits, ?_, rfl, h.inAction, h.pending⟩
  rw [Editor.push, h.past]
  exact if_neg (by simpa using hroom)

/--
A stored workflow that is loaded begins a history of its own, whatever the editor was doing. Let a
workflow be stored, and let history have room for an entry. Loading answers yes. Then the editor has
the nodes and edges that are stored, with nothing selected and not executing, and this is the one
entry of its past. Nothing lies ahead, no action is going on and no recording is to come. It stays
so while time passes and calls come through, be they calls of before or of the autosave.
-/
theorem load_isFresh (hstored : e.stored = .ok (some w))
    (hroom : 1 ≤ e.config.history.maxStates) :
    e.load.answer = .ok true ∧
      ∀ events, (e.load.editor.undergoAll events).IsFresh w.graph := by
  obtain ⟨bare, hload, hbare, hconfig⟩ :=
    exists_load_of_stored hstored (visible_of_stored hstored)
  rw [hload]
  exact ⟨rfl, fun events => (hbare.push (hconfig ▸ hroom)).undergoAll events⟩

/-- An editor loads what it saved amid an action, while a recording is to come. -/
theorem load_isFresh_drawn :
    let e := drawn.save.editor.beginAction
    e.recordingTimer.pending = true ∧ e.inAction = true ∧ e.load.answer = .ok true ∧
      (e.load.editor.undergoAll [.time 500]).IsFresh drawn.state.graph := by
  intro e
  obtain ⟨files, hwritten⟩ := exists_write_editor drawn drawn.exported
  have he : e = { drawn with files := files, inAction := true } :=
    congrArg beginAction hwritten
  have hstored : e.stored = .ok (some drawn.exported) :=
    stored_of_save save_drawn (by decide +kernel) (by rw [he]) rfl
  have hroom : 1 ≤ drawn.config.history.maxStates := by decide
  obtain ⟨hanswer, hfresh⟩ := load_isFresh hstored (by rw [he]; exact hroom)
  refine ⟨?_, rfl, hanswer, hfresh _⟩
  rw [he]
  rfl

end Editor

end Workflow
