import Mathlib
import Workflow.Graph.Dump
import Workflow.Proofs.Graph.Members

/-!
# Regular values

A value is regular if its numbers are numbers and the members of each of its objects have distinct
names. A regular value is equal to itself, and so is the JSON document that it becomes.
-/

namespace Workflow

/-- A value of numbers and of members of distinct names. -/
inductive Value.IsRegular : Value → Prop where
  | null : IsRegular .null
  | bool (b : Bool) : IsRegular (.bool b)
  | int (n : Int) : IsRegular (.int n)
  | float {x : Float} (h : Double.parts x ≠ .nan) : IsRegular (.float x)
  | str (s : String) : IsRegular (.str s)
  | list {items : List Value} (h : ∀ v ∈ items, IsRegular v) : IsRegular (.list items)
  | object {members : List (String × Value)} (hnames : (members.map Prod.fst).Nodup)
      (h : ∀ m ∈ members, IsRegular m.2) : IsRegular (.object members)

section Values

variable {room : Nat} {v w : Value} {vs ws : List Value} {ms ns : List (String × Value)}

/-! ### Equality -/

lemma Double.beq_self {x : Float} (h : parts x ≠ .nan) : (x == x) = true := by
  rw [Float.beq_iff_ne_nan_and_eq]
  have hx : x ≠ Float.nan := by
    rintro rfl
    exact h (by decide)
  exact ⟨hx, hx, .inl rfl⟩

namespace Value

lemma equalItems_self (h : ∀ v ∈ vs, v.equal v = true) : equalItems vs vs = true := by
  induction vs with
  | nil => rfl
  | cons v vs ih =>
    obtain ⟨hv, hvs⟩ := List.forall_mem_cons.1 h
    rw [equalItems, hv, ih hvs]
    rfl

lemma lookup_of_mem (hnames : (ms.map Prod.fst).Nodup) {m : String × Value} (hm : m ∈ ms) :
    ms.lookup m.1 = some m.2 := by
  induction ms with
  | nil => cases hm
  | cons first ms ih =>
    obtain ⟨hnew, hnames⟩ := List.nodup_cons.1 hnames
    rw [lookup_cons_if]
    rcases List.mem_cons.1 hm with rfl | hm
    · rw [if_pos rfl]
    · have hne : m.1 ≠ first.1 := fun hname => hnew (hname ▸ List.mem_map_of_mem hm)
      rw [if_neg hne, ih hnames hm]

lemma equalMembers_of_lookup (h : ∀ m ∈ ms, ns.lookup m.1 = some m.2 ∧ m.2.equal m.2 = true) :
    equalMembers ms ns = true := by
  induction ms with
  | nil => rfl
  | cons m ms ih =>
    obtain ⟨⟨hlookup, hm⟩, hms⟩ := List.forall_mem_cons.1 h
    simp only [equalMembers, hlookup, hm, ih hms, Bool.and_self]

/-- A regular value is equal to itself. -/
theorem IsRegular.equal_self (h : v.IsRegular) : v.equal v = true := by
  induction h with
  | null => rfl
  | bool b | int n | str s => simp [equal]
  | float h => rw [equal, Double.beq_self h]
  | list h ih => rw [equal, equalItems_self ih]
  | object hnames h ih =>
    rw [equal, equalMembers_of_lookup fun m hm => ⟨lookup_of_mem hnames hm, ih m hm⟩]
    simp

/-! ### Documents -/

lemma exists_of_dumpItems (h : dumpItems room vs = .ok ws) :
    ∀ w ∈ ws, ∃ v ∈ vs, v.dump room = .ok w := by
  induction vs generalizing ws with
  | nil =>
    cases h
    nofun
  | cons v vs ih =>
    simp only [dumpItems, bind, Except.bind] at h
    split at h
    · cases h
    · next first hfirst =>
      split at h
      · cases h
      · next others hothers =>
        cases h
        exact List.forall_mem_cons.2 ⟨⟨v, List.mem_cons_self, hfirst⟩, fun w hw =>
          (ih hothers w hw).imp fun _ => .imp_left (List.mem_cons_of_mem _)⟩

lemma exists_of_dumpMembers (h : dumpMembers room ms = .ok ns) :
    ns.map Prod.fst = ms.map Prod.fst ∧ ∀ n ∈ ns, ∃ m ∈ ms, m.2.dump room = .ok n.2 := by
  induction ms generalizing ns with
  | nil =>
    cases h
    exact ⟨rfl, nofun⟩
  | cons m ms ih =>
    obtain ⟨name, v⟩ := m
    simp only [dumpMembers, bind, Except.bind] at h
    split at h
    · cases h
    · split at h
      · cases h
      · next first hfirst =>
        split at h
        · cases h
        · next others hothers =>
          cases h
          obtain ⟨hnames, hmembers⟩ := ih hothers
          refine ⟨by rw [List.map_cons, List.map_cons, hnames], List.forall_mem_cons.2
            ⟨⟨(name, v), List.mem_cons_self, hfirst⟩, fun n hn => ?_⟩⟩
          exact (hmembers n hn).imp fun _ => .imp_left (List.mem_cons_of_mem _)

/-- Members of the same names as regular ones are regular if their values are. -/
lemma IsRegular.object_of_names (h : (Value.object ms).IsRegular)
    (hnames : ns.map Prod.fst = ms.map Prod.fst) (hmembers : ∀ n ∈ ns, n.2.IsRegular) :
    (Value.object ns).IsRegular := by
  cases h with
  | object hnodup _ => exact .object (hnames ▸ hnodup) hmembers

lemma room_ne_zero_of_dump (h : v.dump room = .ok w) : room ≠ 0 := by
  rintro rfl
  cases v <;> cases h

/-- The document that a regular value becomes is regular. -/
lemma IsRegular.dump (h : v.IsRegular) (hdump : v.dump room = .ok w) : w.IsRegular := by
  induction h generalizing room w with
  | null | bool | int | str =>
    simp only [Value.dump, room_ne_zero_of_dump hdump, if_false, Except.ok.injEq] at hdump
    subst hdump
    constructor
  | float h =>
    simp only [Value.dump, room_ne_zero_of_dump hdump, if_false, Except.ok.injEq] at hdump
    rw [← hdump]
    split_ifs
    · exact .float h
    · exact .null
  | @list items h ih =>
    simp only [Value.dump, room_ne_zero_of_dump hdump, if_false] at hdump
    cases hitems : dumpItems (room - 1) items with
    | error reason =>
      rw [hitems] at hdump
      cases hdump
    | ok ws =>
      rw [hitems] at hdump
      cases hdump
      refine .list fun w hw => ?_
      obtain ⟨v, hv, hdump⟩ := exists_of_dumpItems hitems w hw
      exact ih v hv hdump
  | @object members hnames h ih =>
    simp only [Value.dump, room_ne_zero_of_dump hdump, if_false] at hdump
    cases hmembers : dumpMembers (room - 1) members with
    | error reason =>
      rw [hmembers] at hdump
      cases hdump
    | ok ns =>
      rw [hmembers] at hdump
      cases hdump
      obtain ⟨hsame, hdumped⟩ := exists_of_dumpMembers hmembers
      refine object_of_names (.object hnames h) hsame fun n hn => ?_
      obtain ⟨m, hm, hdump⟩ := hdumped n hn
      exact ih m hm hdump

lemma IsRegular.member (h : (Value.object ms).IsRegular) : ∀ m ∈ ms, m.2.IsRegular := by
  cases h with
  | object _ h => exact h

end Value

namespace Payload

variable {p : Payload} {known extras : List (String × Value)}

/-- Members that a payload knows, and others, become a document of the same names. -/
lemma isRegular_append (h : p.toValue.IsRegular)
    (hknown : known.map Prod.fst = (p.known "receivedPayload").map Prod.fst)
    (hvalues : ∀ m ∈ known, m.2.IsRegular)
    (hextras : Value.dumpMembers room p.extras = .ok extras) :
    (Value.object (known ++ extras)).IsRegular := by
  obtain ⟨hnames, hdumped⟩ := Value.exists_of_dumpMembers hextras
  refine h.object_of_names ?_ fun m hm => ?_
  · rw [List.map_append, hknown, hnames, ← List.map_append, members]
  · rcases List.mem_append.1 hm with hm | hm
    · exact hvalues m hm
    · obtain ⟨extra, hextra, hdump⟩ := hdumped m hm
      exact (h.member extra (List.mem_append_right _ hextra)).dump hdump

/-- The document that a regular payload becomes is regular. -/
lemma isRegular_of_dump (h : p.toValue.IsRegular) (hdump : p.dump = .ok v) : v.IsRegular := by
  have hknown : ∀ m ∈ p.known "receivedPayload", m.2.IsRegular :=
    fun m hm => h.member m (List.mem_append_left _ hm)
  cases p with
  | start d | transform d =>
    simp only [dump, dumpWithin, bind, Except.bind] at hdump
    split at hdump
    · cases hdump
    · next extras hextras =>
      cases hdump
      exact isRegular_append h rfl hknown hextras
  | finish d =>
    cases hreceived : d.received.dump maxDepth with
    | error reason => simp [dump, dumpWithin, hreceived, bind, Except.bind] at hdump
    | ok received =>
      simp only [dump, dumpWithin, hreceived, bind, Except.bind] at hdump
      split at hdump
      · cases hdump
      · next extras hextras =>
        cases hdump
        simp only [Payload.known, List.forall_mem_cons] at hknown
        exact isRegular_append h rfl (List.forall_mem_cons.2 ⟨hknown.1,
          List.forall_mem_singleton.2 (hknown.2.1.dump hreceived)⟩) hextras

end Payload

end Values

end Workflow
