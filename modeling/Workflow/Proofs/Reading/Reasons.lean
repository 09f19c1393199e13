import Mathlib.Tactic.SplitIfs
import Workflow.Graph.Reading

/-!
# Readings that fail for a reason

What cannot be read has an issue at least. The readings that a reading is made of have one, and so
the whole has.
-/

namespace Workflow

namespace Reading

variable {α β : Type}

/-- A reading that has an issue if it fails. -/
def HasReason (r : Reading α) : Prop :=
  r ≠ .failed []

section Parts

variable {r : Reading α}

@[simp] lemma hasReason_ok (a : α) : HasReason (.ok a) :=
  nofun

@[simp] lemma hasReason_fault (f : Fault) : (fault f : Reading α).HasReason :=
  nofun

@[simp] lemma hasReason_within {step : Step} : (r.within step).HasReason ↔ r.HasReason := by
  cases r <;> simp [HasReason, within]

@[simp] lemma hasReason_map {f : α → β} : (f <$> r).HasReason ↔ r.HasReason := by
  cases r <;> simp [HasReason, Functor.map, Reading.map]

lemma HasReason.seq {f : Reading (α → β)} (hf : f.HasReason) (hr : r.HasReason) :
    (f <*> r).HasReason := by
  cases f <;> cases r <;> simp_all [HasReason, Seq.seq, apply]

lemma HasReason.andThen {next : α → Reading β} (hr : r.HasReason)
    (hnext : ∀ a, (next a).HasReason) : (r.andThen next).HasReason := by
  cases r with
  | ok a => exact hnext a
  | failed issues => simpa [HasReason, Reading.andThen] using hr

/-! ### Lists and members -/

variable {read : Document → Reading α}

lemma hasReason_items (h : ∀ d, (read d).HasReason) (start : Nat) (ds : List Document) :
    (items read start ds).HasReason := by
  induction ds generalizing start with
  | nil => exact hasReason_ok _
  | cons d ds ih => exact .seq (hasReason_map.2 (hasReason_within.2 (h d))) (ih _)

lemma hasReason_list (h : ∀ d, (read d).HasReason) (d : Document) :
    (Reading.list read d).HasReason := by
  cases d with
  | list ds => exact hasReason_items h 0 ds
  | set names => exact hasReason_items h 0 _
  | _ => exact hasReason_fault _

lemma hasReason_read (h : ∀ d, (read d).HasReason) {absent : Reading α}
    (habsent : absent.HasReason) (ms : Members) (names : List String) :
    (ms.read names absent read).HasReason := by
  rw [Members.read]
  split
  · exact hasReason_within.2 (h _)
  · exact habsent

lemma hasReason_required (h : ∀ d, (read d).HasReason) (ms : Members) (name : String)
    (others : List String) : (ms.required name others read).HasReason :=
  hasReason_read h (hasReason_within.2 (hasReason_fault _)) ms _

lemma hasReason_optional (h : ∀ d, (read d).HasReason) (ms : Members) (name : String)
    (others : List String) (standard : α) : (ms.optional name others standard read).HasReason :=
  hasReason_read h (hasReason_ok _) ms _

lemma hasReason_object {readMembers : Members → Reading α} (h : ∀ ms, (readMembers ms).HasReason)
    (model : String) (d : Document) : (Reading.object model readMembers d).HasReason := by
  cases d with
  | object ms => exact h ms
  | _ => exact hasReason_fault _

end Parts

/-! ### Scalars -/

lemma hasReason_fromBytes {broken : Reading α} {read : String → Reading α} (b : List UInt8)
    (hbroken : broken.HasReason) (h : ∀ s, (read s).HasReason) :
    (fromBytes b broken read).HasReason := by
  rw [fromBytes]
  split
  · exact h _
  · exact hbroken

lemma hasReason_text (d : Document) : (text d).HasReason := by
  cases d with
  | bytes b => exact hasReason_fromBytes b (hasReason_fault _) hasReason_ok
  | _ => simp [text]

lemma HasReason.unbroken {r : Reading α} (h : r.HasReason) (s : String) :
    (Reading.unbroken s r).HasReason := by
  rw [Reading.unbroken]
  split_ifs
  · exact hasReason_fault _
  · exact h

lemma hasReason_doubleOfText (s : String) : (doubleOfText s).HasReason := by
  rw [doubleOfText]
  split <;> simp

lemma hasReason_double (d : Document) : (double d).HasReason := by
  cases d with
  | int n =>
    rw [double]
    split <;> simp
  | str s => exact (hasReason_doubleOfText s).unbroken s
  | bytes b => exact hasReason_fromBytes b (hasReason_fault _) hasReason_doubleOfText
  | _ => simp [double]

lemma hasReason_integerOfText (s : String) : (integerOfText s).HasReason := by
  rw [integerOfText]
  split_ifs
  · exact hasReason_fault _
  · split <;> simp

lemma hasReason_integer (d : Document) : (integer d).HasReason := by
  cases d with
  | float x =>
    rw [integer]
    split_ifs
    · exact hasReason_fault _
    · split
      · exact hasReason_fault _
      · split_ifs <;> simp
  | str s => exact (hasReason_integerOfText s).unbroken s
  | bytes b => exact hasReason_fromBytes b (hasReason_fault _) hasReason_integerOfText
  | _ => simp [integer]

end Reading

open Reading

/-! ### Workflows -/

lemma Operand.hasReason_read (d : Document) : (Operand.read d).HasReason := by
  cases d with
  | bytes b =>
    rw [Operand.read, Operand.ofBytes]
    exact hasReason_fromBytes b nofun fun s => hasReason_ok _
  | _ => simp [Operand.read, HasReason]

lemma Position.hasReason_read (d : Document) : (Position.read d).HasReason :=
  hasReason_object (fun ms => .seq (hasReason_map.2 (hasReason_optional hasReason_double ms _ _ _))
    (hasReason_optional hasReason_double ms _ _ _)) _ d

lemma hasReason_readExtras (known : List String) (ms : Members) :
    (readExtras known ms).HasReason := by
  induction ms with
  | nil => exact hasReason_ok _
  | cons m ms ih =>
    obtain ⟨key, d⟩ := m
    cases key with
    | text name =>
      rw [readExtras]
      split_ifs
      · exact ih
      · exact hasReason_map.2 ih
    | _ => exact .seq (hasReason_map.2 (hasReason_within.2 (hasReason_fault _))) ih

namespace Payload

lemma hasReason_readMembers (ms : Members) (t : NodeType) : (readMembers ms t).HasReason := by
  have hlabel := hasReason_required hasReason_text ms "label" []
  rw [readMembers]
  split_ifs
  · exact hasReason_fault _
  · cases t with
    | start =>
      exact hasReason_map.2 (.seq (.seq (hasReason_map.2 hlabel)
        (hasReason_optional hasReason_text ms _ _ _)) (hasReason_readExtras _ ms))
    | transform =>
      exact hasReason_map.2 (.seq (.seq (.seq (hasReason_map.2 hlabel)
        (hasReason_optional hasReason_text ms _ _ _))
        (hasReason_optional Operand.hasReason_read ms _ _ _)) (hasReason_readExtras _ ms))
    | finish =>
      exact hasReason_map.2 (.seq (.seq (hasReason_map.2 hlabel)
        (hasReason_optional (fun _ => hasReason_ok _) ms _ _ _)) (hasReason_readExtras _ ms))

lemma hasReason_read (t : NodeType) (d : Document) : (read t d).HasReason :=
  hasReason_object (fun ms => hasReason_readMembers ms t) _ d

/-- A payload that is of no type has the issues that it has as one of a start node. -/
lemma hasReason_readAny (d : Document) : (readAny d).HasReason := by
  rw [readAny]
  split
  · exact hasReason_ok _
  · exact hasReason_ok _
  · exact hasReason_ok _
  · next hstart _ _ =>
    have hissues : issuesAs d .start ≠ [] := by
      have hreason := hasReason_read .start d
      rw [issuesAs]
      cases hread : read .start d with
      | ok p => exact absurd hread (hstart p)
      | failed issues =>
        rw [hread] at hreason
        simpa [HasReason, within] using hreason
    simp [HasReason, hissues]

end Payload

namespace Node

lemma hasReason_readType (d : Document) : (NodeType.read d).HasReason := by
  cases d with
  | str s =>
    rw [NodeType.read]
    split
    · exact hasReason_ok _
    · split_ifs <;> simp
  | _ => simp [NodeType.read]

lemma hasReason_readParts {payload : Reading Payload} (h : payload.HasReason) (ms : Members) :
    (readParts ms payload).HasReason := by
  refine .andThen (.seq (.seq (.seq (hasReason_map.2 (hasReason_required hasReason_text ms _ _))
    (hasReason_required hasReason_readType ms _ _))
    (hasReason_optional Position.hasReason_read ms _ _ _)) h) fun parts => ?_
  dsimp only [join]
  split_ifs <;> simp

lemma hasReason_read (d : Document) : (read d).HasReason := by
  refine hasReason_object (fun ms => ?_) _ d
  rw [readMembers]
  split
  · exact .andThen (Payload.hasReason_readMembers _ _) fun _ =>
      hasReason_readParts (hasReason_ok _) ms
  · exact hasReason_readParts (hasReason_required Payload.hasReason_readAny ms _ _) ms

end Node

lemma Edge.hasReason_read (d : Document) : (Edge.read d).HasReason :=
  have htext := hasReason_required hasReason_text
  hasReason_object (fun ms => .seq (.seq (hasReason_map.2 (htext ms _ _)) (htext ms _ _))
    (htext ms _ _)) _ d

lemma hasReason_readNullableList {α : Type} {read : Document → Reading α}
    (h : ∀ d, (read d).HasReason) (d : Document) : (readNullableList read d).HasReason := by
  cases d with
  | null => exact hasReason_ok _
  | _ =>
    simp only [readNullableList]
    exact hasReason_list h _

lemma Graph.hasReason_readMembers (ms : Members) : (Graph.readMembers ms).HasReason :=
  have hnodes := hasReason_readNullableList Node.hasReason_read
  have hedges := hasReason_readNullableList Edge.hasReason_read
  .seq (hasReason_map.2 (hasReason_optional hnodes ms _ _ _)) (hasReason_optional hedges ms _ _ _)

/-- **Whatever is refused as a workflow is refused for a reason.** -/
theorem Export.hasReason_read (now : Int) (d : Document) : (Export.read now d).HasReason :=
  hasReason_object (fun ms => .seq (.seq (hasReason_map.2 (Graph.hasReason_readMembers ms))
    (hasReason_optional hasReason_text ms _ _ _))
    (hasReason_optional hasReason_integer ms _ _ _)) _ d

end Workflow
