import Workflow.Proofs.Graph.Regular

/-!
# The doubles in a value

What holds of every double anywhere in a value. A value of finite doubles is the JSON document that
it becomes, and so is a payload.
-/

namespace Workflow

/-- Whether something holds of every double in a value, however deep it is nested. -/
inductive Value.AllDoubles (P : Float → Prop) : Value → Prop where
  | null : AllDoubles P .null
  | bool (b : Bool) : AllDoubles P (.bool b)
  | int (n : Int) : AllDoubles P (.int n)
  | float {x : Float} (h : P x) : AllDoubles P (.float x)
  | str (s : String) : AllDoubles P (.str s)
  | list {items : List Value} (h : ∀ v ∈ items, AllDoubles P v) : AllDoubles P (.list items)
  | object {members : List (String × Value)} (h : ∀ m ∈ members, AllDoubles P m.2) :
      AllDoubles P (.object members)

/-- Whether every double in a value is finite. -/
def Value.IsFinite (v : Value) : Prop :=
  v.AllDoubles fun x => Double.isFinite x = true

variable {room : Nat} {v w : Value} {vs ws : List Value} {ms ns : List (String × Value)}

namespace Value

lemma AllDoubles.mono {P Q : Float → Prop} (h : v.AllDoubles P) (hPQ : ∀ x, P x → Q x) :
    v.AllDoubles Q := by
  induction h with
  | null => exact .null
  | bool b => exact .bool b
  | int n => exact .int n
  | float h => exact .float (hPQ _ h)
  | str s => exact .str s
  | list _ ih => exact .list ih
  | object _ ih => exact .object ih

lemma IsFinite.member (h : (object ms).IsFinite) : ∀ m ∈ ms, m.2.IsFinite := by
  cases h with
  | object h => exact h

end Value

lemma Operand.toValue_injective : Function.Injective Operand.toValue := by
  intro a b h
  cases a <;> cases b <;> simp_all [Operand.toValue]

namespace Payload

variable {p q : Payload}

/-- A payload is known from its saved members. -/
lemma toValue_injective : Function.Injective toValue := by
  intro p q h
  have hmembers : p.members = q.members := Value.object.inj h
  cases p with
  | start d =>
    cases q with
    | start d' =>
      obtain ⟨label, payload, extras⟩ := d
      obtain ⟨label', payload', extras'⟩ := d'
      simpa [members, known, Payload.extras] using hmembers
    | transform d' | finish d' => simp [members, known] at hmembers
  | transform d =>
    cases q with
    | transform d' =>
      obtain ⟨label, operation, operand, extras⟩ := d
      obtain ⟨label', operation', operand', extras'⟩ := d'
      simpa [members, known, Payload.extras, Operand.toValue_injective.eq_iff] using hmembers
    | start d' | finish d' => simp [members, known] at hmembers
  | finish d =>
    cases q with
    | finish d' =>
      obtain ⟨label, received, extras⟩ := d
      obtain ⟨label', received', extras'⟩ := d'
      simpa [members, known, Payload.extras] using hmembers
    | start d' | transform d' => simp [members, known] at hmembers

end Payload

end Workflow
