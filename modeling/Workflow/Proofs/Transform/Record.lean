import Mathlib.Data.List.Forall2
import Mathlib.Tactic
import Workflow.Transform.Operation

/-!
# Records member by member

An operation keeps the names of a record and their order, and treats each member on its own: the
operations on texts change the texts, and multiplication changes the numbers. A record is not
multiplied if a text is among its members, or a number whose product is out of range; the first of
them is to blame.
-/

namespace Workflow

/-! ### Numbers -/

/-- One of two numbers is a double, and the other an integer beyond all doubles. -/
def Number.Overflows : Number → Number → Prop
  | .int n, .float _ | .float _, .int n => Double.ofInt? n = none
  | _, _ => False

lemma Number.mul?_eq_none_iff {a b : Number} : a.mul? b = none ↔ a.Overflows b := by
  cases a <;> cases b <;> simp [mul?, Overflows]

namespace Operation

variable {op : Operation} {operand v : Value} {factor : Number} {f : String → String}
  {ms ns : List (String × Value)} {name : String}

lemma scale_eq_error_iff {a : Number} {f : OperationFailure} :
    scale a factor = .error f ↔ a.Overflows factor ∧ f = .overflow := by
  rw [← Number.mul?_eq_none_iff, scale]
  cases a.mul? factor <;> simp [eq_comm]

/-! ### Members that cannot be multiplied -/

/-- A member of a record that can be multiplied: no text, and no number that overflows. -/
def Scales (factor : Number) (v : Value) : Prop :=
  (∀ s, v ≠ .str s) ∧ ∀ a, Number.ofValue? v = some a → ¬a.Overflows factor

/-- What the first member of a record does that cannot be multiplied. -/
inductive Balks (factor : Number) (name : String) : Value → OperationFailure → Prop where
  | text (s : String) : Balks factor name (.str s) (.refused (.textMember name))
  | overflow {v : Value} {a : Number} (ha : Number.ofValue? v = some a)
      (h : a.Overflows factor) : Balks factor name v .overflow

/-- A member that is no text is multiplied if it is a number, and else left as it is. -/
def scaleMember (factor : Number) (v : Value) : Except OperationFailure Value :=
  match Number.ofValue? v with
  | some a => scale a factor
  | none => .ok v

lemma scaleMembers_cons {name : String} {v : Value} (hv : ∀ s, v ≠ .str s)
    (rest : List (String × Value)) :
    scaleMembers factor ((name, v) :: rest) = (scaleMember factor v).bind fun product =>
      (scaleMembers factor rest).map fun others => (name, product) :: others := by
  cases v <;> first | exact absurd rfl (hv _) | rfl

lemma not_scales_iff (name : String) {v : Value} :
    ¬Scales factor v ↔ ∃ f, Balks factor name v f := by
  constructor
  · intro h
    by_cases hv : ∃ s, v = .str s
    · obtain ⟨s, rfl⟩ := hv
      exact ⟨_, .text s⟩
    · push Not at hv
      simp only [Scales, not_and, not_forall, not_not] at h
      obtain ⟨a, ha, hover⟩ := h hv
      exact ⟨_, .overflow ha hover⟩
  · rintro ⟨f, hbalks⟩ ⟨htext, hnumber⟩
    cases hbalks with
    | text s => exact htext s rfl
    | overflow ha hover => exact hnumber _ ha hover

lemma scaleMembers_of_scales {name : String} {v : Value} (h : Scales factor v)
    (rest : List (String × Value)) (f : OperationFailure) :
    scaleMembers factor ((name, v) :: rest) = .error f ↔ scaleMembers factor rest = .error f := by
  rw [scaleMembers_cons h.1, scaleMember]
  cases ha : Number.ofValue? v with
  | none => cases scaleMembers factor rest <;> simp [Except.bind, Except.map]
  | some a =>
    cases hscale : scale a factor with
    | error f => exact absurd (scale_eq_error_iff.1 hscale).1 (h.2 a ha)
    | ok product => cases scaleMembers factor rest <;> simp [Except.bind, Except.map, hscale]

lemma scaleMembers_of_balks {name : String} {v : Value} {f : OperationFailure}
    (h : Balks factor name v f) (rest : List (String × Value)) :
    scaleMembers factor ((name, v) :: rest) = .error f := by
  cases h with
  | text s => rfl
  | overflow ha hover =>
    have hv : ∀ s, v ≠ .str s := by
      rintro s rfl
      cases ha
    rw [scaleMembers_cons hv, scaleMember, ha]
    simp [scale_eq_error_iff.2 ⟨hover, rfl⟩, Except.bind]

/-- A record fails as the first of its members that cannot be multiplied. -/
lemma scaleMembers_eq_error_iff {f : OperationFailure} :
    scaleMembers factor ms = .error f ↔
      ∃ before name v after, ms = before ++ (name, v) :: after ∧
        (∀ m ∈ before, Scales factor m.2) ∧ Balks factor name v f := by
  induction ms with
  | nil => simp [scaleMembers]
  | cons m rest ih =>
    obtain ⟨name, v⟩ := m
    constructor
    · intro h
      by_cases hv : Scales factor v
      · obtain ⟨before, name', v', after, rfl, hbefore, hbalks⟩ :=
          ih.1 ((scaleMembers_of_scales hv rest f).1 h)
        exact ⟨(name, v) :: before, name', v', after, rfl,
          List.forall_mem_cons.2 ⟨hv, hbefore⟩, hbalks⟩
      · obtain ⟨f', hbalks⟩ := (not_scales_iff name).1 hv
        obtain rfl : f' = f := by simpa [scaleMembers_of_balks hbalks rest] using h
        exact ⟨[], name, v, rest, rfl, List.forall_mem_nil _, hbalks⟩
    · rintro ⟨before, name', v', after, hsplit, hbefore, hbalks⟩
      cases before with
      | nil =>
        obtain ⟨⟨rfl, rfl⟩, rfl⟩ : (name = name' ∧ v = v') ∧ rest = after := by simpa using hsplit
        exact scaleMembers_of_balks hbalks rest
      | cons first before =>
        obtain ⟨rfl, rfl⟩ : (name, v) = first ∧ rest = before ++ (name', v') :: after := by
          simpa using hsplit
        obtain ⟨hfirst, hbefore⟩ := List.forall_mem_cons.1 hbefore
        exact (scaleMembers_of_scales hfirst _ f).2
          (ih.2 ⟨before, name', v', after, rfl, hbefore, hbalks⟩)

/-! ### Members that are treated -/

lemma apply_multiply_record (hfactor : multiplier operand = .ok factor) :
    apply (.object ms) operand .multiply = (scaleMembers factor ms).map .object := by
  rw [apply, hfactor]
  rfl

/-- Whether the product of every member that is a number is in range. -/
def Fits (factor : Number) (ms : List (String × Value)) : Prop :=
  ∀ m ∈ ms, ∀ a, Number.ofValue? m.2 = some a → ¬a.Overflows factor

end Operation

end Workflow
