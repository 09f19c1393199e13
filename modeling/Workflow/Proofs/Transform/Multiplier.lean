import Workflow.Proofs.Json.Number
import Workflow.Proofs.Number.Whole
import Workflow.Proofs.Transform.Leading
import Workflow.Proofs.Transform.Record

/-!
# Multipliers that are texts

A text is a multiplier if a float literal is a prefix of it once its blanks are dropped. The longest
such prefix counts, as the double closest to it, and as an integer if that double has no fraction.
So the text of an integer multiplies as the integer does if the integer is a double, and else as the
double closest to it.
-/

namespace Workflow

open Literal (IsFloat IsLongest float?)

/-- A text without the blanks at its start. -/
def Text.unpadded (s : String) : List Char :=
  s.toList.dropWhile isBlank

/-! ### The double of a literal -/

namespace Literal

variable {l : Literal} {negative : Bool} {x : Float}

/-- The double that a float literal is read as. -/
inductive IsReadAs : Bool → Option Literal → Float → Prop where
  | infinity {negative : Bool} : IsReadAs negative none (Double.withSign negative Double.infinity)
  | decimal {negative : Bool} {l : Literal} {x : Float}
      (h : Double.IsClosest (if negative then -l.magnitude else l.magnitude) x) :
      IsReadAs negative (some l) x

/-- The double of a float literal without its sign. -/
def unsignedDouble : Option Literal → Float
  | none => Double.infinity
  | some l => l.toDouble

lemma isReadAs_unsignedDouble (negative : Bool) (l? : Option Literal) :
    IsReadAs negative l? (Double.withSign negative (unsignedDouble l?)) := by
  cases l? with
  | none => exact .infinity
  | some l =>
    have hnonneg : 0 ≤ l.magnitude := by
      rw [magnitude]
      positivity
    exact .decimal ((Double.isClosest_ofDecimal _ _).withSign hnonneg negative)

end Literal

namespace Number

/-- The number that a float literal is read as. -/
def IsReading (p : List Char) (a : Number) : Prop :=
  ∃ negative l? x, IsFloat p negative l? ∧ Literal.IsReadAs negative l? x ∧ IsOf x a

lemma unsignedPrefix?_eq (cs : List Char) : unsignedPrefix? cs
    = (Literal.unsigned? cs).map fun found => Literal.unsignedDouble found.1 := by
  unfold unsignedPrefix?
  split
  · rfl
  · next hword =>
    rw [Literal.unsigned?, Option.map_map]
    · rfl
    · exact hword

lemma ofText?_eq (s : String) :
    ofText? s = (float? (Text.unpadded s)).map fun found =>
      ofDouble (Double.withSign found.1.1 (Literal.unsignedDouble found.1.2)) := by
  rw [ofText?, float?, Option.map_map, ← Text.unpadded]
  simp only [unsignedPrefix?_eq, Option.map_map]
  rfl

lemma ofText?_eq_none_iff {s : String} :
    ofText? s = none ↔
      ∀ p, p <+: Text.unpadded s → ¬∃ negative l?, IsFloat p negative l? := by
  rw [ofText?_eq, Option.map_eq_none_iff, Literal.float?_eq_none_iff]

lemma ofText?_of_isLongest {s : String} {p : List Char} {negative : Bool} {l? : Option Literal}
    (hlongest : IsLongest (Text.unpadded s) p) (hfloat : IsFloat p negative l?) :
    ofText? s = some (ofDouble (Double.withSign negative (Literal.unsignedDouble l?))) := by
  obtain ⟨after, hfound⟩ := hlongest.float?_eq hfloat
  rw [ofText?_eq, hfound]
  rfl

end Number

namespace Operation

open Double (IsClosest limit toRat)
open Text (unpadded)

variable {s : String} {a : Number}

/-! ### Texts -/

lemma parseMultiplier_eq_ok_iff : parseMultiplier (.str s) = .ok a ↔ Number.ofText? s = some a := by
  rw [parseMultiplier]
  cases Number.ofText? s <;> simp

lemma parseMultiplier_eq_error_iff :
    parseMultiplier (.str s) = .error (.unreadableMultiplier s) ↔ Number.ofText? s = none := by
  rw [parseMultiplier]
  cases Number.ofText? s <;> simp

/--
**A text is refused as a multiplier if none of its prefixes is a float literal, blanks aside.
Otherwise it is read as the longest of them is**, whatever follows that one.
-/
theorem parseMultiplier_longest (s : String) :
    (parseMultiplier (.str s) = .error (.unreadableMultiplier s) ↔
      ∀ p, p <+: unpadded s → ¬∃ negative l?, IsFloat p negative l?) ∧
    (parseMultiplier (.str s) = .error (.unreadableMultiplier s) ∨
      ∃ p a, IsLongest (unpadded s) p ∧ parseMultiplier (.str s) = .ok a ∧ Number.IsReading p a ∧
        ∀ t, IsLongest (unpadded t) p → parseMultiplier (.str t) = .ok a) := by
  rw [parseMultiplier_eq_error_iff]
  refine ⟨Number.ofText?_eq_none_iff, ?_⟩
  rw [Number.ofText?_eq, Option.map_eq_none_iff, or_iff_not_imp_left]
  intro hsome
  obtain ⟨⟨⟨negative, l?⟩, after⟩, hfound⟩ := Option.ne_none_iff_exists'.1 hsome
  obtain ⟨p, -, hfloat, hlongest⟩ := Literal.isLongest_of_float? hfound
  have hread : ∀ t, IsLongest (unpadded t) p → parseMultiplier (.str t)
      = .ok (.ofDouble (Double.withSign negative (Literal.unsignedDouble l?))) := fun t ht =>
    parseMultiplier_eq_ok_iff.2 (Number.ofText?_of_isLongest ht hfloat)
  exact ⟨p, _, hlongest, hread s hlongest, ⟨negative, l?, _, hfloat,
    Literal.isReadAs_unsignedDouble negative l?, Number.isOf_ofDouble _⟩, hread⟩

/-- An exponent without digits is no part of the literal. -/
example : parseMultiplier (.str " -2.e+x") = .ok (.int (-2)) :=
  parseMultiplier_eq_ok_iff.2 (by decide +kernel)

/-! ### The text of an integer -/

variable {k : Int} {x : Float}

lemma isRun_of_isDigit {cs : List Char} (h : ∀ c ∈ cs, c.isDigit = true) :
    Literal.IsRun cs (Text.valuesOf cs) := by
  refine List.forall₂_map_right_iff.2 (List.forall₂_same.2 fun c hc => ?_)
  obtain ⟨hlower, hupper⟩ := Char.isDigit_iff_toNat.1 (h c hc)
  rw [Text.digitValue?, Text.zeroDigits, List.find?_cons_of_pos]
  · rfl
  · change c.toNat ≤ 57 at hupper
    simpa using ⟨hlower, by omega⟩

lemma isFloat_toString (k : Int) :
    IsFloat (toString k).toList (decide (k < 0))
      (some ⟨Text.valuesOf (Nat.toDigits 10 k.natAbs), [], 0⟩) := by
  have hwhole := Json.isWhole_toDigits k.natAbs
  have hne : Text.valuesOf (Nat.toDigits 10 k.natAbs) ≠ [] := by
    simp [Text.valuesOf, hwhole.nonempty]
  have hdecimal := Literal.IsUnsigned.decimal (.whole (isRun_of_isDigit hwhole.digits) hne) .none
  rw [List.append_nil] at hdecimal
  rw [Json.toList_toString_int]
  cases decide (k < 0) with
  | true => exact .intro .minus hdecimal
  | false => exact .intro .none hdecimal

/-- The text of an integer has no blanks at its start. -/
lemma unpadded_toString (k : Int) : unpadded (toString k) = (toString k).toList := by
  have hwhole := Json.isWhole_toDigits k.natAbs
  rw [unpadded, Json.toList_toString_int]
  split_ifs
  · rfl
  · cases hcs : Nat.toDigits 10 k.natAbs with
    | nil => rfl
    | cons c cs =>
      have hdigit := hwhole.digits c (hcs ▸ List.mem_cons_self)
      obtain ⟨hlower, hupper⟩ := Char.isDigit_iff_toNat.1 hdigit
      change 48 ≤ c.toNat at hlower
      change c.toNat ≤ 57 at hupper
      have hblank : Text.isBlank c = false := by
        simp [Text.isBlank, Text.isWhite]
        omega
      rw [List.dropWhile_cons, hblank]
      rfl

/-- The text of an integer is read as the double closest to the integer. -/
lemma exists_parseMultiplier_toString (k : Int) :
    ∃ x, IsClosest k x ∧ parseMultiplier (.str (toString k)) = .ok (.ofDouble x) := by
  have hfloat := isFloat_toString k
  have hlongest : IsLongest (unpadded (toString k)) (toString k).toList := by
    rw [unpadded_toString]
    exact ⟨List.prefix_refl _, ⟨_, _, hfloat⟩, fun p hp _ => hp.length_le⟩
  refine ⟨_, ?_, parseMultiplier_eq_ok_iff.2 (Number.ofText?_of_isLongest hlongest hfloat)⟩
  have hclosest := (Double.isClosest_ofDecimal k.natAbs 0).withSign (by positivity)
    (decide (k < 0))
  have hvalue : (if decide (k < 0) = true then -((k.natAbs : ℚ) * 10 ^ (0 : Int))
      else (k.natAbs : ℚ) * 10 ^ (0 : Int)) = k := by
    rw [zpow_zero, mul_one]
    conv_rhs => rw [← Json.signed_natAbs k, Double.signed]
    split_ifs
    · rw [Int.cast_neg, Int.cast_natCast]
    · rw [Int.cast_natCast]
  rw [hvalue] at hclosest
  simpa [Literal.unsignedDouble, Literal.toDouble, Text.digitsValue_toDigits] using hclosest

lemma toString_ne_empty (k : Int) : toString k ≠ "" := by
  intro hempty
  have hlist := Json.toList_toString_int k
  rw [hempty] at hlist
  split_ifs at hlist
  · cases hlist
  · exact (Json.isWhole_toDigits k.natAbs).nonempty hlist.symm

lemma multiplier_str (hs : s ≠ "") : multiplier (.str s) = parseMultiplier (.str s) := by
  rw [multiplier]
  · exact nofun
  · exact fun heq => hs (Value.str.inj heq)

/-- A text that is read as a number multiplies as the number does. -/
lemma apply_multiply_str (hs : s ≠ "") (h : parseMultiplier (.str s) = .ok a) (input : Value) :
    apply input (.str s) .multiply = apply input a.toValue .multiply := by
  have hnumber : multiplier a.toValue = .ok a := by cases a <;> rfl
  rw [apply, apply, multiplier_str hs, h, hnumber]

lemma scaleMembers_int (k : Int) (members : List (String × Int)) :
    scaleMembers (.int k) (members.map fun (name, n) => (name, .int n))
      = .ok (members.map fun (name, n) => (name, .int (n * k))) := by
  induction members with
  | nil => rfl
  | cons m members ih =>
    have htext : ∀ s, Value.int m.2 ≠ .str s := by
      intro s hs
      cases hs
    rw [List.map_cons, scaleMembers_cons htext, ih]
    rfl

lemma apply_multiply_int_record (k : Int) (members : List (String × Int)) :
    apply (.object (members.map fun (name, n) => (name, .int n))) (.int k) .multiply
      = .ok (.object (members.map fun (name, n) => (name, .int (n * k)))) := by
  have hnumber : multiplier (.int k) = .ok (.int k) := rfl
  rw [apply_multiply_record hnumber, scaleMembers_int]
  rfl

/--
**An integer multiplies integers and records of integers exactly, and so does its text if the
integer is a double.** Any other text of an integer multiplies as the double closest to the integer
does, which is an integer as well, or an infinity.
-/
theorem multiply_toString (k : Int) :
    (∀ n : Int, apply (.int n) (.int k) .multiply = .ok (.int (n * k))) ∧
    (∀ members : List (String × Int),
      apply (.object (members.map fun (name, n) => (name, .int n))) (.int k) .multiply
        = .ok (.object (members.map fun (name, n) => (name, .int (n * k))))) ∧
    (|k| ≤ 2 ^ 53 → Double.IsExact k) ∧
    (Double.IsExact k → ∀ input,
      apply input (.str (toString k)) .multiply = apply input (.int k) .multiply) ∧
    (|(k : ℚ)| < limit → ∃ x n, IsClosest k x ∧ toRat x = (n : Int) ∧ ∀ input,
      apply input (.str (toString k)) .multiply = apply input (.int n) .multiply) ∧
    (limit ≤ |(k : ℚ)| → ∀ input, apply input (.str (toString k)) .multiply
      = apply input (.float (Double.withSign (decide (k < 0)) Double.infinity)) .multiply) := by
  obtain ⟨x, hclosest, hread⟩ := exists_parseMultiplier_toString k
  have htext := apply_multiply_str (toString_ne_empty k) hread
  have hwhole : |(k : ℚ)| < limit → ∀ n : Int, toRat x = n → ∀ input,
      apply input (.str (toString k)) .multiply = apply input (.int n) .multiply := by
    intro hlt n hn input
    rw [htext, Number.ofDouble_eq_int (hclosest.isFinite hlt) hn, Number.toValue]
  refine ⟨fun n => rfl, apply_multiply_int_record k, Double.isExact_intCast, fun hexact => ?_,
    fun hlt => ?_, fun hle input => ?_⟩
  · exact hwhole hexact.abs_lt k (hclosest.toRat_eq hexact)
  · obtain ⟨n, hn⟩ := hclosest.exists_intCast hlt
    exact ⟨x, n, hclosest, hn, hwhole hlt n hn⟩
  · rw [htext, hclosest.infinite hle, Number.ofDouble_eq_float, Number.toValue]
    · simp only [Int.cast_lt_zero]
    · cases decide ((k : ℚ) < 0) <;> decide +kernel

/-- The text of an integer of 54 binary digits multiplies as another integer does. -/
theorem multiply_toString_inexact :
    apply (.int 1) (.str (toString (2 ^ 53 + 1 : Int))) .multiply = .ok (.int (2 ^ 53)) ∧
      apply (.int 1) (.int (2 ^ 53 + 1)) .multiply = .ok (.int (2 ^ 53 + 1)) := by
  have hread : parseMultiplier (.str (toString (2 ^ 53 + 1 : Int))) = .ok (.int (2 ^ 53)) :=
    parseMultiplier_eq_ok_iff.2 (by decide +kernel)
  exact ⟨apply_multiply_str (toString_ne_empty _) hread _, rfl⟩

end Operation

end Workflow
