import Workflow.Proofs.Json.Spelled
import Workflow.Proofs.Number.Range
import Workflow.Proofs.Run.Walk

/-!
# What a start node emits

The doubles that a start node emits are those nearest to literals of its payload. The words for
non-finite numbers are refused, but a literal beyond the range of the doubles is the infinity.
-/

namespace Workflow

/--
A double that a start node emits: it is finite if it is spelled by a literal within the range of the
doubles, and an infinity if the literal lies beyond it.
-/
inductive IsEmitted (text : List Char) : Float → Prop where
  | finite {negative : Bool} {l : Literal} (hspells : Json.Spells text negative l)
      (hlt : l.magnitude < Double.limit)
      (hfinite : Double.isFinite (Double.withSign negative l.toDouble) = true) :
      IsEmitted text (Double.withSign negative l.toDouble)
  | infinite {negative : Bool} {l : Literal} (hspells : Json.Spells text negative l)
      (hle : Double.limit ≤ l.magnitude) :
      IsEmitted text (Double.withSign negative Double.infinity)

lemma isEmitted_of_isSpelled {text : List Char} {x : Float} (h : Json.IsSpelled text x) :
    IsEmitted text x := by
  obtain ⟨negative, l, hspells, rfl⟩ := h
  rcases lt_or_ge l.magnitude Double.limit with hlt | hle
  · exact .finite hspells hlt (Double.isFinite_withSign (Literal.isFinite_toDouble hlt) negative)
  · rw [Literal.toDouble_eq_infinity hle]
    exact .infinite hspells hle

namespace StartData

/-! ### Evaluation -/

/-- What keeps a start node from emitting anything: its payload is malformed or nested too deep. -/
lemma evaluate_error_cases {d : StartData} (h : ∀ v, d.evaluate ≠ .ok v) :
    d.evaluate = .error .invalidPayload ∨ ∃ kind, d.evaluate = .error (.deepPayload kind) := by
  revert h
  rw [evaluate]
  split
  · next v _ => exact fun h => absurd rfl (h v)
  · exact fun _ => .inl rfl
  · next kind _ => exact fun _ => .inr ⟨kind, rfl⟩

/--
**A start node emits an infinity only for a literal beyond the range of the doubles.** Every double
that it emits is spelled in its payload. A payload with a letter of the words for non-finite numbers
outside of its strings is refused, but one that is a literal beyond the range is not.
-/
theorem evaluate_doubles (d : StartData) :
    (∀ v, d.evaluate = .ok v → v.AllDoubles (IsEmitted d.payload.toList)) ∧
    (∀ before c after, d.payload.toList = before ++ c :: after →
      Json.Leads (fun _ => True) .outside before .outside → c = 'N' ∨ c = 'I' →
      d.evaluate = .error .invalidPayload ∨ ∃ kind, d.evaluate = .error (.deepPayload kind)) ∧
    (∀ negative l, Json.BeginsWith negative l d.payload.toList [] → Double.limit ≤ l.magnitude →
      d.evaluate = .ok (.float (Double.withSign negative Double.infinity))) := by
  refine ⟨fun v hv => ?_, fun before c after htext hbefore hc => ?_, fun negative l htext hle => ?_⟩
  · obtain ⟨hspelled, -⟩ := Json.allDoubles_of_read rfl (evaluate_eq_ok_iff.1 hv)
    exact hspelled.mono fun _ => isEmitted_of_isSpelled
  · refine evaluate_error_cases fun v hv => ?_
    obtain ⟨-, hleads⟩ := Json.allDoubles_of_read rfl (evaluate_eq_ok_iff.1 hv)
    rw [htext] at hleads
    exact hc.elim (hleads.holds hbefore).1 (hleads.holds hbefore).2
  · have hread := Json.read_of_literal (D := .payload) rfl htext
    rw [Literal.toDouble_eq_infinity hle] at hread
    exact evaluate_eq_ok_iff.2 hread

/-- The literal lies beyond the range of the doubles, which ends below the power 1024 of two. -/
theorem evaluate_doubles_far : ∃ l : Literal, Double.limit ≤ l.magnitude ∧
    Json.BeginsWith false l "1e999".toList [] ∧
    ({ label := "Start", payload := "1e999" } : StartData).evaluate
      = .ok (.float Double.infinity) := by
  have hfar : Double.limit ≤ (⟨[1], [], 999⟩ : Literal).magnitude := by
    have hmono : (10 : ℚ) ^ (400 : Int) ≤ 10 ^ (999 : Int) :=
      zpow_le_zpow_right₀ (by norm_num) (by norm_num)
    have hvalue : (⟨[1], [], 999⟩ : Literal).magnitude = 10 ^ (999 : Int) := by
      simp [Literal.magnitude, Text.digitsValue]
    rw [hvalue]
    exact Double.limit_lt_ten_pow.le.trans hmono
  have htext : Json.BeginsWith false ⟨[1], [], 999⟩ "1e999".toList [] := ⟨_, rfl, rfl⟩
  exact ⟨_, hfar, htext, (evaluate_doubles { label := "Start", payload := "1e999" }).2.2 false _
    htext hfar⟩

end StartData

end Workflow
