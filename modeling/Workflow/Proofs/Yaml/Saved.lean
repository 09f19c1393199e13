import Workflow.Proofs.Graph.Saved
import Workflow.Proofs.Yaml.File

/-!
# Saved workflows read as YAML

A double without a point is a text in YAML. Where a coordinate is to be read, such a text is as good
as the double, so that only the payloads of a workflow can suffer from it.
-/

namespace Workflow

open Text Json Yaml

variable {x : Float} {cs rest : List Char}

/-! ### Doubles as texts -/

namespace Literal

lemma asciiDigitValue?_of_isDigit {c : Char} (h : c.isDigit = true) :
    asciiDigitValue? c = some (c.toNat - '0'.toNat) := by
  rw [Char.isDigit, Bool.and_eq_true, decide_eq_true_iff, decide_eq_true_iff] at h
  exact if_pos h

lemma asciiDigitValue?_eq_none {c : Char} (h : c.isDigit = false) : asciiDigitValue? c = none := by
  rw [Char.isDigit, Bool.and_eq_false_iff, decide_eq_false_iff_not, decide_eq_false_iff_not,
    ← not_and_or] at h
  exact if_neg h

/-- A run of digits ends where no digit follows. -/
lemma digitRun_append (hcs : ∀ c ∈ cs, c.isDigit = true) (hrest : EndsDigits rest) :
    digitRun asciiDigitValue? (cs ++ rest) = (valuesOf cs, rest) := by
  induction cs with
  | nil =>
    cases rest with
    | nil => rfl
    | cons c rest =>
      rw [List.nil_append, digitRun, asciiDigitValue?_eq_none (hrest c rfl)]
      rfl
  | cons c cs ih =>
    obtain ⟨hc, hcs⟩ := List.forall_mem_cons.1 hcs
    rw [List.cons_append, digitRun, asciiDigitValue?_of_isDigit hc, ih hcs]
    rfl

lemma scanExponent_exponentText (L : DoubleLayout) (e : Int) :
    scanExponent asciiDigitValue? ('e' :: L.exponentText e) = (e, []) := by
  obtain ⟨ds, htext, hdigits, hne, hvalue⟩ := exists_exponentText L e
  have hrun : digitRun asciiDigitValue? ds = (valuesOf ds, []) := by
    have hrun := @digitRun_append ds [] hdigits nofun
    rwa [List.append_nil] at hrun
  have hsome : valuesOf ds ≠ [] := fun hnil => hne (List.map_eq_nil_iff.1 hnil)
  have hsign : sign (L.exponentText e) = (decide (e < 0), ds) := by
    rw [htext]
    by_cases hnegative : e < 0
    · simp [sign, hnegative]
    · simp [sign, hnegative]
  obtain ⟨d, ds', hvalues⟩ := List.exists_cons_of_ne_nil hsome
  rw [hvalues] at hrun hvalue
  rw [scanExponent, if_pos (by decide), hsign, hrun]
  simp only [hvalue, signed_natAbs]

/-- A whole part with an exponent is scanned to its end. -/
lemma scan_exponent (hcs : IsWhole cs) (L : DoubleLayout) (e : Int) :
    scan asciiDigitValue? (cs ++ 'e' :: L.exponentText e) = some (⟨valuesOf cs, [], e⟩, []) := by
  have hrun := digitRun_append hcs.digits (endsDigits_cons (c := 'e') rfl (L.exponentText e))
  have hsome : valuesOf cs ≠ [] := fun hnil => hcs.nonempty (List.map_eq_nil_iff.1 hnil)
  simp [scan, hrun, hsome, scanExponent_exponentText]

end Literal

namespace Reading

lemma trimWhite_eq_self (h : ∀ c ∈ cs, isWhite c = false) : trimWhite cs = cs := by
  have hdrop : ∀ {cs : List Char}, (∀ c ∈ cs, isWhite c = false) → cs.dropWhile isWhite = cs := by
    intro cs h
    cases cs with
    | nil => rfl
    | cons c cs => exact List.dropWhile_cons_of_neg (by simp [h c List.mem_cons_self])
  rw [trimWhite, hdrop h, hdrop fun c hc => h c (List.mem_reverse.1 hc), List.reverse_reverse]

lemma isWhite_of_isNumeral {c : Char} (h : isNumeral c = true) : isWhite c = false := by
  have hne : c.toNat ≠ 0x20 := by
    intro hspace
    obtain rfl : c = ' ' := Char.toNat_inj.1 hspace
    cases h
  obtain ⟨hlow, hhigh⟩ := toNat_of_isNumeral h
  simp only [isWhite, Bool.or_eq_false_iff, Bool.and_eq_false_iff, decide_eq_false_iff_not]
  omega

lemma toLower_of_isDigit {c : Char} (h : c.isDigit = true) : c.toLower = c := by
  rw [Char.isDigit, Bool.and_eq_true, decide_eq_true_iff, decide_eq_true_iff] at h
  have hhigh : c.toNat ≤ 57 := h.2
  have hnot : ¬(65 ≤ c.toNat ∧ c.toNat ≤ 90) := by omega
  exact dif_neg hnot

/-- What begins with a digit is none of the words for non-finite doubles. -/
lemma ofList_asciiLower_ne {c : Char} (hc : c.isDigit = true) {word : String}
    (hword : word.toList.head?.any Char.isDigit = false) :
    String.ofList (asciiLower (c :: cs)) ≠ word := by
  rintro rfl
  rw [String.toList_ofList, asciiLower, List.map_cons, toLower_of_isDigit hc, List.head?_cons,
    Option.any_some, hc] at hword
  cases hword

lemma doubleText?_exponent (hcs : IsWhole cs) (negative : Bool) (L : DoubleLayout) (e : Int) :
    doubleText? (if negative then '-' :: (cs ++ 'e' :: L.exponentText e)
        else cs ++ 'e' :: L.exponentText e)
      = some (Double.withSign negative (⟨valuesOf cs, [], e⟩ : Literal).toDouble) := by
  obtain ⟨c, tail, hdigits⟩ := List.exists_cons_of_ne_nil hcs.nonempty
  have hc : c.isDigit = true := hcs.digits c (by rw [hdigits]; exact List.mem_cons_self)
  have hsign := sign_of_isDigit negative hc (tail ++ 'e' :: L.exponentText e)
  rw [← List.cons_append, ← hdigits] at hsign
  have hwords : ∀ word : String, word.toList.head?.any Char.isDigit = false →
      String.ofList (asciiLower (cs ++ 'e' :: L.exponentText e)) ≠ word := by
    rw [hdigits]
    exact fun word => ofList_asciiLower_ne hc
  rw [doubleText?, hsign]
  simp only [hwords "inf" rfl, hwords "infinity" rfl, hwords "nan" rfl, or_self, if_false,
    Literal.scan_exponent hcs]

/-- The text of a double without a point is read as the double. -/
lemma double_pointless (hx : Double.isFinite x = true)
    (hpoint : '.' ∉ (DoubleLayout.saved.text x).toList) :
    double (.str (DoubleLayout.saved.text x)) = .ok x := by
  obtain ⟨negative, t, e, htext, hfraction, hexponent, hvalue⟩ := exists_pointless hx hpoint
  have hnumeral : ∀ c ∈ (DoubleLayout.saved.text x).toList, isNumeral c = true := fun c hc =>
    DoubleLayout.isNumeral_text DoubleLayout.highest_saved hx hc
  have hwhole : hasHalf (DoubleLayout.saved.text x) = false := by
    rw [hasHalf, parts_eq]
    exact (isClosed_of_isPlain fun c hc => isPlain_of_isNumeral (hnumeral c hc)).whole
  have hliteral : t.literal = ⟨valuesOf t.whole, [], e⟩ := by
    rw [DoubleLayout.Spelling.literal, hfraction, hexponent]
    rfl
  have hread : doubleText? (DoubleLayout.saved.text x).toList = some x := by
    rw [htext, doubleText?_exponent t.isWhole, ← hliteral, hvalue]
  rw [double, unbroken, hwhole, if_neg Bool.false_ne_true, doubleOfText, lenientDouble?,
    trimWhite_eq_self fun c hc => isWhite_of_isNumeral (hnumeral c hc), hread]

/-- Where a double is to be read, it does not matter whether its text has a point. -/
lemma double_asYaml (hx : Double.isFinite x = true) :
    double (.ofValue (Value.float x).asYaml) = .ok x := by
  rw [Value.asYaml, isPointedDouble]
  split_ifs with hpoint
  · rfl
  · exact double_pointless hx fun hmem => hpoint (List.contains_iff_mem.2 hmem)

end Reading

/-! ### Workflows -/

section Workflow

variable {p : Position} {n : Node} {w : Export} {room : Nat}

/-- A position is read from what YAML takes its text for. -/
lemma Position.read_asYaml (h : p.toValue.Fits (room + 1)) :
    Position.read (.ofValue p.toValue.asYaml) = .ok p := by
  have hfinite : ∀ name x, (name, Value.float x) ∈ [("x", Value.float p.x), ("y", .float p.y)] →
      Double.isFinite x = true := by
    intro name x hx
    cases h.member (name, .float x) hx
    assumption
  let ms : Members :=
    Document.ofMembers (Value.asYamlMembers [("x", .float p.x), ("y", .float p.y)])
  have hfirst : ms.optional "x" [] 0 Reading.double = .ok p.x :=
    Members.optional_of_find? rfl (Reading.double_asYaml (hfinite "x" p.x (by simp)))
  have hsecond : ms.optional "y" [] 0 Reading.double = .ok p.y :=
    Members.optional_of_find? rfl (Reading.double_asYaml (hfinite "y" p.y (by simp)))
  change Position.mk <$> ms.optional "x" [] 0 _ <*> ms.optional "y" [] 0 _ = _
  rw [hfirst, hsecond]
  rfl

lemma Node.read_asYaml (h : n.toValue.Fits (room + 2))
    (hpointed : n.payload.toValue.isPointed = true) :
    Node.read (.ofValue n.toValue.asYaml) = .ok n := by
  have hpayload := payload_fits h
  have hposition : n.position.toValue.Fits (room + 1) :=
    h.member ("position", n.position.toValue) (by simp)
  have hnode : n.toValue.asYaml = .object [("id", .str n.id), ("type", .str n.type.name),
      ("position", n.position.toValue.asYaml), ("data", n.payload.toValue)] := by
    rw [toValue, around, Value.asYaml]
    simp only [Value.asYamlMembers, hpayload.asYaml_eq hpointed]
    rfl
  rw [hnode]
  exact read_of_position (Payload.isSound_of_fits hpayload) (Position.read_asYaml hposition)

lemma Export.asYaml_toValue (w : Export) : w.toValue.asYaml
    = .object (w.graph.around (w.graph.nodes.map fun n => n.toValue.asYaml) ++ w.stamp) := by
  have hedges : Value.asYamlItems (w.graph.edges.map Edge.toValue)
      = w.graph.edges.map Edge.toValue := by
    rw [Value.asYamlItems_eq_map, List.map_map]
    rfl
  have hnodes : Value.asYamlItems (w.graph.nodes.map Node.toValue)
      = w.graph.nodes.map fun n => n.toValue.asYaml := by
    rw [Value.asYamlItems_eq_map, List.map_map]
    rfl
  rw [toValue, Graph.members, Graph.around, stamp, Value.asYaml]
  simp only [List.cons_append, List.nil_append, Value.asYamlMembers, Value.asYaml, hedges, hnodes]
  rfl

/-- **A workflow is read from what YAML takes it for,** if all doubles in payloads have a point. -/
theorem Export.read_asYaml (h : w.toValue.Fits (room + 4))
    (hpointed : ∀ n ∈ w.graph.nodes, n.payload.toValue.isPointed = true) (now : Int) :
    Export.read now (.ofValue w.toValue.asYaml) = .ok w := by
  rw [asYaml_toValue]
  exact read_of_nodes (readNullableList_of_items fun n hn =>
    Node.read_asYaml (node_fits h n hn) (hpointed n hn)) now

end Workflow

end Workflow
