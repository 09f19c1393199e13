import Workflow.Proofs.Json.Value
import Workflow.Proofs.Text.Utf8

/-!
# Files are read as they were written

A file holds the bytes of a JSON text. The text has no half of a surrogate pair, whatever its value
holds, so that the bytes are read as the very text, and the text as the value.
-/

namespace Workflow

open Text Json

/-! ### The characters of numbers -/

/-- A character that the text of a number may hold. -/
def isNumeral (c : Char) : Bool :=
  c.isDigit || c = '-' || c = '+' || c = '.' || c = 'e'

lemma isNumeral_of_isDigit {c : Char} (h : c.isDigit = true) : isNumeral c = true := by
  simp [isNumeral, h]

lemma toNat_of_isNumeral {c : Char} (h : isNumeral c = true) :
    0x20 ≤ c.toNat ∧ c.toNat ≤ 0x7e := by
  simp only [isNumeral, Char.isDigit, Bool.or_eq_true, Bool.and_eq_true, decide_eq_true_iff] at h
  rcases h with (((⟨hlow, hhigh⟩ | rfl) | rfl) | rfl) | rfl
  · have hlow : 48 ≤ c.toNat := hlow
    have hhigh : c.toNat ≤ 57 := hhigh
    omega
  all_goals decide

namespace DoubleLayout

variable {L : DoubleLayout} {cs : List Char} {c : Char}

lemma isNumeral_exponentText {e : Int} (hc : c ∈ L.exponentText e) : isNumeral c = true := by
  obtain ⟨cs, htext, hdigits, -, -⟩ := exists_exponentText L e
  rw [htext] at hc
  rcases List.mem_cons.1 hc with rfl | hc
  · split_ifs <;> rfl
  · exact isNumeral_of_isDigit (hdigits c hc)

lemma Spelling.isNumeral_chars {t : Spelling} (hc : c ∈ t.chars L) : isNumeral c = true := by
  rw [chars, List.mem_append, List.mem_append] at hc
  rcases hc with hc | hc | hc
  · exact isNumeral_of_isDigit (t.isWhole.digits c hc)
  · rw [fractionChars] at hc
    split_ifs at hc
    · cases hc
    · rcases List.mem_cons.1 hc with rfl | hc
      · rfl
      · exact isNumeral_of_isDigit (t.digits c hc)
  · rw [exponentChars] at hc
    cases hexponent : t.exponent? with
    | none => simp [hexponent] at hc
    | some e =>
      rw [hexponent] at hc
      rcases List.mem_cons.1 hc with rfl | hc
      · rfl
      · exact isNumeral_exponentText hc

lemma isNumeral_text (hlayout : L.highest ≤ Literal.maxIntegerDigits - 1) {x : Float}
    (hx : Double.isFinite x = true) (hc : c ∈ (L.text x).toList) : isNumeral c = true := by
  obtain ⟨negative, t, htext, -⟩ := exists_text hlayout hx
  rw [htext] at hc
  cases negative with
  | false => exact t.isNumeral_chars hc
  | true =>
    rcases List.mem_cons.1 hc with rfl | hc
    · rfl
    · exact t.isNumeral_chars hc

end DoubleLayout

lemma isNumeral_toString_int {n : Int} {c : Char} (hc : c ∈ (toString n).toList) :
    isNumeral c = true := by
  rw [toList_toString_int] at hc
  split_ifs at hc
  · rcases List.mem_cons.1 hc with rfl | hc
    · rfl
    · exact isNumeral_of_isDigit ((isWhole_toDigits _).digits c hc)
  · exact isNumeral_of_isDigit ((isWhole_toDigits _).digits c hc)

lemma Text.isPlain_of_isNumeral {c : Char} (h : isNumeral c = true) : IsPlain c :=
  isPlain_of_lt ((toNat_of_isNumeral h).2.trans_lt (by norm_num))

/-! ### Closed texts -/

namespace Json

variable {depth : Nat}

lemma isClosed_lineBreak (depth : Nat) : IsClosed (Style.file.lineBreak depth).toList := by
  apply isClosed_of_isPlain
  intro c hc
  have hblank := isBlank_of_mem_lineBreak hc
  simp only [isBlank, Bool.or_eq_true, decide_eq_true_iff] at hblank
  rcases hblank with ((rfl | rfl) | rfl) | rfl <;> exact isPlain_of_lt (by decide)

lemma isClosed_writeString (s : String) : IsClosed (writeString false s).toList := by
  have hquote : IsPlain '"' := isPlain_of_lt (by decide)
  rw [toList_writeString]
  exact isClosed_between hquote hquote _

lemma isClosed_ascii {cs : List Char} (h : cs.all fun c => decide (c.toNat < 0x80)) :
    IsClosed cs := by
  apply isClosed_of_isPlain
  intro c hc
  have hlt : c.toNat < 0x80 := of_decide_eq_true (List.all_eq_true.1 h c hc)
  exact isPlain_of_lt (by omega)

lemma isClosed_cons {c : Char} (hc : decide (c.toNat < 0x80)) {cs : List Char} (h : IsClosed cs) :
    IsClosed (c :: cs) := by
  have hsingle : IsClosed [c] := isClosed_ascii (by simpa using hc)
  exact hsingle.append h

lemma isClosed_noItems (depth : Nat) : IsClosed (writeAt .file depth (.list [])).toList := by
  have htext : (writeAt .file depth (.list [])).toList = ['[', ']'] := by
    simp [writeAt, writeItems, Style.enclose]
  rw [htext]
  exact isClosed_ascii (by decide)

lemma isClosed_noMembers (depth : Nat) : IsClosed (writeAt .file depth (.object [])).toList := by
  have htext : (writeAt .file depth (.object [])).toList = ['\x7b', '\x7d'] := by
    simp [writeAt, writeMembers, Style.enclose]
  rw [htext]
  exact isClosed_ascii (by decide)

lemma isClosed_list {items : List Value}
    (h : ∀ v ∈ items, IsClosed (writeAt .file (depth + 1) v).toList) :
    IsClosed (writeAt .file depth (.list items)).toList := by
  cases items with
  | nil => exact isClosed_noItems depth
  | cons v vs =>
    obtain ⟨hv, hvs⟩ := List.forall_mem_cons.1 h
    have hothers : IsClosed (otherItems (depth + 1) vs) := by
      apply isClosed_flatMap
      intro u hu
      exact isClosed_cons rfl ((isClosed_lineBreak _).append (hvs u hu))
    have hclosing : IsClosed [']'] := isClosed_ascii (by decide)
    rw [toList_writeAt_list]
    exact isClosed_cons rfl ((isClosed_lineBreak _).append
      (hv.append (hothers.append ((isClosed_lineBreak _).append hclosing))))

lemma isClosed_memberText {m : String × Value} (h : IsClosed (writeAt .file depth m.2).toList) :
    IsClosed (memberText depth m) := by
  rw [memberText]
  exact (isClosed_writeString m.1).append (isClosed_cons rfl (isClosed_cons rfl h))

lemma isClosed_object {members : List (String × Value)}
    (h : ∀ m ∈ members, IsClosed (writeAt .file (depth + 1) m.2).toList) :
    IsClosed (writeAt .file depth (.object members)).toList := by
  cases members with
  | nil => exact isClosed_noMembers depth
  | cons m ms =>
    obtain ⟨hm, hms⟩ := List.forall_mem_cons.1 h
    have hothers : IsClosed (otherMembers (depth + 1) ms) := by
      apply isClosed_flatMap
      intro k hk
      exact isClosed_cons rfl ((isClosed_lineBreak _).append (isClosed_memberText (hms k hk)))
    have hclosing : IsClosed ['\x7d'] := isClosed_ascii (by decide)
    rw [toList_writeAt_object]
    exact isClosed_cons rfl ((isClosed_lineBreak _).append
      ((isClosed_memberText hm).append (hothers.append ((isClosed_lineBreak _).append hclosing))))

end Json

lemma Value.Fits.isClosed {room : Nat} {v : Value} (h : v.Fits room) (depth : Nat) :
    IsClosed (writeAt .file depth v).toList := by
  induction h generalizing depth with
  | null room =>
    rw [show (writeAt .file depth .null).toList = ['n', 'u', 'l', 'l'] by simp [writeAt]]
    exact isClosed_ascii (by decide)
  | bool room b =>
    cases b with
    | false =>
      rw [show (writeAt .file depth (.bool false)).toList = ['f', 'a', 'l', 's', 'e'] by
        simp [writeAt]]
      exact isClosed_ascii (by decide)
    | true =>
      rw [show (writeAt .file depth (.bool true)).toList = ['t', 'r', 'u', 'e'] by simp [writeAt]]
      exact isClosed_ascii (by decide)
  | int room h => exact isClosed_of_isPlain fun c hc =>
    isPlain_of_isNumeral (isNumeral_toString_int hc)
  | float room h => exact isClosed_of_isPlain fun c hc =>
    isPlain_of_isNumeral (DoubleLayout.isNumeral_text DoubleLayout.highest_saved h hc)
  | str room h => exact isClosed_writeString _
  | noItems room => exact isClosed_noItems depth
  | noMembers room => exact isClosed_noMembers depth
  | list _ ih => exact isClosed_list fun v hv => ih v hv (depth + 1)
  | object _ _ _ ih => exact isClosed_object fun m hm => ih m hm (depth + 1)

/-- **The bytes of a file are read as the value that was written into it.** -/
theorem Json.read_bytes {v : Value} (h : v.Fits 200) :
    ∃ text, decodeUtf8 (toUtf8 (write .file v)) = .ok text ∧
      read .file (ofChars text.toList) = .ok v := by
  have hwhole : hasHalf (write .file v) = false := by
    rw [hasHalf, parts_eq]
    exact (h.isClosed 0).whole
  refine ⟨_, decodeUtf8_toUtf8 _, ?_⟩
  rw [ofChars_shown hwhole, read_write h]

end Workflow
