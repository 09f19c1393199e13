import Workflow.Proofs.Json.Place
import Workflow.Proofs.Json.Unique

/-!
# Joined texts

The text of a value holds no bar outside of its strings, so texts of values that are joined by bars
can be told apart again.
-/

namespace Workflow

namespace Json

open Text

/-! ### Marks -/

/-- A text from the first mark on that stands outside of its strings. -/
def fromMark (mark : Char) : Place → List Char → List Char
  | _, [] => []
  | place, c :: cs =>
    if place = .outside ∧ c = mark then c :: cs else fromMark mark (place.next c) cs

/-- A text without a mark outside of its strings is passed. -/
lemma Leads.fromMark_eq {mark : Char} {place place' : Place} {cs rest : List Char}
    (h : Leads (· ≠ mark) place cs place') :
    fromMark mark place (cs ++ rest) = fromMark mark place' rest := by
  induction h with
  | nil => rfl
  | cons hc _ ih =>
    rw [List.cons_append, fromMark, if_neg fun hmark => hc hmark.1 hmark.2]
    exact ih

/-! ### Strings -/

section Strings

variable {P : Char → Prop}

lemma digitChar_ne : ∀ d : Fin 16, Nat.digitChar d ≠ '"' ∧ Nat.digitChar d ≠ '\\' := by decide

lemma leads_unitEscape (P : Char → Prop) (unit : Nat) :
    Leads P .inside (unitEscape unit) .inside := by
  have hdigits : Leads P .inside (hexDigits 4 unit) .inside := by
    refine leads_inside fun c hc => ?_
    rw [hexDigits, List.mem_map] at hc
    obtain ⟨place, -, rfl⟩ := hc
    exact digitChar_ne ⟨_, Nat.mod_lt _ (by norm_num)⟩
  exact (leads_escape P 'u').append hdigits

lemma leads_writePart (P : Char → Prop) (p : Part) :
    Leads P .inside (writePart true p) .inside := by
  rcases writePart_cases p with ⟨c, -, hliteral, -, hwrite⟩ | ⟨letter, c, -, -, hwrite⟩ |
    ⟨-, hwrite⟩ | ⟨high, low, -, -, -, hwrite⟩ <;> rw [hwrite]
  · refine leads_inside fun c' hc' => ?_
    obtain rfl := List.mem_singleton.1 hc'
    constructor <;> rintro rfl <;> exact absurd hliteral (by decide)
  · exact leads_escape P letter
  · exact leads_unitEscape P _
  · exact (leads_unitEscape P _).append (leads_unitEscape P _)

/-- A string begins and ends outside of strings. -/
lemma leads_writeString (h : P '"') (s : String) :
    Leads P .outside (writeString true s).toList .outside := by
  rw [toList_writeString_true]
  have hclosing : Leads P .inside ['"'] .outside := .cons nofun (.nil .outside)
  exact .cons (fun _ => h) ((leads_flatMap fun p _ => leads_writePart P p).append hclosing)

end Strings

/-! ### Values -/

section Values

/-- A character that is part of no string, and no bar. -/
def IsBare (c : Char) : Prop :=
  c ≠ '"' ∧ c ≠ '|'

lemma isBare_of_isDigit {c : Char} (h : c.isDigit = true) : IsBare c := by
  constructor <;> rintro rfl <;> exact absurd h (by decide)

lemma isBare_signed {cs : List Char} (h : ∀ c ∈ cs, IsBare c) (negative : Bool) :
    ∀ c ∈ (if negative then '-' :: cs else cs), IsBare c := by
  cases negative with
  | true => exact List.forall_mem_cons.2 ⟨by simp [IsBare], h⟩
  | false => exact h

lemma isBare_exponentText (L : DoubleLayout) (e : Int) : ∀ c ∈ L.exponentText e, IsBare c := by
  obtain ⟨ds, htext, hdigits, -, -⟩ := exists_exponentText L e
  rw [htext]
  refine List.forall_mem_cons.2 ⟨?_, fun c hc => isBare_of_isDigit (hdigits c hc)⟩
  split_ifs <;> simp [IsBare]

lemma isBare_spelling (L : DoubleLayout) (t : DoubleLayout.Spelling) :
    ∀ c ∈ t.chars L, IsBare c := by
  have hfraction : ∀ c ∈ t.fractionChars, IsBare c := by
    rw [DoubleLayout.Spelling.fractionChars]
    split_ifs
    · exact List.forall_mem_nil _
    · exact List.forall_mem_cons.2 ⟨by simp [IsBare], fun c hc =>
        isBare_of_isDigit (t.digits c hc)⟩
  have hexponent : ∀ c ∈ t.exponentChars L, IsBare c := by
    rw [DoubleLayout.Spelling.exponentChars]
    cases t.exponent? with
    | none => exact List.forall_mem_nil _
    | some e => exact List.forall_mem_cons.2 ⟨by simp [IsBare], isBare_exponentText L e⟩
  simp only [DoubleLayout.Spelling.chars, List.forall_mem_append]
  exact ⟨fun c hc => isBare_of_isDigit (t.isWhole.digits c hc), hfraction, hexponent⟩

lemma isBare_float (x : Float) : ∀ c ∈ (DoubleLayout.trace.text x).toList, IsBare c := by
  cases hparts : Double.parts x with
  | nan =>
    rw [DoubleLayout.text, hparts]
    simp [DoubleLayout.trace, IsBare]
  | infinite negative =>
    rw [toList_trace_infinite hparts]
    exact isBare_signed (by simp [IsBare]) negative
  | finite negative m q =>
    have hfinite : Double.isFinite x = true := by rw [Double.isFinite, hparts]
    obtain ⟨negative, t, htext, -⟩ := DoubleLayout.exists_text highest_trace hfinite
    rw [htext]
    exact isBare_signed (isBare_spelling _ t) negative

lemma isBare_int (n : Int) : ∀ c ∈ (toString n).toList, IsBare c := by
  rw [toList_toString_int]
  exact isBare_signed (fun c hc => isBare_of_isDigit ((isWhole_toDigits _).digits c hc)) _

/-- The text of a value, whose bars all stand within strings. -/
def Sealed (cs : List Char) : Prop :=
  Leads (· ≠ '|') .outside cs .outside

lemma sealed_of_isBare {cs : List Char} (h : ∀ c ∈ cs, IsBare c) : Sealed cs :=
  leads_outside h

lemma sealed_enclose {α : Type} {text : α → String} {first last : String} (as : List α)
    (hfirst : ∀ c ∈ first.toList, IsBare c) (hlast : ∀ c ∈ last.toList, IsBare c)
    (h : ∀ a ∈ as, Sealed (text a).toList) (depth : Nat) :
    Sealed (Style.fingerprint.enclose depth first last (as.map text)).toList := by
  have hcomma : Sealed [','] := sealed_of_isBare (by simp [IsBare])
  have hlater : ∀ as : List α, (∀ a ∈ as, Sealed (text a).toList) → Sealed (laterItems text as) :=
    fun as has => leads_flatMap fun a ha => hcomma.append (has a ha)
  rw [exists_enclose]
  refine ((sealed_of_isBare hfirst).append ?_).append (sealed_of_isBare hlast)
  cases as with
  | nil => exact .nil .outside
  | cons a as =>
    obtain ⟨ha, has⟩ := List.forall_mem_cons.1 h
    exact ha.append (hlater as has)

mutual

/-- Every bar in the compact text of a value stands within one of its strings. -/
lemma sealed_writeAt : ∀ (v : Value) (depth : Nat), Sealed (writeAt .fingerprint depth v).toList
  | .null, _ => sealed_of_isBare (by simp [writeAt, IsBare])
  | .bool b, _ => by
    cases b <;> exact sealed_of_isBare (by simp [writeAt, IsBare])
  | .int n, _ => sealed_of_isBare (isBare_int n)
  | .float x, _ => sealed_of_isBare (isBare_float x)
  | .str s, _ => leads_writeString (by decide) s
  | .list items, depth => by
    rw [writeAt, writeItems_eq]
    exact sealed_enclose items (by simp [IsBare]) (by simp [IsBare])
      (sealed_items items (depth + 1)) depth
  | .object members, depth => by
    rw [writeAt, writeMembers_fingerprint]
    exact sealed_enclose members (by simp [IsBare]) (by simp [IsBare])
      (sealed_members members (depth + 1)) depth

lemma sealed_items : ∀ (vs : List Value) (depth : Nat),
    ∀ v ∈ vs, Sealed (writeAt .fingerprint depth v).toList
  | [], _ => nofun
  | v :: vs, depth => List.forall_mem_cons.2 ⟨sealed_writeAt v depth, sealed_items vs depth⟩

lemma sealed_members : ∀ (ms : List (String × Value)) (depth : Nat),
    ∀ m ∈ ms, Sealed (memberOf depth m).toList
  | [], _ => nofun
  | (name, v) :: ms, depth => by
    refine List.forall_mem_cons.2 ⟨?_, sealed_members ms depth⟩
    have hcolon : Sealed [':'] := sealed_of_isBare (by simp [IsBare])
    simp only [memberOf, String.toList_append]
    exact ((leads_writeString (by decide) name).append hcolon).append (sealed_writeAt v depth)

end

end Values

/-! ### Joined texts -/

section Joined

variable {texts texts' : List String}

/-- What follows the first of some texts that are joined by bars. -/
def barred (texts : List String) : List Char :=
  texts.flatMap fun text => '|' :: text.toList

lemma fromMark_barred (texts : List String) :
    fromMark '|' .outside (barred texts) = barred texts := by
  cases texts with
  | nil => rfl
  | cons text texts => simp [barred, fromMark]

/-- The first text ends where the first bar stands outside of its strings. -/
lemma sealed_cancel {text text' : String} (h : Sealed text.toList) (h' : Sealed text'.toList)
    (heq : text.toList ++ barred texts = text'.toList ++ barred texts') :
    text = text' ∧ barred texts = barred texts' := by
  have hrest : barred texts = barred texts' := by
    rw [← fromMark_barred texts, ← h.fromMark_eq, heq, h'.fromMark_eq, fromMark_barred]
  rw [hrest] at heq
  exact ⟨String.toList_inj.1 (List.append_cancel_right heq), hrest⟩

lemma barred_cancel (h : ∀ text ∈ texts, Sealed text.toList)
    (h' : ∀ text ∈ texts', Sealed text.toList) (heq : barred texts = barred texts') :
    texts = texts' := by
  induction texts generalizing texts' with
  | nil =>
    cases texts' with
    | nil => rfl
    | cons text' texts' => cases heq
  | cons text texts ih =>
    cases texts' with
    | nil => cases heq
    | cons text' texts' =>
      obtain ⟨htext, htexts⟩ := List.forall_mem_cons.1 h
      obtain ⟨htext', htexts'⟩ := List.forall_mem_cons.1 h'
      simp only [barred, List.flatMap_cons, List.cons_append, List.cons.injEq, true_and] at heq
      obtain ⟨rfl, hrest⟩ := sealed_cancel htext htext' heq
      rw [ih htexts htexts' hrest]

/-- **Texts of values that are joined by bars are known one by one**, if it is known that there are
any. -/
theorem intercalate_bar_injective (h : ∀ text ∈ texts, Sealed text.toList)
    (h' : ∀ text ∈ texts', Sealed text.toList) (hnil : texts = [] ↔ texts' = [])
    (heq : "|".intercalate texts = "|".intercalate texts') : texts = texts' := by
  cases texts with
  | nil => exact (hnil.1 rfl).symm
  | cons text texts =>
    cases texts' with
    | nil => exact hnil.2 rfl
    | cons text' texts' =>
      obtain ⟨htext, htexts⟩ := List.forall_mem_cons.1 h
      obtain ⟨htext', htexts'⟩ := List.forall_mem_cons.1 h'
      have hjoined := congrArg String.toList heq
      rw [toList_intercalate_cons, toList_intercalate_cons] at hjoined
      obtain ⟨rfl, hrest⟩ := sealed_cancel htext htext' hjoined
      rw [barred_cancel htexts htexts' hrest]

end Joined

end Json

end Workflow
