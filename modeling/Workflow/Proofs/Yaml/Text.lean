import Workflow.Proofs.Json.File
import Workflow.Yaml.Basic

/-!
# JSON files as YAML texts

A saved workflow is a JSON text, and the program that runs it reads it as YAML. This module says
which characters the text has, and which values have a text that YAML takes for the same. It takes
some for another: a double without a point is no number, a few characters may not stand in a text or
end a line in it, and a name may not be too long.
-/

namespace Workflow

open Text Json

namespace Json

/-- The characters of a JSON string in a file. -/
def quotedChars (s : String) : List Char :=
  '"' :: ((shown s).toList.flatMap (writeChar false) ++ ['"'])

/-- The characters of a value's text in a file. -/
def fileChars (depth : Nat) (v : Value) : List Char :=
  (shown (writeAt .file depth v)).toList

/-- The line break before an item at some depth. -/
def breakChars (depth : Nat) : List Char :=
  '\n' :: List.replicate (2 * depth) ' '

end Json

/-! ### Values for YAML -/

namespace Yaml

/-- A character that YAML reads as it stands in a JSON string, or as the escape that it is there. -/
def isSafe (c : Char) : Bool :=
  c.toNat < 0x20 || (isAllowed c && !isBreak c)

/-- Whether all characters of a text are safe. -/
def isSafeText (s : String) : Bool :=
  (shown s).toList.all isSafe

/-- Whether a text can be the name of a member: it is safe, and not too long with its quotes. -/
def isSafeName (s : String) : Bool :=
  isSafeText s && (quotedChars s).length ≤ 1024

/-- Whether the text of a double in a file has a point. -/
def isPointedDouble (x : Float) : Bool :=
  (DoubleLayout.saved.text x).toList.contains '.'

end Yaml

namespace Value

mutual

/-- Whether YAML reads all texts in the JSON text of a value as they are. -/
def isLegible : Value → Bool
  | str s => Yaml.isSafeText s
  | list items => isLegibleItems items
  | object members => isLegibleMembers members
  | _ => true

/-- Whether YAML reads all texts in the JSON texts of the items of a list as they are. -/
def isLegibleItems : List Value → Bool
  | [] => true
  | v :: vs => isLegible v && isLegibleItems vs

/-- Whether YAML reads all texts in the JSON texts of the members of an object as they are. -/
def isLegibleMembers : List (String × Value) → Bool
  | [] => true
  | (name, v) :: rest => Yaml.isSafeName name && isLegible v && isLegibleMembers rest

end

mutual

/-- Whether all doubles in the JSON text of a value have a point. -/
def isPointed : Value → Bool
  | float x => Yaml.isPointedDouble x
  | list items => isPointedItems items
  | object members => isPointedMembers members
  | _ => true

/-- Whether all doubles in the JSON texts of the items of a list have a point. -/
def isPointedItems : List Value → Bool
  | [] => true
  | v :: vs => isPointed v && isPointedItems vs

/-- Whether all doubles in the JSON texts of the members of an object have a point. -/
def isPointedMembers : List (String × Value) → Bool
  | [] => true
  | (_, v) :: rest => isPointed v && isPointedMembers rest

end

mutual

/-- What YAML takes the JSON text of a value for: a double without a point is a text. -/
def asYaml : Value → Value
  | float x => if Yaml.isPointedDouble x then float x else str (DoubleLayout.saved.text x)
  | list items => list (asYamlItems items)
  | object members => object (asYamlMembers members)
  | v => v

/-- What YAML takes the items of a list for. -/
def asYamlItems : List Value → List Value
  | [] => []
  | v :: vs => asYaml v :: asYamlItems vs

/-- What YAML takes the members of an object for. -/
def asYamlMembers : List (String × Value) → List (String × Value)
  | [] => []
  | (name, v) :: rest => (name, asYaml v) :: asYamlMembers rest

end

variable {room : Nat} {items : List Value} {members : List (String × Value)} {v : Value}

lemma isLegibleItems_iff : isLegibleItems items = true ↔ ∀ v ∈ items, v.isLegible = true := by
  induction items with
  | nil => simp [isLegibleItems]
  | cons v items ih => rw [isLegibleItems, Bool.and_eq_true, ih, List.forall_mem_cons]

lemma isLegibleMembers_iff : isLegibleMembers members = true ↔
    ∀ m ∈ members, Yaml.isSafeName m.1 = true ∧ m.2.isLegible = true := by
  induction members with
  | nil => simp [isLegibleMembers]
  | cons m members ih =>
    rw [isLegibleMembers, Bool.and_eq_true, Bool.and_eq_true, ih, List.forall_mem_cons]

lemma isPointedItems_iff : isPointedItems items = true ↔ ∀ v ∈ items, v.isPointed = true := by
  induction items with
  | nil => simp [isPointedItems]
  | cons v items ih => rw [isPointedItems, Bool.and_eq_true, ih, List.forall_mem_cons]

lemma isPointedMembers_iff :
    isPointedMembers members = true ↔ ∀ m ∈ members, m.2.isPointed = true := by
  induction members with
  | nil => simp [isPointedMembers]
  | cons m members ih => rw [isPointedMembers, Bool.and_eq_true, ih, List.forall_mem_cons]

lemma asYamlItems_eq_map : asYamlItems items = items.map asYaml := by
  induction items with
  | nil => rfl
  | cons v items ih => rw [asYamlItems, ih, List.map_cons]

lemma asYamlMembers_eq_map : asYamlMembers members = members.map fun m => (m.1, m.2.asYaml) := by
  induction members with
  | nil => rfl
  | cons m members ih => rw [asYamlMembers, ih, List.map_cons]

/-- YAML takes the text of a value for the value if all doubles in it have a point. -/
lemma Fits.asYaml_eq (h : v.Fits room) (hpointed : v.isPointed = true) : v.asYaml = v := by
  induction h with
  | null | bool | int | str | noItems | noMembers => rfl
  | float room h => exact if_pos hpointed
  | @list room items h ih =>
    have hitems := isPointedItems_iff.1 hpointed
    rw [asYaml, asYamlItems_eq_map, List.map_congr_left fun v hv => ih v hv (hitems v hv),
      List.map_id']
  | @object room members hnames hbroken h ih =>
    have hmembers := isPointedMembers_iff.1 hpointed
    rw [asYaml, asYamlMembers_eq_map,
      List.map_congr_left fun m hm => congrArg (Prod.mk m.1) (ih m hm (hmembers m hm)),
      List.map_id']

end Value

/-! ### The characters that stand in a file -/

namespace Text

/-- The characters that others represent, with question marks in place of surrogates. -/
def shownChars (cs : List Char) : List Char :=
  (partsAfter 0 cs).map Part.shown

lemma map_shown (cs : List Char) : (cs.map Part.char).map Part.shown = cs := by
  rw [List.map_map]
  exact List.map_id cs

lemma toList_shown (s : String) : (shown s).toList = shownChars s.toList := by
  rw [shown, String.toList_ofList, parts_eq, shownChars]

lemma IsClosed.shownChars_append {cs : List Char} (h : IsClosed cs) (rest : List Char) :
    shownChars (cs ++ rest) = shownChars cs ++ shownChars rest := by
  rw [shownChars, h.parts_append, List.map_append, shownChars, shownChars]

lemma shownChars_of_isPlain {cs : List Char} (h : ∀ c ∈ cs, IsPlain c) : shownChars cs = cs := by
  have hmark : surrogateMark ∉ cs := fun hmem => (h _ hmem).mark rfl
  rw [shownChars, partsAfter_of_not_mem hmark, map_shown]

lemma shownChars_append_of_isPlain {cs : List Char} (h : ∀ c ∈ cs, IsPlain c) (rest : List Char) :
    shownChars (cs ++ rest) = cs ++ shownChars rest := by
  rw [(isClosed_of_isPlain h).shownChars_append, shownChars_of_isPlain h]

lemma shownChars_cons {c : Char} (h : c.toNat < 0x80) (rest : List Char) :
    shownChars (c :: rest) = c :: shownChars rest := by
  have hplain : ∀ x ∈ [c], IsPlain x :=
    List.forall_mem_singleton.2 (isPlain_of_lt (h.trans (by norm_num)))
  exact shownChars_append_of_isPlain hplain rest

lemma shownChars_flatMap {α : Type} {as : List α} {f : α → List Char}
    (h : ∀ a ∈ as, IsClosed (f a)) :
    shownChars (as.flatMap f) = as.flatMap fun a => shownChars (f a) := by
  induction as with
  | nil => rfl
  | cons a as ih =>
    obtain ⟨ha, has⟩ := List.forall_mem_cons.1 h
    rw [List.flatMap_cons, ha.shownChars_append, ih has, List.flatMap_cons]

end Text

namespace Json

variable {room depth : Nat} {c : Char} {s : String} {v : Value} {vs : List Value}
  {m : String × Value} {ms : List (String × Value)}

lemma shownChars_lineBreak (depth : Nat) (rest : List Char) :
    shownChars ((Style.file.lineBreak depth).toList ++ rest)
      = breakChars depth ++ shownChars rest := by
  have htext : (Style.file.lineBreak depth).toList = breakChars depth := String.toList_ofList
  rw [htext]
  apply shownChars_append_of_isPlain
  intro c hc
  rcases List.mem_cons.1 hc with rfl | hc
  · exact isPlain_of_lt (by decide)
  · rw [List.eq_of_mem_replicate hc]
    exact isPlain_of_lt (by decide)

lemma shownChars_writeString (h : hasHalf s = false) :
    shownChars (writeString false s).toList = quotedChars s := by
  have hquote : IsPlain '"' := isPlain_of_lt (by decide)
  obtain ⟨cs, hparts, htext⟩ := exists_written h
  have hshown : (shown s).toList = cs := by
    rw [shown, String.toList_ofList, hparts, map_shown]
  rw [htext, shownChars_cons (by decide), quotedChars, hshown, shownChars, written,
    partsAfter_append_cons hquote, partsAfter_charsAfter, List.map_append, List.replicate_zero,
    List.nil_append, map_shown]
  rfl

lemma fileChars_str (h : hasHalf s = false) : fileChars depth (.str s) = quotedChars s := by
  rw [fileChars, toList_shown, writeAt]
  exact shownChars_writeString h

/-- The text of a list in a file. -/
lemma fileChars_list (h : ∀ u ∈ v :: vs, u.Fits room) (depth : Nat) :
    fileChars depth (.list (v :: vs))
      = '[' :: (breakChars (depth + 1) ++ (fileChars (depth + 1) v
        ++ ((vs.flatMap fun u => ',' :: (breakChars (depth + 1) ++ fileChars (depth + 1) u))
        ++ (breakChars depth ++ [']'])))) := by
  obtain ⟨hv, hvs⟩ := List.forall_mem_cons.1 h
  have hothers : ∀ u ∈ vs, IsClosed (',' :: ((Style.file.lineBreak (depth + 1)).toList
      ++ (writeAt .file (depth + 1) u).toList)) := fun u hu =>
    isClosed_cons rfl ((isClosed_lineBreak _).append ((hvs u hu).isClosed _))
  have hshown : ∀ u, shownChars (',' :: ((Style.file.lineBreak (depth + 1)).toList
      ++ (writeAt .file (depth + 1) u).toList))
        = ',' :: (breakChars (depth + 1) ++ fileChars (depth + 1) u) := fun u => by
    rw [shownChars_cons (by decide), shownChars_lineBreak, fileChars, toList_shown]
  have hclosing : ∀ c ∈ [']'], IsPlain c :=
    List.forall_mem_singleton.2 (isPlain_of_lt (by decide))
  rw [fileChars, toList_shown, toList_writeAt_list, shownChars_cons (by decide),
    shownChars_lineBreak, (hv.isClosed _).shownChars_append, otherItems,
    (isClosed_flatMap hothers).shownChars_append, shownChars_flatMap hothers, shownChars_lineBreak,
    shownChars_of_isPlain hclosing, fileChars, toList_shown]
  simp only [hshown]

/-- A member of an object in a file. -/
def memberChars (depth : Nat) (m : String × Value) : List Char :=
  quotedChars m.1 ++ ':' :: ' ' :: fileChars depth m.2

/-- The text of an object in a file. -/
lemma fileChars_object (hbroken : ∀ k ∈ m :: ms, hasHalf k.1 = false)
    (h : ∀ k ∈ m :: ms, k.2.Fits room) (depth : Nat) :
    fileChars depth (.object (m :: ms))
      = '\x7b' :: (breakChars (depth + 1) ++ (memberChars (depth + 1) m
        ++ ((ms.flatMap fun k => ',' :: (breakChars (depth + 1) ++ memberChars (depth + 1) k))
        ++ (breakChars depth ++ ['\x7d'])))) := by
  have hclosed : ∀ k ∈ m :: ms, IsClosed (memberText (depth + 1) k) := fun k hk =>
    isClosed_memberText ((h k hk).isClosed _)
  have hmember : ∀ k ∈ m :: ms, shownChars (memberText (depth + 1) k)
      = memberChars (depth + 1) k := fun k hk => by
    rw [memberText, (isClosed_writeString k.1).shownChars_append, shownChars_writeString
      (hbroken k hk), shownChars_cons (by decide), shownChars_cons (by decide), ← toList_shown]
    rfl
  have hothers : ∀ k ∈ ms, IsClosed (',' :: ((Style.file.lineBreak (depth + 1)).toList
      ++ memberText (depth + 1) k)) := fun k hk =>
    isClosed_cons rfl ((isClosed_lineBreak _).append (hclosed k (List.mem_cons_of_mem m hk)))
  have hflat : (ms.flatMap fun k => shownChars (',' :: ((Style.file.lineBreak (depth + 1)).toList
      ++ memberText (depth + 1) k)))
        = ms.flatMap fun k => ',' :: (breakChars (depth + 1) ++ memberChars (depth + 1) k) := by
    apply List.flatMap_congr
    intro k hk
    rw [shownChars_cons (by decide), shownChars_lineBreak, hmember k (List.mem_cons_of_mem m hk)]
  have hclosing : ∀ c ∈ ['\x7d'], IsPlain c :=
    List.forall_mem_singleton.2 (isPlain_of_lt (by decide))
  rw [fileChars, toList_shown, toList_writeAt_object, shownChars_cons (by decide),
    shownChars_lineBreak, (hclosed m List.mem_cons_self).shownChars_append, otherMembers,
    (isClosed_flatMap hothers).shownChars_append, shownChars_flatMap hothers, hflat,
    shownChars_lineBreak, hmember m List.mem_cons_self,
    shownChars_of_isPlain hclosing]

/-! ### Which characters they are -/

lemma fileChars_of_isPlain (h : ∀ c ∈ (writeAt .file depth v).toList, IsPlain c) :
    fileChars depth v = (writeAt .file depth v).toList := by
  rw [fileChars, toList_shown, shownChars_of_isPlain h]

lemma fileChars_null (depth : Nat) : fileChars depth .null = ['n', 'u', 'l', 'l'] := by
  have htext : (writeAt .file depth .null).toList = ['n', 'u', 'l', 'l'] := by simp [writeAt]
  rw [fileChars_of_isPlain, htext]
  rw [htext]
  exact fun c hc => isPlain_of_lt (by fin_cases hc <;> decide)

lemma fileChars_bool (depth : Nat) (b : Bool) :
    fileChars depth (.bool b) = (if b then "true" else "false").toList := by
  have htext : (writeAt .file depth (.bool b)).toList = (if b then "true" else "false").toList := by
    rw [writeAt]
  rw [fileChars_of_isPlain, htext]
  rw [htext]
  cases b
  all_goals exact fun c hc => isPlain_of_lt (by fin_cases hc <;> decide)

lemma fileChars_int (depth : Nat) (n : Int) : fileChars depth (.int n) = (toString n).toList := by
  rw [fileChars_of_isPlain, writeAt]
  rw [writeAt]
  exact fun c hc => isPlain_of_isNumeral (isNumeral_toString_int hc)

lemma fileChars_float (depth : Nat) {x : Float} (hx : Double.isFinite x = true) :
    fileChars depth (.float x) = (DoubleLayout.saved.text x).toList := by
  rw [fileChars_of_isPlain, writeAt, Style.file]
  rw [writeAt, Style.file]
  exact fun c hc =>
    isPlain_of_isNumeral (DoubleLayout.isNumeral_text DoubleLayout.highest_saved hx hc)

lemma fileChars_noItems (depth : Nat) : fileChars depth (.list []) = ['[', ']'] := by
  have htext : (writeAt .file depth (.list [])).toList = ['[', ']'] := by
    simp [writeAt, writeItems, Style.enclose]
  rw [fileChars_of_isPlain, htext]
  rw [htext]
  exact fun c hc => isPlain_of_lt (by fin_cases hc <;> decide)

lemma fileChars_noMembers (depth : Nat) : fileChars depth (.object []) = ['\x7b', '\x7d'] := by
  have htext : (writeAt .file depth (.object [])).toList = ['\x7b', '\x7d'] := by
    simp [writeAt, writeMembers, Style.enclose]
  rw [fileChars_of_isPlain, htext]
  rw [htext]
  exact fun c hc => isPlain_of_lt (by fin_cases hc <;> decide)

/-- A character that may stand in a line. -/
structure IsInline (c : Char) : Prop where
  printable : 0x20 ≤ c.toNat
  allowed : Yaml.isAllowed c = true
  notBreak : Yaml.isBreak c = false

lemma isInline_of_ascii (h : 0x20 ≤ c.toNat ∧ c.toNat ≤ 0x7e) : IsInline c := by
  refine ⟨h.1, ?_, ?_⟩
  · simp [Yaml.isAllowed, h]
  · rw [Yaml.isBreak, Bool.eq_false_iff]
    intro hbreak
    simp only [Bool.or_eq_true, decide_eq_true_iff] at hbreak
    rcases hbreak with ((rfl | rfl) | rfl) | rfl
    all_goals exact absurd h (by decide)

/-- What is written of a safe character may stand in a line. -/
lemma isInline_writeChar (h : Yaml.isSafe c = true) : ∀ x ∈ writeChar false c, IsInline x := by
  cases hliteral : isLiteral c with
  | true =>
    rw [writeChar_of_isLiteral hliteral]
    simp only [isLiteral, Bool.and_eq_true, decide_eq_true_iff] at hliteral
    have hprintable : 0x20 ≤ c.toNat := hliteral.2
    have hsafe : Yaml.isAllowed c = true ∧ Yaml.isBreak c = false := by
      simpa [Yaml.isSafe, Nat.not_lt.2 hprintable] using h
    exact List.forall_mem_singleton.2 ⟨hprintable, hsafe.1, hsafe.2⟩
  | false =>
    have hslash : IsInline '\\' := isInline_of_ascii (by decide)
    rcases writeChar_of_not_isLiteral hliteral with ⟨letter, hletter, hwrite⟩ | ⟨-, hwrite⟩
    · have hascii : 0x20 ≤ letter.toNat ∧ letter.toNat ≤ 0x7e := by
        simp only [shortEscapes, List.mem_cons, List.not_mem_nil, or_false, Prod.mk.injEq]
          at hletter
        rcases hletter with ⟨rfl, -⟩ | ⟨rfl, -⟩ | ⟨rfl, -⟩ | ⟨rfl, -⟩ | ⟨rfl, -⟩ | ⟨rfl, -⟩ |
          ⟨rfl, -⟩ <;> decide
      rw [hwrite]
      exact List.forall_mem_cons.2
        ⟨hslash, List.forall_mem_singleton.2 (isInline_of_ascii hascii)⟩
    · have hletter : IsInline 'u' := isInline_of_ascii (by decide)
      rw [hwrite]
      exact List.forall_mem_cons.2 ⟨hslash, List.forall_mem_cons.2
        ⟨hletter, fun x hx => isInline_of_ascii (toNat_of_mem_hexDigits hx)⟩⟩

lemma isInline_quotedChars (h : Yaml.isSafeText s = true) : ∀ x ∈ quotedChars s, IsInline x := by
  have hquote : IsInline '"' := isInline_of_ascii (by decide)
  intro x hx
  rcases List.mem_cons.1 hx with rfl | hx
  · exact hquote
  · rcases List.mem_append.1 hx with hx | hx
    · obtain ⟨c, hc, hx⟩ := List.mem_flatMap.1 hx
      exact isInline_writeChar (List.all_eq_true.1 h c hc) x hx
    · rw [List.mem_singleton.1 hx]
      exact hquote

lemma isInline_of_isNumeral (h : isNumeral c = true) : IsInline c :=
  isInline_of_ascii (toNat_of_isNumeral h)

/-- A character of a file may stand in a line, or ends one. -/
def IsFileChar (c : Char) : Prop :=
  IsInline c ∨ c = '\n'

lemma isFileChar_of_ascii (h : 0x20 ≤ c.toNat ∧ c.toNat ≤ 0x7e) : IsFileChar c :=
  .inl (isInline_of_ascii h)

lemma isFileChar_of_all {cs : List Char}
    (h : cs.all fun c => decide (0x20 ≤ c.toNat ∧ c.toNat ≤ 0x7e)) : ∀ c ∈ cs, IsFileChar c :=
  fun c hc => isFileChar_of_ascii (of_decide_eq_true (List.all_eq_true.1 h c hc))

lemma isFileChar_breakChars (hc : c ∈ breakChars depth) : IsFileChar c := by
  rcases List.mem_cons.1 hc with rfl | hc
  · exact .inr rfl
  · rw [List.eq_of_mem_replicate hc]
    exact isFileChar_of_ascii (by decide)

/-- What stands between the brackets of a list or of an object. -/
lemma isFileChar_between {α : Type} {first last : Char} {text : α → List Char} {a : α} {as : List α}
    (hfirst : 0x20 ≤ first.toNat ∧ first.toNat ≤ 0x7e)
    (hlast : 0x20 ≤ last.toNat ∧ last.toNat ≤ 0x7e)
    (h : ∀ x ∈ a :: as, ∀ c ∈ text x, IsFileChar c)
    (hc : c ∈ first :: (breakChars (depth + 1) ++ (text a
        ++ ((as.flatMap fun x => ',' :: (breakChars (depth + 1) ++ text x))
        ++ (breakChars depth ++ [last]))))) : IsFileChar c := by
  have hcomma : IsFileChar ',' := isFileChar_of_ascii (by decide)
  simp only [List.mem_cons, List.mem_append, List.mem_flatMap, List.not_mem_nil, or_false] at hc
  rcases hc with rfl | hc | hc | ⟨x, hx, rfl | hc | hc⟩ | hc | rfl
  · exact isFileChar_of_ascii hfirst
  · exact isFileChar_breakChars hc
  · exact h a List.mem_cons_self c hc
  · exact hcomma
  · exact isFileChar_breakChars hc
  · exact h x (List.mem_cons_of_mem a hx) c hc
  · exact isFileChar_breakChars hc
  · exact isFileChar_of_ascii hlast

end Json

open Json

/-- The characters of a value's text. -/
lemma Value.Fits.isFileChar {room : Nat} {v : Value} (h : v.Fits room)
    (hlegible : v.isLegible = true) (depth : Nat) : ∀ c ∈ fileChars depth v, IsFileChar c := by
  induction h generalizing depth with
  | null =>
    rw [fileChars_null]
    exact isFileChar_of_all (by decide)
  | bool room b =>
    rw [fileChars_bool]
    cases b <;> exact isFileChar_of_all (by decide)
  | int =>
    rw [fileChars_int]
    exact fun c hc => .inl (isInline_of_isNumeral (isNumeral_toString_int hc))
  | float room h =>
    rw [fileChars_float depth h]
    exact fun c hc =>
      .inl (isInline_of_isNumeral (DoubleLayout.isNumeral_text DoubleLayout.highest_saved h hc))
  | str room h =>
    rw [fileChars_str h]
    exact fun c hc => .inl (isInline_quotedChars hlegible c hc)
  | noItems =>
    rw [fileChars_noItems]
    exact isFileChar_of_all (by decide)
  | noMembers =>
    rw [fileChars_noMembers]
    exact isFileChar_of_all (by decide)
  | @list room items h ih =>
    have hitems := isLegibleItems_iff.1 hlegible
    cases items with
    | nil =>
      rw [fileChars_noItems]
      exact isFileChar_of_all (by decide)
    | cons v vs =>
      rw [fileChars_list h]
      exact fun c hc => isFileChar_between (by decide) (by decide)
        (fun u hu => ih u hu (hitems u hu) (depth + 1)) hc
  | @object room members hnames hbroken h ih =>
    have hmembers := isLegibleMembers_iff.1 hlegible
    cases members with
    | nil =>
      rw [fileChars_noMembers]
      exact isFileChar_of_all (by decide)
    | cons m ms =>
      rw [fileChars_object hbroken h]
      refine fun c hc => isFileChar_between (by decide) (by decide) (fun k hk x hx => ?_) hc
      obtain ⟨hname, hvalue⟩ := hmembers k hk
      have hcolon : ∀ y ∈ [':', ' '], IsFileChar y := isFileChar_of_all (by decide)
      simp only [memberChars, List.mem_append, List.mem_cons] at hx
      rcases hx with hx | rfl | rfl | hx
      · exact .inl (isInline_quotedChars (Bool.and_eq_true_iff.1 hname).1 x hx)
      · exact hcolon _ (by simp)
      · exact hcolon _ (by simp)
      · exact ih k hk hvalue (depth + 1) x hx

end Workflow
