import Workflow.Proofs.Json.Joined

/-!
# JSON documents

In a JSON document the two halves of a surrogate pair, one after the other, are the character that
the pair stands for. Values are the same document if they are equal once such pairs are joined, in
the names of members as well as in texts. The compact text of a value tells which document it is,
and so do texts of values that are joined by bars, whatever strings they contain.
-/

namespace Workflow

/-! ### Texts -/

namespace Text

variable {p q : Part} {ps : List Part} {s : String}

/-- The character of two surrogates. -/
def Part.pair (p q : Part) : Part :=
  .ofCodePoint (0x10000 + (p.codePoint - 0xd800) * 0x400 + (q.codePoint - 0xdc00))

/-- Parts with every surrogate pair as one character. -/
def joinParts : List Part → List Part
  | [] => []
  | [p] => [p]
  | p :: q :: rest => if p.Joins q then p.pair q :: joinParts rest else p :: joinParts (q :: rest)

/-- A text with every surrogate pair as one character. -/
def joined (s : String) : String :=
  ofParts (joinParts (parts s))

/-- Surrogates that join make a character of more than 16 bits. -/
lemma Part.Joins.exists_pair (h : p.Joins q) : ∃ high low : Fin 0x800, ∃ c : Char,
    p = .half high ∧ q = .half low ∧ p.pair q = .char c ∧ high.val < 0x400 ∧
      c.toNat + 0x400 = 0x10000 + high.val * 0x400 + low.val := by
  cases p with
  | char c => exact absurd h id
  | half high =>
    cases q with
    | char c => exact absurd h id
    | half low =>
      obtain ⟨hhigh, hlow⟩ := h
      have hcode : 0x10000 + (0xd800 + high.val - 0xd800) * 0x400 + (0xd800 + low.val - 0xdc00)
          = 0xfc00 + high.val * 0x400 + low.val := by omega
      refine ⟨high, low, Char.ofNat (0xfc00 + high.val * 0x400 + low.val), rfl, rfl, ?_, hhigh, ?_⟩
      · rw [pair, codePoint, codePoint, hcode, ofCodePoint, dif_neg (by omega)]
      · rw [toNat_ofNat (.inr ⟨by omega, by omega⟩)]
        omega

lemma Part.not_joins_char (p : Part) (c : Char) : ¬p.Joins (.char c) := by
  cases p <;> exact id

lemma Part.not_char_joins (c : Char) (p : Part) : ¬(Part.char c).Joins p := by
  cases p <;> exact id

/-- What joined parts begin with: the first part, or a character in its place. -/
lemma head?_joinParts (p : Part) (ps : List Part) :
    (joinParts (p :: ps)).head? = some p ∨ ∃ c, (joinParts (p :: ps)).head? = some (.char c) := by
  cases ps with
  | nil => exact .inl rfl
  | cons q ps =>
    rw [joinParts]
    split_ifs with hjoins
    · obtain ⟨-, -, c, -, -, hpair, -⟩ := hjoins.exists_pair
      exact .inr ⟨c, by rw [hpair]; rfl⟩
    · exact .inl rfl

/-- No surrogates are left that join. -/
lemma isChain_joinParts (ps : List Part) : (joinParts ps).IsChain fun p q => ¬p.Joins q := by
  induction ps using joinParts.induct with
  | case1 => exact .nil
  | case2 p => exact .singleton p
  | case3 p q rest hjoins ih =>
    obtain ⟨-, -, c, -, -, hpair, -⟩ := hjoins.exists_pair
    rw [joinParts, if_pos hjoins, hpair]
    exact ih.cons fun p _ => Part.not_char_joins c p
  | case4 p q rest hjoins ih =>
    rw [joinParts, if_neg hjoins]
    refine ih.cons fun r hr => ?_
    rcases head?_joinParts q rest with hhead | ⟨c, hhead⟩
    · obtain rfl : q = r := Option.some.inj (hhead.symm.trans hr)
      exact hjoins
    · obtain rfl : .char c = r := Option.some.inj (hhead.symm.trans hr)
      exact p.not_joins_char c

lemma joinParts_eq_self (h : ps.IsChain fun p q => ¬p.Joins q) : joinParts ps = ps := by
  induction ps using joinParts.induct with
  | case1 => rfl
  | case2 p => rfl
  | case3 p q rest hjoins ih => exact absurd hjoins (List.isChain_cons_cons.1 h).1
  | case4 p q rest hjoins ih => rw [joinParts, if_neg hjoins, ih h.tail]

lemma isJoined_joined (s : String) : IsJoined (joined s) := by
  rw [IsJoined, joined, parts_ofParts]
  exact isChain_joinParts _

/-- Only texts with surrogate pairs are changed. -/
lemma joined_eq_self (h : IsJoined s) : joined s = s := by
  rw [joined, joinParts_eq_self h, ofParts_parts]

/-- A surrogate pair as two halves, one after the other. -/
def splitPair : String :=
  ofParts [.half 0x3d, .half 0x600]

lemma joined_splitPair : joined splitPair = joined "😀" := by
  have hparts : parts "😀" = [.char '😀'] := by decide
  rw [joined, joined, splitPair, parts_ofParts, hparts]
  exact congrArg ofParts (by decide)

end Text

namespace Json

open Text

/-- A surrogate pair is written like the character that it is. -/
lemma writePart_pair {p q : Part} (h : p.Joins q) :
    writePart true (p.pair q) = writePart true p ++ writePart true q := by
  obtain ⟨high, low, c, rfl, rfl, hpair, hhigh, hcode⟩ := h.exists_pair
  rw [hpair, writePart, writeChar_of_lt (by omega), codeEscape]
  have hlow : 0x400 ≤ low.val := h.2
  have hfirst : 0xd800 + (c.toNat - 0x10000) / 0x400 = (Part.half high).codePoint := by
    simp only [Part.codePoint]
    omega
  have hsecond : 0xdc00 + (c.toNat - 0x10000) % 0x400 = (Part.half low).codePoint := by
    simp only [Part.codePoint]
    omega
  rw [if_neg (by omega), hfirst, hsecond]
  rfl

lemma escaped_joinParts (ps : List Part) : escaped (joinParts ps) = escaped ps := by
  induction ps using joinParts.induct with
  | case1 => rfl
  | case2 p => rfl
  | case3 p q rest hjoins ih =>
    rw [joinParts, if_pos hjoins, escaped, List.flatMap_cons, ← escaped, ih, writePart_pair hjoins]
    simp [escaped]
  | case4 p q rest hjoins ih =>
    rw [joinParts, if_neg hjoins, escaped, List.flatMap_cons, ← escaped, ih]
    rfl

lemma writeString_joined (s : String) : writeString true (joined s) = writeString true s := by
  refine String.toList_inj.1 ?_
  rw [toList_writeString_true, toList_writeString_true, joined, parts_ofParts, escaped_joinParts]

end Json

/-! ### Values -/

namespace Value

mutual

/-- A value whose texts and names have every surrogate pair as one character. -/
def joined : Value → Value
  | .str s => .str (Text.joined s)
  | .list items => .list (joinedItems items)
  | .object members => .object (joinedMembers members)
  | v => v

/-- The items of a list with every surrogate pair as one character. -/
def joinedItems : List Value → List Value
  | [] => []
  | v :: vs => v.joined :: joinedItems vs

/-- The members of an object with every surrogate pair as one character. -/
def joinedMembers : List (String × Value) → List (String × Value)
  | [] => []
  | (name, v) :: rest => (Text.joined name, v.joined) :: joinedMembers rest

end

/-- Whether two values are the same JSON document. -/
def SameDocument (v w : Value) : Prop :=
  v.joined = w.joined

mutual

lemma isJoined_joined : ∀ v : Value, v.joined.IsJoined
  | .null => .null
  | .bool b => .bool b
  | .int n => .int n
  | .float x => .float x
  | .str s => .str (Text.isJoined_joined s)
  | .list items => .list (isJoined_joinedItems items)
  | .object members =>
    .object (fun m hm => (isJoined_joinedMembers members m hm).1)
      fun m hm => (isJoined_joinedMembers members m hm).2

lemma isJoined_joinedItems : ∀ vs : List Value, ∀ v ∈ joinedItems vs, v.IsJoined
  | [] => nofun
  | v :: vs => List.forall_mem_cons.2 ⟨isJoined_joined v, isJoined_joinedItems vs⟩

lemma isJoined_joinedMembers : ∀ ms : List (String × Value),
    ∀ m ∈ joinedMembers ms, Text.IsJoined m.1 ∧ m.2.IsJoined
  | [] => nofun
  | (name, v) :: rest => List.forall_mem_cons.2
    ⟨⟨Text.isJoined_joined name, isJoined_joined v⟩, isJoined_joinedMembers rest⟩

end

lemma joinedItems_eq_map (vs : List Value) : joinedItems vs = vs.map joined := by
  induction vs with
  | nil => rfl
  | cons v vs ih => rw [joinedItems, ih, List.map_cons]

lemma joinedMembers_eq_map (ms : List (String × Value)) :
    joinedMembers ms = ms.map fun m => (Text.joined m.1, m.2.joined) := by
  induction ms with
  | nil => rfl
  | cons m ms ih => rw [joinedMembers, ih, List.map_cons]

/-- A value of joined texts is the document that it is. -/
lemma joined_eq_self {v : Value} (h : v.IsJoined) : v.joined = v := by
  induction h with
  | null | bool | int | float => rfl
  | str h => rw [joined, Text.joined_eq_self h]
  | list _ ih => rw [joined, joinedItems_eq_map, List.map_congr_left ih, List.map_id']
  | object hnames _ ih =>
    rw [joined, joinedMembers_eq_map,
      List.map_congr_left fun m hm => Prod.ext (Text.joined_eq_self (hnames m hm)) (ih m hm),
      List.map_id']

lemma forall₂_sameDocument_iff {vs ws : List Value} :
    List.Forall₂ SameDocument vs ws ↔ vs.map joined = ws.map joined := by
  rw [← List.forall₂_eq_eq_eq, List.forall₂_map_left_iff, List.forall₂_map_right_iff]
  rfl

lemma sameDocument_iff_eq {v w : Value} (hv : v.IsJoined) (hw : w.IsJoined) :
    v.SameDocument w ↔ v = w := by
  rw [SameDocument, joined_eq_self hv, joined_eq_self hw]

end Value

namespace Json

open Text

variable {v w : Value}

mutual

lemma writeAt_joined : ∀ (v : Value) (depth : Nat),
    writeAt .fingerprint depth v.joined = writeAt .fingerprint depth v
  | .null, _ | .bool _, _ | .int _, _ | .float _, _ => rfl
  | .str s, _ => writeString_joined s
  | .list items, depth => by
    rw [Value.joined, writeAt, writeAt, writeItems_joined items]
  | .object members, depth => by
    rw [Value.joined, writeAt, writeAt, writeMembers_joined members]

lemma writeItems_joined : ∀ (vs : List Value) (depth : Nat),
    writeItems .fingerprint depth (Value.joinedItems vs) = writeItems .fingerprint depth vs
  | [], _ => rfl
  | v :: vs, depth => by
    rw [Value.joinedItems, writeItems, writeItems, writeAt_joined v, writeItems_joined vs]

lemma writeMembers_joined : ∀ (ms : List (String × Value)) (depth : Nat),
    writeMembers .fingerprint depth (Value.joinedMembers ms) = writeMembers .fingerprint depth ms
  | [], _ => rfl
  | (name, v) :: rest, depth => by
    rw [Value.joinedMembers, writeMembers, writeMembers, writeAt_joined v, writeMembers_joined rest]
    exact congrArg (fun s => (s ++ _ ++ _) :: _) (writeString_joined name)

end

/-- **Two values have the same compact text if and only if they are the same document.** -/
theorem write_fingerprint_eq_iff :
    write .fingerprint v = write .fingerprint w ↔ v.SameDocument w := by
  rw [write, write, ← writeAt_joined v, ← writeAt_joined w]
  exact ⟨write_fingerprint_injective (Value.isJoined_joined v) (Value.isJoined_joined w),
    fun h => congrArg (writeAt .fingerprint 0) h⟩

/-- The two halves of a pair are the same document as the character. -/
example : (Value.str splitPair).SameDocument (.str "😀") :=
  congrArg Value.str joined_splitPair

/-- The compact text of a value is not empty, nor are such texts that are joined by bars. -/
lemma intercalate_write_eq_empty_iff {vs : List Value} :
    "|".intercalate (vs.map (write .fingerprint)) = "" ↔ vs = [] := by
  cases vs with
  | nil => exact ⟨fun _ => rfl, fun _ => rfl⟩
  | cons v vs =>
    obtain ⟨c, tail, htext, -⟩ := exists_kind v 0
    rw [← String.toList_inj, List.map_cons, toList_intercalate_cons, write, htext]
    simp

/-- **Documents are known one by one from their compact texts, joined by bars.** -/
theorem intercalate_write_eq_iff {vs ws : List Value} :
    "|".intercalate (vs.map (write .fingerprint)) = "|".intercalate (ws.map (write .fingerprint)) ↔
      List.Forall₂ Value.SameDocument vs ws := by
  have hsame : vs.map (write .fingerprint) = ws.map (write .fingerprint) ↔
      List.Forall₂ Value.SameDocument vs ws := by
    rw [← List.forall₂_eq_eq_eq, List.forall₂_map_left_iff, List.forall₂_map_right_iff]
    simp only [write_fingerprint_eq_iff]
  have hsealed : ∀ vs : List Value, ∀ text ∈ vs.map (write .fingerprint), Sealed text.toList :=
    fun vs => List.forall_mem_map.2 fun v _ => sealed_writeAt v 0
  rw [← hsame]
  refine ⟨fun heq => intercalate_bar_injective (hsealed vs) (hsealed ws) ?_ heq, congrArg _⟩
  rw [List.map_eq_nil_iff, List.map_eq_nil_iff, ← intercalate_write_eq_empty_iff, heq,
    intercalate_write_eq_empty_iff]

end Json

end Workflow
