import Mathlib.Tactic
import Workflow.Text.Surrogate
import Workflow.Text.Utf8

/-!
# Bytes are read as the text they were made from

The bytes of a character are recognized by the first of them, and the others are continuation bytes
within its bounds. So the bytes of a text are read as that text, character by character.
-/

namespace Workflow.Text

variable {fuel position : Nat} {before : List Char} {rest : List Nat}

/-- A sequence of bytes of the right shape is one character. -/
lemma decodeFrom_cons {first count low high : Nat} {others : List Nat}
    (hshape : sequenceShape first = some (count, low, high)) (hlength : others.length = count)
    (hcontinuing : continuing low high count (others ++ rest) = count) :
    decodeFrom (fuel + 1) position before (first :: (others ++ rest))
      = decodeFrom fuel (position + count + 1) (Char.ofNat (codePoint first others) :: before)
          rest := by
  subst hlength
  rw [decodeFrom, hshape]
  simp [hcontinuing]

lemma continuing_cons {low high count b : Nat} {bs : List Nat} (hlow : low ≤ b) (hhigh : b < high) :
    continuing low high (count + 1) (b :: bs) = continuing 0x80 0xc0 count bs + 1 := by
  rw [continuing, if_pos ⟨hlow, hhigh⟩]

/-- The bytes of a character, as numbers. -/
def bytesOf (c : Char) : List Nat :=
  (String.utf8EncodeChar c).map UInt8.toNat

/-- The bytes of a character, by its code point. -/
lemma bytesOf_eq (c : Char) :
    bytesOf c =
      let v := c.toNat
      if v ≤ 0x7f then [v]
      else if v ≤ 0x7ff then [v / 64 % 32 + 0xc0, v % 64 + 0x80]
      else if v ≤ 0xffff then [v / 4096 % 16 + 0xe0, v / 64 % 64 + 0x80, v % 64 + 0x80]
      else [v / 262144 % 8 + 0xf0, v / 4096 % 64 + 0x80, v / 64 % 64 + 0x80, v % 64 + 0x80] := by
  have hbyte : ∀ n, n < 256 → (UInt8.ofNat n).toNat = n := fun n hn => by
    rw [UInt8.toNat_ofNat', Nat.mod_eq_of_lt hn]
  rw [bytesOf, String.utf8EncodeChar]
  change List.map UInt8.toNat (if c.toNat ≤ 0x7f then _ else if c.toNat ≤ 0x7ff then _
    else if c.toNat ≤ 0xffff then _ else _) = _
  dsimp only
  split_ifs
  all_goals simp only [List.map_cons, List.map_nil]
  · rw [hbyte _ (by change c.toNat < 256; omega)]
    rfl
  all_goals
    repeat rw [hbyte _ (by omega)]
    rfl

/-- The bytes are one sequence of the shape that the first of them asks for. -/
def Spells (bytes : List Nat) (v : Nat) : Prop :=
  ∃ first others low high, bytes = first :: others ∧
    sequenceShape first = some (others.length, low, high) ∧
    (∀ rest, continuing low high others.length (others ++ rest) = others.length) ∧
    codePoint first others = v

section Spells

variable {v : Nat}

lemma spells_one (h : v ≤ 0x7f) : Spells [v] v := by
  refine ⟨v, [], 0x80, 0xc0, rfl, ?_, fun rest => rfl, rfl⟩
  rw [sequenceShape, if_pos (by omega)]
  rfl

lemma spells_two (hlow : 0x7f < v) (hhigh : v ≤ 0x7ff) :
    Spells [v / 64 % 32 + 0xc0, v % 64 + 0x80] v := by
  refine ⟨_, _, 0x80, 0xc0, rfl, ?_, fun rest => ?_, ?_⟩
  · rw [sequenceShape, if_neg (by omega), if_neg (by omega), if_pos (by omega)]
    rfl
  · change continuing _ _ (0 + 1) _ = _
    rw [List.cons_append, continuing_cons (by omega) (by omega)]
    rfl
  · change 64 * ((v / 64 % 32 + 0xc0) % 32) + (v % 64 + 0x80) % 64 = v
    omega

/-- The bounds of the second of three bytes keep out what is too short and the surrogates. -/
lemma exists_shape_three (hlow : 0x7ff < v) (hhigh : v ≤ 0xffff)
    (hvalid : v < 0xd800 ∨ 0xdfff < v) :
    ∃ low high, sequenceShape (v / 4096 % 16 + 0xe0) = some (2, low, high) ∧
      low ≤ v / 64 % 64 + 0x80 ∧ v / 64 % 64 + 0x80 < high := by
  rw [sequenceShape, if_neg (by omega), if_neg (by omega), if_neg (by omega)]
  split_ifs
  · exact ⟨_, _, rfl, by omega, by omega⟩
  · exact ⟨_, _, rfl, by omega, by omega⟩
  · exact ⟨_, _, rfl, by omega, by omega⟩
  all_goals omega

lemma spells_three (hlow : 0x7ff < v) (hhigh : v ≤ 0xffff) (hvalid : v < 0xd800 ∨ 0xdfff < v) :
    Spells [v / 4096 % 16 + 0xe0, v / 64 % 64 + 0x80, v % 64 + 0x80] v := by
  obtain ⟨low, high, hshape, hle, hlt⟩ := exists_shape_three hlow hhigh hvalid
  refine ⟨_, _, low, high, rfl, hshape, fun rest => ?_, ?_⟩
  · change continuing _ _ (1 + 1) _ = _
    rw [List.cons_append, continuing_cons hle hlt, List.cons_append,
      continuing_cons (by omega) (by omega)]
    rfl
  · change 64 * (64 * ((v / 4096 % 16 + 0xe0) % 16) + (v / 64 % 64 + 0x80) % 64)
      + (v % 64 + 0x80) % 64 = v
    omega

/-- The bounds of the second of four bytes keep out what is too short and beyond all characters. -/
lemma exists_shape_four (hlow : 0xffff < v) (hhigh : v < 0x110000) :
    ∃ low high, sequenceShape (v / 262144 % 8 + 0xf0) = some (3, low, high) ∧
      low ≤ v / 4096 % 64 + 0x80 ∧ v / 4096 % 64 + 0x80 < high := by
  rw [sequenceShape, if_neg (by omega), if_neg (by omega), if_neg (by omega),
    if_neg (by omega), if_neg (by omega), if_neg (by omega)]
  split_ifs
  · exact ⟨_, _, rfl, by omega, by omega⟩
  · exact ⟨_, _, rfl, by omega, by omega⟩
  · exact ⟨_, _, rfl, by omega, by omega⟩
  all_goals omega

lemma spells_four (hlow : 0xffff < v) (hhigh : v < 0x110000) :
    Spells [v / 262144 % 8 + 0xf0, v / 4096 % 64 + 0x80, v / 64 % 64 + 0x80, v % 64 + 0x80] v := by
  obtain ⟨low, high, hshape, hle, hlt⟩ := exists_shape_four hlow hhigh
  refine ⟨_, _, low, high, rfl, hshape, fun rest => ?_, ?_⟩
  · change continuing _ _ (2 + 1) _ = _
    rw [List.cons_append, continuing_cons hle hlt, List.cons_append,
      continuing_cons (by omega) (by omega), List.cons_append,
      continuing_cons (by omega) (by omega)]
    rfl
  · change 64 * (64 * (64 * ((v / 262144 % 8 + 0xf0) % 8) + (v / 4096 % 64 + 0x80) % 64)
      + (v / 64 % 64 + 0x80) % 64) + (v % 64 + 0x80) % 64 = v
    omega

end Spells

/-- The bytes of a character are read as its code point. -/
lemma spells_bytesOf (c : Char) : Spells (bytesOf c) c.toNat := by
  have hvalid : c.toNat < 0xd800 ∨ 0xdfff < c.toNat ∧ c.toNat < 0x110000 := c.valid
  rw [bytesOf_eq]
  dsimp only
  split_ifs with hone htwo hthree
  · exact spells_one hone
  · exact spells_two (not_le.1 hone) htwo
  · exact spells_three (not_le.1 htwo) hthree (hvalid.imp_right And.left)
  · exact spells_four (not_le.1 hthree) (by omega)

lemma decodeFrom_flatMap (cs : List Char) (hfuel : cs.length ≤ fuel) :
    decodeFrom fuel position before (cs.flatMap bytesOf)
      = .ok (String.ofList (before.reverse ++ cs)) := by
  induction cs generalizing fuel position before with
  | nil =>
    rw [List.append_nil]
    cases fuel <;> rfl
  | cons c cs ih =>
    rw [List.length_cons] at hfuel
    obtain ⟨fuel, rfl⟩ : ∃ f, fuel = f + 1 := ⟨fuel - 1, by omega⟩
    obtain ⟨first, others, low, high, hbytes, hshape, hcontinuing, hpoint⟩ := spells_bytesOf c
    rw [List.flatMap_cons, hbytes, List.cons_append, decodeFrom_cons hshape rfl (hcontinuing _),
      ih (by omega), hpoint, Char.ofNat_toNat, List.reverse_cons, List.append_assoc]
    rfl

lemma length_le_flatMap (cs : List Char) : cs.length ≤ (cs.flatMap bytesOf).length := by
  induction cs with
  | nil => exact le_rfl
  | cons c cs ih =>
    obtain ⟨first, others, low, high, hbytes, -⟩ := spells_bytesOf c
    rw [List.flatMap_cons, List.length_append, hbytes, List.length_cons, List.length_cons]
    omega

/-! ### Texts and their bytes -/

lemma toList_loop (bytes : ByteArray) (i : Nat) (r : List UInt8) :
    ByteArray.toList.loop bytes i r = r.reverse ++ bytes.data.toList.drop i := by
  fun_induction ByteArray.toList.loop bytes i r with
  | case1 i r h ih =>
    have hi : i < bytes.data.toList.length := by simpa using h
    rw [ih, List.drop_eq_getElem_cons hi]
    simp [ByteArray.get!, h]
  | case2 i r h =>
    rw [List.drop_eq_nil_of_le (by simpa using Nat.le_of_not_lt h), List.append_nil]

lemma toList_toUTF8 (s : String) : s.toUTF8.toList = s.toList.flatMap String.utf8EncodeChar := by
  have hbytes : s.toUTF8 = (s.toList.flatMap String.utf8EncodeChar).toByteArray := by
    conv_lhs => rw [← String.ofList_toList (s := s)]
    rw [String.toUTF8_eq_toByteArray, String.toByteArray_ofList]
    rfl
  rw [hbytes, ByteArray.toList, toList_loop, List.toList_data_toByteArray]
  rfl

/-- The bytes of a text are read as its characters. -/
lemma decodeUtf8_toUtf8 (s : String) : decodeUtf8 (toUtf8 s) = .ok (shown s) := by
  have hcodes : (toUtf8 s).toList.map UInt8.toNat = (shown s).toList.flatMap bytesOf := by
    rw [toUtf8, toList_toUTF8, List.map_flatMap]
    rfl
  have hlength := length_le_flatMap (shown s).toList
  rw [decodeUtf8, hcodes, decodeFrom_flatMap _ hlength, List.reverse_nil, List.nil_append,
    String.ofList_toList]

end Workflow.Text
