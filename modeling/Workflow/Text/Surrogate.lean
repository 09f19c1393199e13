/-!
# Surrogates

UTF-16 writes a character beyond the first 65536 as a pair of surrogates. A text may hold a half of
such a pair by itself, which is no character. So a text is a sequence of parts, each a character or
a surrogate, and it is represented by characters as follows: a mark before a stand-in makes it a
surrogate, and marks that stand before a stand-in by themselves are doubled. Mark and stand-ins are
code points to which no character is assigned, so nearly every text represents itself.

Main statements: every sequence of characters represents one text, and every text has one
representation.
-/

namespace Workflow.Text

/-- A part of a text: a character, or one of the 2048 surrogates by itself. -/
inductive Part where
  | char (c : Char)
  | half (n : Fin 0x800)
deriving DecidableEq

namespace Part

/-- The part of a code point. -/
def ofCodePoint (n : Nat) : Part :=
  if h : 0xd800 ≤ n ∧ n < 0xe000 then .half ⟨n - 0xd800, by omega⟩ else .char (Char.ofNat n)

/-- The code point of a part. -/
def codePoint : Part → Nat
  | char c => c.toNat
  | half n => 0xd800 + n

/-- Whether a part is a surrogate. -/
def isHalf : Part → Bool
  | char _ => false
  | half _ => true

/-- A part as a character: a question mark in place of a surrogate. -/
def shown : Part → Char
  | char c => c
  | half _ => '?'

end Part

/-! ### Marks and stand-ins -/

/-- The mark before the stand-in of a surrogate. -/
def surrogateMark : Char := Char.ofNat 0x5fffe

/-- The character that stands in for a surrogate. -/
def standIn (n : Fin 0x800) : Char := Char.ofNat (0x5d800 + n)

/-- The surrogate for which a character may stand in. -/
def standsFor? (c : Char) : Option (Fin 0x800) :=
  if h : 0x5d800 ≤ c.toNat ∧ c.toNat < 0x5e000 then some ⟨c.toNat - 0x5d800, by omega⟩ else none

theorem standsFor?_mark : standsFor? surrogateMark = none := by decide

theorem toNat_ofNat {n : Nat} (h : n.isValidChar) : (Char.ofNat n).toNat = n := by
  rw [Char.ofNat, dif_pos h]
  rfl

theorem toNat_standIn (n : Fin 0x800) : (standIn n).toNat = 0x5d800 + n :=
  toNat_ofNat (.inr ⟨by omega, by omega⟩)

theorem standsFor?_standIn (n : Fin 0x800) : standsFor? (standIn n) = some n := by
  have h : 0x5d800 ≤ (standIn n).toNat ∧ (standIn n).toNat < 0x5e000 := by
    rw [toNat_standIn]
    omega
  rw [standsFor?, dif_pos h]
  simp [toNat_standIn]

theorem eq_standIn {c : Char} {n : Fin 0x800} (h : standsFor? c = some n) : c = standIn n := by
  by_cases hc : 0x5d800 ≤ c.toNat ∧ c.toNat < 0x5e000
  · rw [standsFor?, dif_pos hc, Option.some.injEq] at h
    have hn : 0x5d800 + n.val = c.toNat := by
      rw [← h]
      simp only
      omega
    rw [standIn, hn, Char.ofNat_toNat]
  · rw [standsFor?, dif_neg hc] at h
    exact absurd h (by simp)

theorem standIn_ne_mark (n : Fin 0x800) : standIn n ≠ surrogateMark := fun h => by
  have := standsFor?_standIn n
  rw [h, standsFor?_mark] at this
  cases this

/-! ### Texts and their parts -/

/-- The parts of a text after as many marks as the number says. -/
def partsAfter : Nat → List Char → List Part
  | marks, [] => List.replicate marks (.char surrogateMark)
  | marks, c :: rest =>
    if c = surrogateMark then partsAfter (marks + 1) rest
    else
      match standsFor? c with
      | some n =>
        List.replicate (marks / 2) (.char surrogateMark)
          ++ (if marks % 2 = 1 then .half n else .char c) :: partsAfter 0 rest
      | none => List.replicate marks (.char surrogateMark) ++ .char c :: partsAfter 0 rest

/-- The parts of a text in order. Without marks they are its characters. -/
def parts (s : String) : List Part :=
  if surrogateMark ∈ s.toList then partsAfter 0 s.toList else s.toList.map .char

/-- The characters that represent parts after as many marks as the number says. -/
def charsAfter : Nat → List Part → List Char
  | marks, [] => List.replicate marks surrogateMark
  | marks, .char c :: rest =>
    if c = surrogateMark then charsAfter (marks + 1) rest
    else
      match standsFor? c with
      | some _ => List.replicate (2 * marks) surrogateMark ++ c :: charsAfter 0 rest
      | none => List.replicate marks surrogateMark ++ c :: charsAfter 0 rest
  | marks, .half n :: rest =>
    List.replicate (2 * marks + 1) surrogateMark ++ standIn n :: charsAfter 0 rest

/-- Whether a part is a character other than the mark. -/
def Part.isPlain : Part → Bool
  | char c => c ≠ surrogateMark
  | half _ => false

/-- The text of some parts. Plain ones are its characters. -/
def ofParts (ps : List Part) : String :=
  String.ofList (if ps.all Part.isPlain then ps.map Part.shown else charsAfter 0 ps)

theorem partsAfter_of_not_mem {cs : List Char} (h : surrogateMark ∉ cs) :
    partsAfter 0 cs = cs.map .char := by
  induction cs with
  | nil => rfl
  | cons c rest ih =>
    have hc : c ≠ surrogateMark := fun hc => h (hc ▸ List.mem_cons_self)
    have hrest := ih fun hmem => h (List.mem_cons_of_mem c hmem)
    rw [partsAfter, if_neg hc, hrest]
    cases standsFor? c <;> rfl

theorem charsAfter_of_plain {ps : List Part} (h : ps.all Part.isPlain = true) :
    charsAfter 0 ps = ps.map Part.shown := by
  induction ps with
  | nil => rfl
  | cons p rest ih =>
    rw [List.all_cons, Bool.and_eq_true] at h
    cases p with
    | char c =>
      have hc : c ≠ surrogateMark := by simpa [Part.isPlain] using h.1
      rw [charsAfter, if_neg hc, ih h.2]
      cases standsFor? c <;> rfl
    | half n => exact absurd h.1 (by simp [Part.isPlain])

theorem parts_eq (s : String) : parts s = partsAfter 0 s.toList := by
  unfold parts
  split
  next => rfl
  next h => exact (partsAfter_of_not_mem h).symm

theorem ofParts_eq (ps : List Part) : ofParts ps = String.ofList (charsAfter 0 ps) := by
  unfold ofParts
  split
  next h => rw [charsAfter_of_plain h]
  next => rfl

theorem charsAfter_replicate (marks more : Nat) (ps : List Part) :
    charsAfter marks (List.replicate more (.char surrogateMark) ++ ps)
      = charsAfter (marks + more) ps := by
  induction more generalizing marks with
  | zero => rfl
  | succ more ih =>
    rw [List.replicate_succ, List.cons_append, charsAfter, if_pos rfl, ih]
    congr 1
    omega

theorem partsAfter_replicate (marks more : Nat) (cs : List Char) :
    partsAfter marks (List.replicate more surrogateMark ++ cs) = partsAfter (marks + more) cs := by
  induction more generalizing marks with
  | zero => rfl
  | succ more ih =>
    rw [List.replicate_succ, List.cons_append, partsAfter, if_pos rfl, ih]
    congr 1
    omega

theorem charsAfter_partsAfter (marks : Nat) (cs : List Char) :
    charsAfter 0 (partsAfter marks cs) = List.replicate marks surrogateMark ++ cs := by
  induction cs generalizing marks with
  | nil =>
    have := charsAfter_replicate 0 marks []
    rw [List.append_nil, Nat.zero_add] at this
    rw [partsAfter, this, charsAfter, List.append_nil]
  | cons c rest ih =>
    rw [partsAfter]
    split
    next hc =>
      rw [ih, hc, List.replicate_succ', List.append_assoc]
      rfl
    next hc =>
      split
      next n hn =>
        rw [charsAfter_replicate, Nat.zero_add]
        split
        next hodd =>
          have : 2 * (marks / 2) + 1 = marks := by omega
          rw [charsAfter, ih, this, eq_standIn hn]
          rfl
        next heven =>
          have : 2 * (marks / 2) = marks := by omega
          rw [charsAfter, if_neg hc, hn, ih, this]
          rfl
      next hn =>
        rw [charsAfter_replicate, Nat.zero_add, charsAfter, if_neg hc, hn, ih]
        rfl

theorem partsAfter_charsAfter (marks : Nat) (ps : List Part) :
    partsAfter 0 (charsAfter marks ps) = List.replicate marks (.char surrogateMark) ++ ps := by
  induction ps generalizing marks with
  | nil =>
    have := partsAfter_replicate 0 marks []
    rw [List.append_nil, Nat.zero_add] at this
    rw [charsAfter, this, partsAfter, List.append_nil]
  | cons p rest ih =>
    cases p with
    | char c =>
      rw [charsAfter]
      split
      next hc =>
        rw [ih, hc, List.replicate_succ', List.append_assoc]
        rfl
      next hc =>
        split
        next n hn =>
          have hhalf : 2 * marks / 2 = marks := by omega
          have heven : ¬2 * marks % 2 = 1 := by omega
          rw [partsAfter_replicate, Nat.zero_add, partsAfter, if_neg hc, hn, ih]
          simp only [hhalf, if_neg heven]
          rfl
        next hn =>
          rw [partsAfter_replicate, Nat.zero_add, partsAfter, if_neg hc, hn, ih]
          rfl
    | half n =>
      have hhalf : (2 * marks + 1) / 2 = marks := by omega
      have hodd : (2 * marks + 1) % 2 = 1 := by omega
      rw [charsAfter, partsAfter_replicate, Nat.zero_add, partsAfter, if_neg (standIn_ne_mark n),
        standsFor?_standIn, ih]
      simp only [hhalf, if_pos hodd]
      rfl

/-- A text is made of its parts. -/
theorem ofParts_parts (s : String) : ofParts (parts s) = s := by
  simp [ofParts_eq, parts_eq, charsAfter_partsAfter]

/-- Any parts are those of a text. -/
theorem parts_ofParts (ps : List Part) : parts (ofParts ps) = ps := by
  simp [ofParts_eq, parts_eq, partsAfter_charsAfter]

/-! ### Operations -/

/-- The text of some characters. -/
def ofChars (cs : List Char) : String :=
  ofParts (cs.map .char)

/-- Two texts, one after the other. -/
def append (s t : String) : String :=
  ofParts (parts s ++ parts t)

/-- Whether a text holds a half of a surrogate pair by itself. -/
def hasHalf (s : String) : Bool :=
  (parts s).any Part.isHalf

/-- The code points of a text. -/
def codePoints (s : String) : List Nat :=
  (parts s).map Part.codePoint

/-- Whether a text comes before another by code points. -/
def before (s t : String) : Bool :=
  codePoints s < codePoints t

/-- A text as characters, with question marks in place of surrogates. -/
def shown (s : String) : String :=
  String.ofList ((parts s).map Part.shown)

/-- The bytes of a text in UTF-8. -/
def toUtf8 (s : String) : ByteArray :=
  (shown s).toUTF8

end Workflow.Text
