import Workflow.Proofs.Graph.Members
import Workflow.Proofs.Json.Passing
import Workflow.Proofs.Text.Surrogate

/-!
# What is found in a workflow file

The reader of workflow files finds values that are nested no deeper than it goes, and in which the
members of an object have names of their own, without half a surrogate pair. That is so whatever the
file holds, as long as it is read at all.
-/

namespace Workflow

open Text

/-- What the reader of workflow files finds where it may go down some levels. -/
inductive Value.IsFound : Nat → Value → Prop where
  | null (room : Nat) : IsFound room .null
  | bool (room : Nat) (b : Bool) : IsFound room (.bool b)
  | int (room : Nat) (n : Int) : IsFound room (.int n)
  | float (room : Nat) (x : Float) : IsFound room (.float x)
  | str (room : Nat) (s : String) : IsFound room (.str s)
  | noItems (room : Nat) : IsFound room (.list [])
  | noMembers (room : Nat) : IsFound room (.object [])
  | list {room : Nat} {items : List Value} (h : ∀ v ∈ items, IsFound room v) :
      IsFound (room + 1) (.list items)
  | object {room : Nat} {members : List (String × Value)} (hnames : (members.map Prod.fst).Nodup)
      (hbroken : ∀ m ∈ members, hasHalf m.1 = false) (h : ∀ m ∈ members, IsFound room m.2) :
      IsFound (room + 1) (.object members)

/-! ### Texts without half a surrogate pair -/

namespace Text

variable {c : Char} {cs rest : List Char}

/-- Characters that represent no half of a surrogate pair. -/
def IsUnbroken (cs : List Char) : Prop :=
  (partsAfter 0 cs).any Part.isHalf = false

lemma isUnbroken_ofChars (cs : List Char) : IsUnbroken (ofChars cs).toList := by
  rw [IsUnbroken, ← parts_eq, ofChars, parts_ofParts]
  simp [Part.isHalf]

lemma IsUnbroken.tail (h : IsUnbroken (c :: cs)) (hc : IsPlain c) : IsUnbroken cs := by
  rw [IsUnbroken, partsAfter_cons hc] at h
  exact h

lemma IsUnbroken.of_append {passed : List Char} (h : IsUnbroken (passed ++ cs))
    (hpassed : ∀ c ∈ passed, IsPlain c) : IsUnbroken cs := by
  rw [IsUnbroken, (isClosed_of_isPlain hpassed).parts_append, List.any_append,
    Bool.or_eq_false_iff] at h
  exact h.2

/-- A text ends where a plain character stands. -/
lemma IsUnbroken.split (h : IsUnbroken (cs ++ rest)) (hrest : ∀ c ∈ rest.head?, IsPlain c) :
    IsUnbroken cs ∧ IsUnbroken rest := by
  cases rest with
  | nil =>
    rw [List.append_nil] at h
    exact ⟨h, rfl⟩
  | cons c rest =>
    have hc := hrest c rfl
    rw [IsUnbroken, partsAfter_append_cons hc, List.any_append, Bool.or_eq_false_iff] at h
    refine ⟨h.1, ?_⟩
    rw [IsUnbroken, partsAfter_cons hc]
    exact h.2

end Text

namespace Json

variable {D : Dialect} {cs after after' : List Char}

/-! ### Where a text may be broken -/

lemma Passes.isUnbroken (h : Passes IsPlain cs after) (hcs : IsUnbroken cs) : IsUnbroken after := by
  obtain ⟨passed, rfl, hpassed⟩ := h
  exact hcs.of_append hpassed

lemma IsToken.isPlain {c : Char} (h : IsToken D c) : IsPlain c :=
  isPlain_of_lt (h.lt.trans (by decide))

/-- What follows the first character that is no blank. -/
lemma afterBlanks {c : Char} (hcs : IsUnbroken cs) (h : skipBlanks cs = c :: after)
    (hc : decide (c.toNat < 0x80) = true) : IsUnbroken after := by
  have hblanks := (passes_skipBlanks Dialect.file cs).mono fun _ => IsToken.isPlain
  have hplain : IsPlain c := isPlain_of_lt ((of_decide_eq_true hc).trans (by decide))
  exact (hblanks.trans (h ▸ (Passes.refl after).cons hplain)).isUnbroken hcs

/-! ### Numbers and words -/

lemma isFound_unsigned {negative : Bool} {v : Value} (h : unsigned D negative cs = some (v, after))
    (room : Nat) : v.IsFound room := by
  simp only [unsigned, Option.bind_eq_bind, Option.bind_eq_some_iff] at h
  obtain ⟨⟨ds, afterWhole⟩, -, h⟩ := h
  dsimp only at h
  split_ifs at h <;> cases h
  · exact .int room _
  · exact .float room _

lemma isFound_word? {v : Value} (h : word? D cs = some (v, after)) (room : Nat) :
    v.IsFound room := by
  unfold word? at h
  split at h
  · cases h
    exact .null room
  · cases h
    exact .bool room true
  · cases h
    exact .bool room false
  all_goals
    first
    | (split_ifs at h; cases h; exact .float room _)
    | cases h

lemma isFound_scalar {v : Value} (h : scalar D cs = .ok (v, after)) (room : Nat) :
    v.IsFound room := by
  rcases scalar_cases h with hword | ⟨negative, number, -, hnumber⟩
  · exact isFound_word? hword room
  · exact isFound_unsigned hnumber room

/-! ### Strings -/

lemma IsHexDigit.isPlain {c : Char} (h : IsHexDigit c) : IsPlain c :=
  isPlain_of_lt (h.lt.trans (by decide))

lemma isHalf_ofCodePoint {n : Nat} (h : ¬(0xd800 ≤ n ∧ n < 0xe000)) :
    (Part.ofCodePoint n).isHalf = false := by
  rw [Part.ofCodePoint, dif_neg h]
  rfl

/-- In a workflow file no escape is read as half a surrogate pair. -/
lemma codeEscaped_file {p : Part} (hD : D.loneSurrogates = false)
    (h : codeEscaped D cs = some (p, after)) : p.isHalf = false ∧ Passes IsPlain cs after := by
  simp only [codeEscaped, Option.bind_eq_bind, Option.bind_eq_some_iff, hD, Bool.false_eq_true,
    if_false] at h
  obtain ⟨⟨n, rest⟩, hunit, h⟩ := h
  have hpassed := (passes_unit hunit).mono fun _ => IsHexDigit.isPlain
  dsimp only at h
  split_ifs at h with hhigh hlow
  · split at h
    · split at h
      · next low rest' hsecond =>
        split_ifs at h with hpair
        obtain ⟨rfl, rfl⟩ := Prod.mk.inj (Option.some.inj h)
        have hlarge : ¬(0xd800 ≤ 0x10000 + (n - 0xd800) * 0x400 + (low - 0xdc00) ∧
            0x10000 + (n - 0xd800) * 0x400 + (low - 0xdc00) < 0xe000) := by omega
        exact ⟨isHalf_ofCodePoint hlarge,
          hpassed.trans ((((passes_unit hsecond).mono fun _ => IsHexDigit.isPlain).cons
            (isPlain_of_lt (by decide))).cons (isPlain_of_lt (by decide)))⟩
      · cases h
    · cases h
  · have hsmall : ¬(0xd800 ≤ n ∧ n < 0xe000) := by omega
    cases h
    exact ⟨isHalf_ofCodePoint hsmall, hpassed⟩

lemma escape_file {p : Part} (hD : D.loneSurrogates = false) (h : escape D cs = some (p, after)) :
    p.isHalf = false ∧ Passes IsPlain cs after := by
  unfold escape at h
  split at h
  case h_9 rest =>
    obtain ⟨hp, hpassed⟩ := codeEscaped_file hD h
    exact ⟨hp, hpassed.cons (isPlain_of_lt (by decide))⟩
  all_goals
    cases h
    try exact ⟨rfl, (Passes.refl _).cons (isPlain_of_lt (by decide))⟩

lemma isPlain_of_not_isLiteral {c : Char} (h : isLiteral c = false) : IsPlain c := by
  refine isPlain_of_lt ?_
  simp only [isLiteral, Bool.and_eq_false_iff, decide_eq_false_iff_not, not_not] at h
  rcases h with (rfl | rfl) | h
  · decide
  · decide
  · omega

/-- What is read as a string in a workflow file has no half of a surrogate pair. -/
lemma stringBody_file (hD : D.loneSurrogates = false) {fuel : Nat} {before : List Part} {s : String}
    (h : stringBody D fuel before cs = some (s, after)) (hcs : IsUnbroken cs)
    (hbefore : before.any Part.isHalf = false) : hasHalf s = false ∧ IsUnbroken after := by
  induction fuel generalizing before cs with
  | zero => cases h
  | succ fuel ih =>
    unfold stringBody at h
    split at h
    · cases h
    · cases h
      refine ⟨?_, hcs.tail (isPlain_of_lt (by decide))⟩
      rw [hasHalf, parts_ofParts, List.any_reverse]
      exact hbefore
    · split at h
      · next rest found rest' hescape =>
        obtain ⟨hfound, hpassed⟩ := escape_file hD hescape
        refine ih h ((hpassed.cons (isPlain_of_lt (by decide))).isUnbroken hcs) ?_
        rw [List.any_cons, hfound, hbefore]
        rfl
      · cases h
    · next c rest _ _ =>
      split_ifs at h with hliteral
      have hsplit : c :: rest = c :: rest.takeWhile isLiteral ++ rest.dropWhile isLiteral := by
        rw [List.cons_append, List.takeWhile_append_dropWhile]
      have hhead : ∀ c ∈ (rest.dropWhile isLiteral).head?, IsPlain c := by
        intro c hc
        have hfirst := List.head?_dropWhile_not isLiteral rest
        rw [Option.mem_def.1 hc] at hfirst
        exact isPlain_of_not_isLiteral (by simpa using hfirst)
      rw [hsplit] at hcs
      obtain ⟨hread, hlater⟩ := hcs.split hhead
      refine ih h hlater ?_
      rw [List.any_append, List.any_reverse, hbefore, Bool.or_false, parts_eq, String.toList_ofList]
      exact hread

/-! ### Values -/

/--
What the three functions of the reader find with some fuel in a text without half a surrogate pair,
and that what follows it has no half either.
-/
structure Finds (D : Dialect) (fuel : Nat) : Prop where
  value : ∀ {room cs v after}, IsUnbroken cs → value D fuel room cs = .ok (v, after) →
    v.IsFound room ∧ IsUnbroken after
  items : ∀ {room before cs v after}, IsUnbroken cs → (∀ b ∈ before, Value.IsFound room b) →
    items D fuel room before cs = .ok (v, after) → v.IsFound (room + 1) ∧ IsUnbroken after
  members : ∀ {room before cs v after}, IsUnbroken cs → (before.map Prod.fst).Nodup →
    (∀ m ∈ before, hasHalf m.1 = false) → (∀ m ∈ before, Value.IsFound room m.2) →
      members D fuel room before cs = .ok (v, after) → v.IsFound (room + 1) ∧ IsUnbroken after

namespace Finds

variable {fuel room : Nat} {v : Value}

lemma value_succ (hD : D.loneSurrogates = false) (h : Finds D fuel) (hcs : IsUnbroken cs)
    (hv : Json.value D (fuel + 1) room cs = .ok (v, after)) :
    v.IsFound room ∧ IsUnbroken after := by
  rw [Json.value] at hv
  split at hv
  · next rest hquote =>
    split at hv <;> cases hv
    next hs =>
      exact ⟨.str room _, (stringBody_file hD hs (afterBlanks hcs hquote (by decide)) rfl).2⟩
  · next rest hopen =>
    have hrest := afterBlanks hcs hopen (by decide)
    split at hv
    · cases hv
    · split at hv
      · next hclose =>
        cases hv
        exact ⟨.noItems room, afterBlanks hrest hclose (by decide)⟩
      · split_ifs at hv with hroom
        obtain ⟨room, rfl⟩ := Nat.exists_eq_succ_of_ne_zero hroom
        refine h.items hrest ?_ hv
        exact List.forall_mem_nil _
  · next rest hopen =>
    have hrest := afterBlanks hcs hopen (by decide)
    split at hv
    · cases hv
    · split at hv
      · next hclose =>
        cases hv
        exact ⟨.noMembers room, afterBlanks hrest hclose (by decide)⟩
      · split_ifs at hv with hroom
        obtain ⟨room, rfl⟩ := Nat.exists_eq_succ_of_ne_zero hroom
        refine h.members hrest ?_ ?_ ?_ hv
        · exact List.nodup_nil
        · exact List.forall_mem_nil _
        · exact List.forall_mem_nil _
  · have hpassed := ((passes_skipBlanks D cs).trans (passes_scalar hv)).mono fun _ =>
      IsToken.isPlain
    exact ⟨isFound_scalar hv room, hpassed.isUnbroken hcs⟩

lemma items_succ (h : Finds D fuel) {before : List Value} (hcs : IsUnbroken cs)
    (hbefore : ∀ b ∈ before, b.IsFound room)
    (hv : Json.items D (fuel + 1) room before cs = .ok (v, after)) :
    v.IsFound (room + 1) ∧ IsUnbroken after := by
  rw [Json.items] at hv
  split at hv
  · cases hv
  · next found rest hfound =>
    obtain ⟨hvalue, hrest⟩ := h.value hcs hfound
    have hall : ∀ b ∈ found :: before, b.IsFound room := List.forall_mem_cons.2 ⟨hvalue, hbefore⟩
    split at hv
    · next hcomma => exact h.items (afterBlanks hrest hcomma (by decide)) hall hv
    · next hclose =>
      cases hv
      exact ⟨.list fun b hb => hall b (List.mem_reverse.1 hb),
        afterBlanks hrest hclose (by decide)⟩
    · cases hv

/-- A member that is repeated replaces the one before. -/
lemma members_succ (hD : D.loneSurrogates = false) (h : Finds D fuel)
    {before : List (String × Value)} (hcs : IsUnbroken cs) (hnames : (before.map Prod.fst).Nodup)
    (hbroken : ∀ m ∈ before, hasHalf m.1 = false) (hbefore : ∀ m ∈ before, m.2.IsFound room)
    (hv : Json.members D (fuel + 1) room before cs = .ok (v, after)) :
    v.IsFound (room + 1) ∧ IsUnbroken after := by
  rw [Json.members] at hv
  split at hv
  · next hquote =>
    split at hv
    · cases hv
    · next name afterName hstring =>
      obtain ⟨hname, hafterName⟩ :=
        stringBody_file hD hstring (afterBlanks hcs hquote (by decide)) rfl
      split at hv
      · next hcolon =>
        split at hv
        · cases hv
        · next found rest hfound =>
          obtain ⟨hvalue, hrest⟩ := h.value (afterBlanks hafterName hcolon (by decide)) hfound
          have hnames' := nodup_setMember hnames name found
          have hset : ∀ m ∈ Value.setMember before name found,
              hasHalf m.1 = false ∧ m.2.IsFound room := by
            intro m hm
            rcases mem_setMember hm with hm | rfl
            · exact ⟨hbroken m hm, hbefore m hm⟩
            · exact ⟨hname, hvalue⟩
          have hbroken' := fun m hm => (hset m hm).1
          have hvalues' := fun m hm => (hset m hm).2
          split at hv
          · next hcomma =>
            exact h.members (afterBlanks hrest hcomma (by decide)) hnames' hbroken' hvalues' hv
          · next hclose =>
            cases hv
            exact ⟨.object hnames' hbroken' hvalues', afterBlanks hrest hclose (by decide)⟩
          · cases hv
      · cases hv
  · cases hv

end Finds

lemma finds (hD : D.loneSurrogates = false) (fuel : Nat) : Finds D fuel := by
  induction fuel with
  | zero => constructor <;> intros <;> contradiction
  | succ fuel ih => exact ⟨ih.value_succ hD, ih.items_succ, ih.members_succ hD⟩

/-- What is read from the characters of a workflow file is found in it. -/
theorem isFound_of_read {v : Value} (h : read .file (ofChars cs) = .ok v) : v.IsFound 200 := by
  simp only [read] at h
  split at h
  · cases h
  · next found rest hfound =>
    split_ifs at h
    cases h
    exact ((finds rfl _).value (isUnbroken_ofChars cs) hfound).1

end Json

end Workflow
