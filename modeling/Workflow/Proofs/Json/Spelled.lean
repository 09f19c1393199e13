import Workflow.Proofs.Json.Doubles
import Workflow.Proofs.Json.Passing
import Workflow.Proofs.Json.Place
import Workflow.Proofs.Json.Value

/-!
# Doubles that are spelled

Every double in a value that is read is the nearest one to a literal of the text. A reader that
knows no words for non-finite numbers reads no text with an `N` or an `I` outside of its strings.
-/

namespace Workflow

namespace Json

open Text

variable {D : Dialect} {P Q : Char → Prop} {c : Char} {cs after after' : List Char} {v : Value}

/-! ### Literals -/

/--
The literal of a double at the start of a text, and what follows it: a whole part with a fraction,
an exponent or both.
-/
def literal? (cs : List Char) : Option (Literal × List Char) := do
  let (ds, afterWhole) ← whole cs
  let fraction? := fraction afterWhole
  let (fs, afterFraction) := fraction?.getD ([], afterWhole)
  let exponent? := exponent afterFraction
  let (e, after) := exponent?.getD (0, afterFraction)
  if fraction?.isNone && exponent?.isNone then none else some (⟨ds, fs, e⟩, after)

/-- A text begins with a literal, which stands behind a minus if it is negative. -/
def BeginsWith (negative : Bool) (l : Literal) (cs after : List Char) : Prop :=
  ∃ unsigned, cs = (if negative then '-' :: unsigned else unsigned) ∧
    literal? unsigned = some (l, after)

/-- What is read as a number is an integer or the double nearest to a literal. -/
lemma eq_int_or_literal {negative : Bool} (h : unsigned D negative cs = some (v, after)) :
    (∃ n, v = .int n) ∨
      ∃ l, literal? cs = some (l, after) ∧ v = .float (Double.withSign negative l.toDouble) := by
  simp only [unsigned, Option.bind_eq_bind, Option.bind_eq_some_iff] at h
  obtain ⟨⟨ds, afterWhole⟩, hwhole, h⟩ := h
  dsimp only at h
  split_ifs at h with hlong hinteger
  · cases h
    exact .inl ⟨_, rfl⟩
  · obtain ⟨rfl, rfl⟩ := Prod.mk.inj (Option.some.inj h)
    refine .inr ⟨⟨ds, _, _⟩, ?_, rfl⟩
    simp only [literal?, hwhole, Option.bind_eq_bind, Option.bind_some]
    rw [if_neg hinteger]

/-- Without a limit on the digits a literal is read as the double nearest to it. -/
lemma unsigned_of_literal {negative : Bool} {l : Literal} (hD : D.shortDoubles = false)
    (h : literal? cs = some (l, after)) :
    unsigned D negative cs = some (.float (Double.withSign negative l.toDouble), after) := by
  simp only [literal?, Option.bind_eq_bind, Option.bind_eq_some_iff] at h
  obtain ⟨⟨ds, afterWhole⟩, hwhole, h⟩ := h
  dsimp only at h
  split_ifs at h with hinteger
  obtain ⟨rfl, rfl⟩ := Prod.mk.inj (Option.some.inj h)
  have hdouble := Bool.eq_false_iff.2 hinteger
  simp only [unsigned, hwhole, Option.bind_eq_bind, Option.bind_some, hD, Bool.or_false, hdouble,
    Bool.false_and, Bool.false_eq_true, if_false]
  rfl

/-! ### Places -/

/--
From a place in a text to another one behind it; something holds of each character outside of
strings between them.
-/
def Moves (P : Char → Prop) (place : Place) (cs : List Char) (place' : Place)
    (after : List Char) : Prop :=
  ∃ passed, cs = passed ++ after ∧ Leads P place passed place'

section Moves

variable {place place' place'' : Place}

lemma Moves.refl (P : Char → Prop) (place : Place) (cs : List Char) : Moves P place cs place cs :=
  ⟨[], rfl, .nil place⟩

lemma Moves.trans (h : Moves P place cs place' after) (h' : Moves P place' after place'' after') :
    Moves P place cs place'' after' := by
  obtain ⟨passed, rfl, hpassed⟩ := h
  obtain ⟨passed', rfl, hpassed'⟩ := h'
  exact ⟨passed ++ passed', (List.append_assoc ..).symm, hpassed.append hpassed'⟩

lemma Moves.cons (h : Moves P (place.next c) cs place' after) (hc : place = .outside → P c) :
    Moves P place (c :: cs) place' after := by
  obtain ⟨passed, rfl, hpassed⟩ := h
  exact ⟨c :: passed, rfl, .cons hc hpassed⟩

/-- Within a string nothing is asked of a character. -/
lemma Moves.cons_within (h : Moves P (place.next c) cs place' after) (hplace : place ≠ .outside) :
    Moves P place (c :: cs) place' after :=
  h.cons fun houtside => absurd houtside hplace

lemma Passes.moves_outside (h : Passes Q cs after) (hQ : ∀ c, Q c → c ≠ '"' ∧ P c) :
    Moves P .outside cs .outside after := by
  obtain ⟨passed, rfl, hpassed⟩ := h
  exact ⟨passed, rfl, leads_outside fun c hc => hQ c (hpassed c hc)⟩

lemma Passes.moves_inside (h : Passes Q cs after) (hQ : ∀ c, Q c → c ≠ '"' ∧ c ≠ '\\') :
    Moves P .inside cs .inside after := by
  obtain ⟨passed, rfl, hpassed⟩ := h
  exact ⟨passed, rfl, leads_inside fun c hc => hQ c (hpassed c hc)⟩

end Moves

/-! ### Strings -/

lemma IsHexDigit.ne (h : IsHexDigit c) : c ≠ '"' ∧ c ≠ '\\' := by
  obtain ⟨n, h⟩ := h
  constructor <;> rintro rfl <;> cases h

lemma moves_unit {n : Nat} (h : unit cs = some (n, after)) : Moves P .inside cs .inside after :=
  (passes_unit h).moves_inside fun _ => IsHexDigit.ne

lemma moves_codeEscaped {p : Part} (h : codeEscaped D cs = some (p, after)) :
    Moves P .inside cs .inside after := by
  simp only [codeEscaped, Option.bind_eq_bind, Option.bind_eq_some_iff] at h
  obtain ⟨⟨n, rest⟩, hunit, h⟩ := h
  have hpassed : Moves P .inside cs .inside rest := moves_unit hunit
  have hlone : (if D.loneSurrogates then some (Part.ofCodePoint n, rest) else none)
      = some (p, after) → Moves P .inside cs .inside after := by
    intro hlone
    split_ifs at hlone
    cases hlone
    exact hpassed
  dsimp only at h
  generalize (if D.loneSurrogates then some (Part.ofCodePoint n, rest) else none) = lone at h hlone
  split_ifs at h with hhigh hlow
  · split at h
    · split at h
      · next hsecond =>
        split_ifs at h with hpair
        · obtain ⟨-, rfl⟩ := Prod.mk.inj (Option.some.inj h)
          exact hpassed.trans (((moves_unit hsecond).cons_within
            (by decide)).cons_within (by decide))
        · exact hlone h
      · exact hlone h
    · exact hlone h
  · exact hlone h
  · cases h
    exact hpassed

lemma moves_escape {p : Part} (h : escape D cs = some (p, after)) :
    Moves P .escaped cs .inside after := by
  unfold escape at h
  split at h
  case h_9 rest => exact (moves_codeEscaped h).cons_within (by decide)
  all_goals
    cases h
    try exact (Moves.refl P .inside _).cons_within (by decide)

/-- What is read as the rest of a string leads out of it. -/
lemma moves_stringBody {fuel : Nat} {before : List Part} {s : String}
    (h : stringBody D fuel before cs = some (s, after)) : Moves P .inside cs .outside after := by
  induction fuel generalizing before cs with
  | zero => cases h
  | succ fuel ih =>
    unfold stringBody at h
    split at h
    · cases h
    · cases h
      exact (Moves.refl P .outside _).cons_within (by decide)
    · split at h
      · next hescape => exact ((moves_escape hescape).trans (ih h)).cons_within (by decide)
      · cases h
    · next c rest _ _ =>
      split_ifs at h with hliteral
      have hne : ∀ c, isLiteral c = true → c ≠ '"' ∧ c ≠ '\\' := by
        intro c hc
        constructor <;> rintro rfl <;> cases hc
      have hpassed := ((passes_dropWhile rest).cons hliteral).moves_inside (P := P) hne
      exact hpassed.trans (ih h)

/-! ### Values -/

/-- What is no part of the words for non-finite numbers, by which these can be told. -/
def IsStandard (c : Char) : Prop :=
  c ≠ 'N' ∧ c ≠ 'I'

instance (c : Char) : Decidable (IsStandard c) :=
  inferInstanceAs (Decidable (_ ∧ _))

/-- What a value in a list or behind a name can follow. -/
def IsSeparator (c : Char) : Prop :=
  isBlank c = true ∨ c ∈ ['[', ',', ':']

/--
Where a value may stand in a text: outside of strings, and at the beginning or behind a separator.
-/
def Starts (P : Char → Prop) (text cs : List Char) : Prop :=
  ∃ before, text = before ++ cs ∧ Leads P .outside before .outside ∧
    ∀ c ∈ before.getLast?, IsSeparator c

/-- A literal is spelled in a text where a value may stand. -/
def Spells (text : List Char) (negative : Bool) (l : Literal) : Prop :=
  ∃ cs after, Starts (fun _ => True) text cs ∧ BeginsWith negative l cs after

/-- The doubles that are nearest to a literal in a text. -/
def IsSpelled (text : List Char) (x : Float) : Prop :=
  ∃ negative l, Spells text negative l ∧ x = Double.withSign negative l.toDouble

section Starts

variable {text : List Char}

/-- Without the words for non-finite numbers their letters are not passed. -/
lemma IsToken.ne (hD : D.nonFinite = false) (h : IsToken D c) : c ≠ '"' ∧ IsStandard c := by
  refine ⟨?_, ?_, ?_⟩ <;> rintro rfl <;> cases h with
  | blank h | digit h | ordinary h => exact absurd h (by decide)
  | nonFinite h =>
    rw [hD] at h
    cases h

lemma IsSeparator.ne (h : IsSeparator c) : c ≠ '"' ∧ IsStandard c := by
  refine ⟨?_, ?_, ?_⟩ <;> rintro rfl <;> simp [IsSeparator, isBlank] at h

lemma Starts.mono (h : Starts P text cs) (hPQ : ∀ c, P c → Q c) : Starts Q text cs := by
  obtain ⟨before, rfl, hbefore, hlast⟩ := h
  exact ⟨before, rfl, hbefore.mono hPQ, hlast⟩

lemma Starts.moves (h : Starts P text cs) : Moves P .outside text .outside cs := by
  obtain ⟨before, rfl, hbefore, -⟩ := h
  exact ⟨before, rfl, hbefore⟩

lemma moves_skipBlanks (cs : List Char) :
    Moves IsStandard .outside cs .outside (skipBlanks cs) :=
  (passes_dropWhile cs).moves_outside fun _ hc => IsSeparator.ne (.inl hc)

lemma Starts.skipBlanks (h : Starts IsStandard text cs) :
    Starts IsStandard text (skipBlanks cs) := by
  obtain ⟨before, rfl, hbefore, hlast⟩ := h
  refine ⟨before ++ cs.takeWhile isBlank, ?_, hbefore.append (leads_outside fun c hc =>
    IsSeparator.ne (.inl (List.mem_takeWhile_imp hc))), fun c hc => ?_⟩
  · rw [List.append_assoc, Json.skipBlanks, List.takeWhile_append_dropWhile]
  · rw [List.getLast?_append, Option.mem_def, Option.or_eq_some_iff] at hc
    rcases hc with hc | ⟨-, hc⟩
    · exact .inl (List.mem_takeWhile_imp (List.mem_of_getLast? hc))
    · exact hlast c hc

lemma Moves.behind (h : Moves IsStandard .outside text .outside cs)
    (hskip : Json.skipBlanks cs = c :: after) (hc : c ≠ '"' ∧ IsStandard c) :
    Moves IsStandard .outside text .outside after := by
  have hblanks := moves_skipBlanks cs
  rw [hskip] at hblanks
  have hpassed : Passes (· = c) (c :: after) after := (Passes.refl after).cons rfl
  exact (h.trans hblanks).trans (hpassed.moves_outside fun _ heq => heq ▸ hc)

lemma Moves.starts (h : Moves IsStandard .outside text .outside cs)
    (hskip : Json.skipBlanks cs = c :: after) (hc : IsSeparator c) :
    Starts IsStandard text after := by
  have hblanks := moves_skipBlanks cs
  rw [hskip] at hblanks
  obtain ⟨before, hbefore, hleads⟩ := h.trans hblanks
  refine ⟨before ++ [c], by rw [hbefore, List.append_assoc]; rfl, hleads.append
    (leads_outside (List.forall_mem_singleton.2 hc.ne)), fun c' hc' => ?_⟩
  rw [List.getLast?_concat, Option.mem_some_iff] at hc'
  exact hc' ▸ hc

lemma Moves.string {fuel : Nat} {s : String} (h : Moves IsStandard .outside text .outside cs)
    (hskip : Json.skipBlanks cs = '"' :: after)
    (hs : stringBody D fuel [] after = some (s, after')) :
    Moves IsStandard .outside text .outside after' := by
  have hblanks := moves_skipBlanks cs
  rw [hskip] at hblanks
  exact (h.trans hblanks).trans ((moves_stringBody hs).cons fun _ => by decide)

/-- No word stands for a double, and a number is spelled where it stands. -/
lemma allDoubles_scalar (hD : D.nonFinite = false) (h : scalar D cs = .ok (v, after))
    (hstarts : Starts IsStandard text cs) : v.AllDoubles (IsSpelled text) := by
  rcases scalar_cases h with hword | ⟨negative, number, hcs, hnumber⟩
  · unfold word? at hword
    split at hword
    · cases hword
      exact .null
    · cases hword
      exact .bool true
    · cases hword
      exact .bool false
    all_goals simp [hD] at hword
  · rcases eq_int_or_literal hnumber with ⟨n, rfl⟩ | ⟨l, hl, rfl⟩
    · exact .int n
    · have hspells : Spells text negative l :=
        ⟨cs, after, hstarts.mono fun _ _ => trivial, number, hcs, hl⟩
      exact .float ⟨negative, l, hspells, rfl⟩

end Starts

/-- A value whose doubles are spelled in a text, and what stands behind it outside of strings. -/
structure IsExplained (text : List Char) (v : Value) (after : List Char) : Prop where
  doubles : v.AllDoubles (IsSpelled text)
  moves : Moves IsStandard .outside text .outside after

/-- What the three functions of a reader find with some fuel where a value may stand in a text. -/
structure Explains (D : Dialect) (text : List Char) (fuel : Nat) : Prop where
  value : ∀ {room cs v after}, Starts IsStandard text cs →
    value D fuel room cs = .ok (v, after) → IsExplained text v after
  items : ∀ {room before cs v after}, Starts IsStandard text cs →
    (∀ b ∈ before, Value.AllDoubles (IsSpelled text) b) →
    items D fuel room before cs = .ok (v, after) → IsExplained text v after
  members : ∀ {room before cs v after}, Moves IsStandard .outside text .outside cs →
    (∀ m ∈ before, Value.AllDoubles (IsSpelled text) m.2) →
    members D fuel room before cs = .ok (v, after) → IsExplained text v after

namespace Explains

variable {text : List Char} {fuel room : Nat}

lemma value_succ (hD : D.nonFinite = false) (h : Explains D text fuel)
    (hcs : Starts IsStandard text cs) (hv : Json.value D (fuel + 1) room cs = .ok (v, after)) :
    IsExplained text v after := by
  rw [Json.value] at hv
  split at hv
  · next rest hquote =>
    split at hv <;> cases hv
    next hs => exact ⟨.str _, hcs.moves.string hquote hs⟩
  · next rest hopen =>
    have hrest := hcs.moves.starts hopen (.inr (by decide))
    split at hv
    · cases hv
    · split at hv
      · next hclose =>
        cases hv
        exact ⟨.list (List.forall_mem_nil _), hrest.moves.behind hclose (by decide)⟩
      · split_ifs at hv
        refine h.items hrest ?_ hv
        exact List.forall_mem_nil _
  · next rest hopen =>
    have hrest := hcs.moves.behind hopen (by decide)
    split at hv
    · cases hv
    · split at hv
      · next hclose =>
        cases hv
        exact ⟨.object (List.forall_mem_nil _), hrest.behind hclose (by decide)⟩
      · split_ifs at hv
        refine h.members hrest ?_ hv
        exact List.forall_mem_nil _
  · have hstarts := hcs.skipBlanks
    exact ⟨allDoubles_scalar hD hv hstarts, hstarts.moves.trans
      ((passes_scalar hv).moves_outside fun _ hc => hc.ne hD)⟩

lemma items_succ (h : Explains D text fuel) {before : List Value} (hcs : Starts IsStandard text cs)
    (hbefore : ∀ b ∈ before, b.AllDoubles (IsSpelled text))
    (hv : Json.items D (fuel + 1) room before cs = .ok (v, after)) :
    IsExplained text v after := by
  rw [Json.items] at hv
  split at hv
  · cases hv
  · next found rest hfound =>
    obtain ⟨hvalue, hrest⟩ := h.value hcs hfound
    have hall := List.forall_mem_cons.2 ⟨hvalue, hbefore⟩
    split at hv
    · next hcomma => exact h.items (hrest.starts hcomma (.inr (by decide))) hall hv
    · next hclose =>
      cases hv
      exact ⟨.list fun b hb => hall b (List.mem_reverse.1 hb),
        hrest.behind hclose (by decide)⟩
    · cases hv

/-- A member that is repeated replaces the one before. -/
lemma members_succ (h : Explains D text fuel) {before : List (String × Value)}
    (hcs : Moves IsStandard .outside text .outside cs)
    (hbefore : ∀ m ∈ before, m.2.AllDoubles (IsSpelled text))
    (hv : Json.members D (fuel + 1) room before cs = .ok (v, after)) :
    IsExplained text v after := by
  rw [Json.members] at hv
  split at hv
  · next hquote =>
    split at hv
    · cases hv
    · next name afterName hstring =>
      have hname := hcs.string hquote hstring
      split at hv
      · next hcolon =>
        split at hv
        · cases hv
        · next found rest hfound =>
          obtain ⟨hvalue, hrest⟩ := h.value (hname.starts hcolon (.inr (by decide))) hfound
          have hset : ∀ m ∈ Value.setMember before name found,
              m.2.AllDoubles (IsSpelled text) := by
            intro m hm
            rcases mem_setMember hm with hm | rfl
            · exact hbefore m hm
            · exact hvalue
          split at hv
          · next hcomma =>
            exact h.members (hrest.behind hcomma (by decide)) hset hv
          · next hclose =>
            cases hv
            exact ⟨.object hset, hrest.behind hclose (by decide)⟩
          · cases hv
      · cases hv
  · cases hv

end Explains

lemma explains (hD : D.nonFinite = false) (text : List Char) (fuel : Nat) :
    Explains D text fuel := by
  induction fuel with
  | zero => constructor <;> intros <;> contradiction
  | succ fuel ih => exact ⟨ih.value_succ hD, ih.items_succ, ih.members_succ⟩

/-- **The doubles in what is read are those nearest to literals of the text.** -/
theorem allDoubles_of_read {s : String} (hD : D.nonFinite = false) (h : read D s = .ok v) :
    v.AllDoubles (IsSpelled s.toList) ∧ Leads IsStandard .outside s.toList .outside := by
  simp only [read] at h
  split at h
  · cases h
  · next found rest hfound =>
    split_ifs at h with hend
    cases h
    have hbegin : Starts IsStandard s.toList s.toList := ⟨[], rfl, .nil .outside, by simp⟩
    obtain ⟨hdoubles, hrest⟩ := (explains hD s.toList _).value hbegin hfound
    obtain ⟨passed, hpassed, hleads⟩ := hrest.trans (moves_skipBlanks rest)
    rw [List.isEmpty_iff.1 hend, List.append_nil] at hpassed
    exact ⟨hdoubles, hpassed ▸ hleads⟩

/-- A text that is a literal is read as the double nearest to it. -/
theorem read_of_literal {s : String} {negative : Bool} {l : Literal}
    (hD : D.shortDoubles = false) (h : BeginsWith negative l s.toList []) :
    read D s = .ok (.float (Double.withSign negative l.toDouble)) := by
  obtain ⟨unsigned, hs, hl⟩ := h
  have hnumber : Json.unsigned D negative unsigned = _ := unsigned_of_literal hD hl
  have hscalar := scalar_of_unsigned hnumber
  rw [← hs] at hscalar
  exact read_of_value rfl (value_of_scalar hscalar)

end Json

end Workflow
