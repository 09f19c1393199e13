import Mathlib
import Workflow.Transform.Number

/-!
# Literals at the start of a text

A float literal is the word `Infinity`, or digits with a point among them or not and an exponent
behind them or not, and a sign may stand before either. Of the prefixes of a text that are float
literals the longest one is found, although the reader never goes back: whatever part of a literal
may follow, it is known from the next character whether it does.
-/

namespace Workflow

namespace Literal

open Text

/-! ### The grammar -/

/-- Decimal digits and their values. -/
def IsRun (cs : List Char) (ds : List Nat) : Prop :=
  List.Forall₂ (fun c d => digitValue? c = some d) cs ds

/-- A sign or none, and whether it is a minus. -/
inductive IsSign : List Char → Bool → Prop where
  | none : IsSign [] false
  | plus : IsSign ['+'] false
  | minus : IsSign ['-'] true

/-- The digits of a literal before and behind the point; there are some on one side at least. -/
inductive IsMantissa : List Char → List Nat → List Nat → Prop where
  | whole {cs : List Char} {ds : List Nat} (h : IsRun cs ds) (hne : ds ≠ []) : IsMantissa cs ds []
  | point {cs cs' : List Char} {ds fs : List Nat} (h : IsRun cs ds) (hne : ds ≠ [])
      (h' : IsRun cs' fs) : IsMantissa (cs ++ '.' :: cs') ds fs
  | fraction {cs : List Char} {fs : List Nat} (h : IsRun cs fs) (hne : fs ≠ []) :
      IsMantissa ('.' :: cs) [] fs

/-- An exponent, which has digits behind its letter and its sign, or none. -/
inductive IsExponent : List Char → Int → Prop where
  | none : IsExponent [] 0
  | some {letter : Char} {sign cs : List Char} {negative : Bool} {ds : List Nat}
      (hletter : letter = 'e' ∨ letter = 'E') (hsign : IsSign sign negative) (h : IsRun cs ds)
      (hne : ds ≠ []) :
      IsExponent (letter :: (sign ++ cs)) (Double.signed negative (digitsValue ds))

/-- A float literal without a sign: the word `Infinity`, which has no digits, or a decimal. -/
inductive IsUnsigned : List Char → Option Literal → Prop where
  | infinity : IsUnsigned "Infinity".toList none
  | decimal {cs cs' : List Char} {ds fs : List Nat} {e : Int} (h : IsMantissa cs ds fs)
      (h' : IsExponent cs' e) : IsUnsigned (cs ++ cs') (some ⟨ds, fs, e⟩)

/-- A float literal, and whether it stands behind a minus. -/
inductive IsFloat : List Char → Bool → Option Literal → Prop where
  | intro {sign cs : List Char} {negative : Bool} {l? : Option Literal}
      (hsign : IsSign sign negative) (h : IsUnsigned cs l?) : IsFloat (sign ++ cs) negative l?

/-- The longest prefix of a text that is a float literal. -/
structure IsLongest (text p : List Char) : Prop where
  isPrefix : p <+: text
  isFloat : ∃ negative l?, IsFloat p negative l?
  longest : ∀ p', p' <+: text → (∃ negative l?, IsFloat p' negative l?) → p'.length ≤ p.length

/--
What is found in a text of which a part is known: what the part stands for, and then what follows
it, or something that goes on into what follows.
-/
def GoesTo {α : Type} (a : α) (rest : List Char) (found : α × List Char) : Prop :=
  found = (a, rest) ∨ found.2.length < rest.length

section GoesTo

variable {α β : Type} {a : α} {rest : List Char} {found : α × List Char}

lemma GoesTo.length_le (h : GoesTo a rest found) : found.2.length ≤ rest.length :=
  h.elim (fun hsame => by rw [hsame]) le_of_lt

lemma GoesTo.map (h : GoesTo a rest found) (f : α → β) :
    GoesTo (f a) rest (f found.1, found.2) :=
  h.imp (fun hsame => by rw [hsame]) id

end GoesTo

/-! ### Digits -/

section Scan

variable {cs rest sgn p : List Char} {ds fs : List Nat} {c : Char} {negative : Bool} {e : Int}
  {l? : Option Literal}

/-- The characters of a literal that are not digits, as far as they tell how it goes on. -/
def marks : List Char := ['+', '-', '.', 'e', 'E', 'I']

lemma digitValue?_mark : ∀ c ∈ marks, digitValue? c = none := by
  simp only [marks, List.forall_mem_cons, List.not_mem_nil, false_imp_iff, implies_true, and_true]
  exact ⟨rfl, rfl, rfl, rfl, rfl, rfl⟩

/-- The run that is found consists of digits. -/
lemma exists_isRun (cs : List Char) :
    ∃ run, cs = run ++ (digitRun digitValue? cs).2 ∧ IsRun run (digitRun digitValue? cs).1 := by
  induction cs with
  | nil => exact ⟨[], rfl, .nil⟩
  | cons c cs ih =>
    rw [digitRun]
    cases hc : digitValue? c with
    | none => exact ⟨[], rfl, .nil⟩
    | some d =>
      obtain ⟨run, hrun, hdigits⟩ := ih
      exact ⟨c :: run, congrArg (c :: ·) hrun, .cons hc hdigits⟩

lemma length_lt_of_append {p after : List Char} (hp : p ≠ []) (h : cs = p ++ after) :
    after.length < cs.length := by
  rw [h, List.length_append]
  exact Nat.lt_add_of_pos_left (List.length_pos_iff.2 hp)

lemma goesTo_digitRun (rest : List Char) : GoesTo [] rest (digitRun digitValue? rest) := by
  obtain ⟨run, hrun, hdigits⟩ := exists_isRun rest
  cases hds : (digitRun digitValue? rest).1 with
  | nil =>
    rw [hds] at hdigits
    cases hdigits
    exact .inl (Prod.ext hds hrun.symm)
  | cons d ds =>
    rw [hds] at hdigits
    cases hdigits
    exact .inr (length_lt_of_append (List.cons_ne_nil _ _) hrun)

lemma IsRun.digitRun_append (h : IsRun cs ds) (rest : List Char) :
    digitRun digitValue? (cs ++ rest)
      = (ds ++ (digitRun digitValue? rest).1, (digitRun digitValue? rest).2) := by
  induction h with
  | nil => rfl
  | cons hc _ ih =>
    rw [List.cons_append, digitRun, hc, ih]
    rfl

lemma IsRun.goesTo (h : IsRun cs ds) (rest : List Char) :
    GoesTo ds rest (digitRun digitValue? (cs ++ rest)) := by
  rw [h.digitRun_append]
  refine (goesTo_digitRun rest).imp (fun hsame => ?_) id
  rw [hsame, List.append_nil]

/-- A run of digits ends at a mark. -/
lemma IsRun.digitRun_mark (h : IsRun cs ds) (hc : c ∈ marks) (rest : List Char) :
    digitRun digitValue? (cs ++ c :: rest) = (ds, c :: rest) := by
  rw [h.digitRun_append, digitRun, digitValue?_mark c hc, List.append_nil]

/-- A run of digits begins with none of the marks. -/
lemma IsRun.exists_cons (h : IsRun cs ds) (hne : ds ≠ []) :
    ∃ c tail, cs = c :: tail ∧ c ∉ marks := by
  cases h with
  | nil => exact absurd rfl hne
  | cons hc _ =>
    refine ⟨_, _, rfl, fun hmark => ?_⟩
    rw [digitValue?_mark _ hmark] at hc
    cases hc

/-! ### Signs -/

lemma exists_isSign (cs : List Char) :
    ∃ sgn, cs = sgn ++ (sign cs).2 ∧ IsSign sgn (sign cs).1 := by
  unfold sign
  split
  · exact ⟨['-'], rfl, .minus⟩
  · exact ⟨['+'], rfl, .plus⟩
  · exact ⟨[], rfl, .none⟩

/-- A sign is found before what is none. -/
lemma IsSign.sign_append (h : IsSign sgn negative) (hc : c ∉ ['+', '-']) (rest : List Char) :
    sign (sgn ++ c :: rest) = (negative, c :: rest) := by
  cases h with
  | none =>
    rw [List.nil_append, sign]
    · rintro tail heq
      exact hc (by simp [(List.cons.inj heq).1])
    · rintro tail heq
      exact hc (by simp [(List.cons.inj heq).1])
  | plus => rfl
  | minus => rfl

lemma not_mem_signs (hc : c ∉ marks) : c ∉ ['+', '-'] :=
  fun h => hc (List.mem_append_left _ h)

/-! ### Exponents -/

/-- The exponent that is found is one. -/
lemma exists_isExponent (cs : List Char) :
    ∃ p, cs = p ++ (scanExponent digitValue? cs).2 ∧
      IsExponent p (scanExponent digitValue? cs).1 := by
  cases cs with
  | nil => exact ⟨[], rfl, .none⟩
  | cons c cs =>
    simp only [scanExponent]
    split_ifs with hletter
    · obtain ⟨sgn, hsgn, hsign⟩ := exists_isSign cs
      obtain ⟨run, hrun, hdigits⟩ := exists_isRun (sign cs).2
      split
      · exact ⟨[], rfl, .none⟩
      · next ds after hne hfound =>
        rw [hfound] at hrun hdigits
        refine ⟨c :: (sgn ++ run), ?_, .some (by simpa using hletter) hsign hdigits ?_⟩
        · rw [List.cons_append, List.append_assoc, ← hrun, ← hsgn]
        · rintro rfl
          exact hne rfl
    · exact ⟨[], rfl, .none⟩

lemma goesTo_scanExponent (rest : List Char) : GoesTo 0 rest (scanExponent digitValue? rest) := by
  obtain ⟨p, hp, hexponent⟩ := exists_isExponent rest
  generalize scanExponent digitValue? rest = found at hp hexponent ⊢
  obtain ⟨e, after⟩ := found
  cases hexponent with
  | none => exact .inl (Prod.ext rfl hp.symm)
  | some => exact .inr (length_lt_of_append (List.cons_ne_nil _ _) hp)

lemma IsExponent.goesTo (h : IsExponent p e) (rest : List Char) :
    GoesTo e rest (scanExponent digitValue? (p ++ rest)) := by
  cases h with
  | none => exact goesTo_scanExponent rest
  | @some letter sgn cs negative ds hletter hsign h hne =>
    obtain ⟨c, tail, rfl, hc⟩ := h.exists_cons hne
    have hfound : scanExponent digitValue? (letter :: (sgn ++ c :: tail) ++ rest)
        = (Double.signed negative (digitsValue (digitRun digitValue? (c :: tail ++ rest)).1),
          (digitRun digitValue? (c :: tail ++ rest)).2) := by
      rw [List.cons_append, List.append_assoc, List.cons_append, scanExponent,
        if_pos (by simpa using hletter), hsign.sign_append (not_mem_signs hc), ← List.cons_append,
        h.digitRun_append]
      cases ds with
      | nil => exact absurd rfl hne
      | cons d ds => rfl
    rw [hfound]
    exact (h.goesTo rest).map fun ds => Double.signed negative (digitsValue ds)

/-! ### Mantissas -/

/-- What follows the digits before the point. -/
def behindWhole (whole : List Nat) : List Char → (List Nat × List Nat) × List Char
  | '.' :: rest => ((whole, (digitRun digitValue? rest).1), (digitRun digitValue? rest).2)
  | after => ((whole, []), after)

/-- The digits at the start of a text before and behind the point, and what follows them. -/
def mantissa (cs : List Char) : (List Nat × List Nat) × List Char :=
  behindWhole (digitRun digitValue? cs).1 (digitRun digitValue? cs).2

lemma scan_eq (cs : List Char) :
    scan digitValue? cs =
      if (mantissa cs).1 = ([], []) then none
      else
        let found := scanExponent digitValue? (mantissa cs).2
        some (⟨(mantissa cs).1.1, (mantissa cs).1.2, found.1⟩, found.2) := by
  rw [scan, mantissa]
  generalize digitRun digitValue? cs = found
  obtain ⟨whole, after⟩ := found
  simp only [behindWhole]
  split <;> simp

/-- The mantissa that is found is one, if it has digits. -/
lemma exists_isMantissa (h : (mantissa cs).1 ≠ ([], [])) :
    ∃ p, cs = p ++ (mantissa cs).2 ∧ IsMantissa p (mantissa cs).1.1 (mantissa cs).1.2 := by
  obtain ⟨run, hrun, hdigits⟩ := exists_isRun cs
  rw [mantissa] at h ⊢
  generalize digitRun digitValue? cs = found at hrun hdigits h ⊢
  obtain ⟨whole, after⟩ := found
  simp only [behindWhole] at hrun hdigits h ⊢
  split at h
  · next rest =>
    obtain ⟨run', hrun', hdigits'⟩ := exists_isRun rest
    refine ⟨run ++ '.' :: run', ?_, ?_⟩
    · rw [List.append_assoc, List.cons_append]
      exact hrun.trans (congrArg (run ++ '.' :: ·) hrun')
    · by_cases hwhole : whole = []
      · subst hwhole
        cases hdigits
        exact .fraction hdigits' fun hnone => h (Prod.ext rfl hnone)
      · exact .point hdigits hwhole hdigits'
  · exact ⟨run, hrun, .whole hdigits fun hnone => h (Prod.ext hnone rfl)⟩

lemma behindWhole_fst (ds : List Nat) (rest : List Char) : (behindWhole ds rest).1.1 = ds := by
  unfold behindWhole
  split <;> rfl

lemma goesTo_behindWhole (ds : List Nat) (rest : List Char) :
    GoesTo (ds, []) rest (behindWhole ds rest) := by
  unfold behindWhole
  split
  · next tail =>
    exact .inr (Nat.lt_succ_of_le (goesTo_digitRun tail).length_le)
  · exact .inl rfl

lemma IsMantissa.goesTo (h : IsMantissa p ds fs) (rest : List Char) :
    GoesTo (ds, fs) rest (mantissa (p ++ rest)) ∧ (mantissa (p ++ rest)).1 ≠ ([], []) := by
  cases h with
  | whole h hne =>
    rw [mantissa, h.digitRun_append]
    refine ⟨?_, fun hnone => ?_⟩
    · rcases goesTo_digitRun rest with hsame | hlt
      · rw [hsame, List.append_nil]
        exact goesTo_behindWhole ds rest
      · exact .inr ((goesTo_behindWhole _ _).length_le.trans_lt hlt)
    · have := (behindWhole_fst _ _).symm.trans (congrArg Prod.fst hnone)
      exact hne (List.append_eq_nil_iff.1 this).1
  | point h hne h' =>
    rw [List.append_assoc, List.cons_append, mantissa, h.digitRun_mark (by decide)]
    exact ⟨(h'.goesTo rest).map (ds, ·), fun hnone => hne (congrArg Prod.fst hnone)⟩
  | fraction h hne =>
    rw [List.cons_append, mantissa, ← List.nil_append ('.' :: _),
      IsRun.digitRun_mark .nil (by decide)]
    refine ⟨(h.goesTo rest).map ([], ·), fun hnone => ?_⟩
    have hdigits : (digitRun digitValue? (_ ++ rest)).1 = [] := congrArg Prod.snd hnone
    rw [h.digitRun_append] at hdigits
    exact hne (List.append_eq_nil_iff.1 hdigits).1

/-- A mantissa ends at the letter of an exponent. -/
lemma IsMantissa.mantissa_letter (h : IsMantissa p ds fs) (hletter : c = 'e' ∨ c = 'E')
    (rest : List Char) : mantissa (p ++ c :: rest) = ((ds, fs), c :: rest) := by
  have hc : c ∈ marks := by rcases hletter with rfl | rfl <;> decide
  cases h with
  | whole h hne =>
    rw [mantissa, h.digitRun_mark hc]
    rcases hletter with rfl | rfl <;> rfl
  | point h hne h' =>
    rw [List.append_assoc, List.cons_append, mantissa, h.digitRun_mark (by decide)]
    simp only [behindWhole, h'.digitRun_mark hc]
  | fraction h hne =>
    rw [List.cons_append, mantissa, ← List.nil_append ('.' :: _),
      IsRun.digitRun_mark .nil (by decide)]
    simp only [behindWhole, h.digitRun_mark hc]

/-! ### Float literals -/

/-- The float literal without a sign at the start of a text, and what follows it. -/
def unsigned? : List Char → Option (Option Literal × List Char)
  | 'I' :: 'n' :: 'f' :: 'i' :: 'n' :: 'i' :: 't' :: 'y' :: rest => some (none, rest)
  | cs => (scan digitValue? cs).map fun found => (some found.1, found.2)

/-- The float literal at the start of a text, whether it stands behind a minus, and what follows. -/
def float? (cs : List Char) : Option ((Bool × Option Literal) × List Char) :=
  (unsigned? (sign cs).2).map fun found => (((sign cs).1, found.1), found.2)

/-- The decimal that is found is one. -/
lemma exists_decimal {l : Literal} {after : List Char}
    (h : scan digitValue? cs = some (l, after)) : ∃ p, cs = p ++ after ∧ IsUnsigned p (some l) := by
  rw [scan_eq] at h
  split_ifs at h with hnone
  obtain ⟨rfl, rfl⟩ := Prod.mk.inj (Option.some.inj h)
  obtain ⟨p, hp, hmantissa⟩ := exists_isMantissa hnone
  obtain ⟨p', hp', hexponent⟩ := exists_isExponent (mantissa cs).2
  exact ⟨p ++ p', by rw [List.append_assoc, ← hp', ← hp], .decimal hmantissa hexponent⟩

lemma exists_isUnsigned {after : List Char} (h : unsigned? cs = some (l?, after)) :
    ∃ p, cs = p ++ after ∧ IsUnsigned p l? := by
  unfold unsigned? at h
  split at h
  · obtain ⟨rfl, rfl⟩ := Prod.mk.inj (Option.some.inj h)
    exact ⟨_, rfl, .infinity⟩
  · obtain ⟨⟨l, after⟩, hfound, heq⟩ := Option.map_eq_some_iff.1 h
    obtain ⟨rfl, rfl⟩ := Prod.mk.inj heq
    exact exists_decimal hfound

/-- A literal without a sign begins with none, and only the word begins with its letter. -/
lemma IsUnsigned.exists_cons (h : IsUnsigned p l?) :
    ∃ c tail, p = c :: tail ∧ c ∉ ['+', '-'] ∧ (c = 'I' → l? = none) := by
  cases h with
  | infinity => exact ⟨'I', _, rfl, by decide, fun _ => rfl⟩
  | decimal h h' =>
    cases h with
    | whole h hne | point h hne _ =>
      obtain ⟨c, tail, rfl, hc⟩ := h.exists_cons hne
      exact ⟨c, _, rfl, not_mem_signs hc, fun heq => absurd (heq ▸ by decide) hc⟩
    | fraction => exact ⟨'.', _, rfl, by decide, nofun⟩

lemma IsUnsigned.goesTo (h : IsUnsigned p l?) (rest : List Char) :
    ∃ found, unsigned? (p ++ rest) = some found ∧ GoesTo l? rest found := by
  obtain ⟨c, tail, hp, -, hword⟩ := h.exists_cons
  cases h with
  | infinity => exact ⟨_, rfl, .inl rfl⟩
  | @decimal cs cs' ds fs e h h' =>
    have hscan : unsigned? (cs ++ cs' ++ rest)
        = (scan digitValue? (cs ++ cs' ++ rest)).map fun found => (some found.1, found.2) := by
      rw [hp, List.cons_append, unsigned?]
      rintro tail heq
      cases hword (List.cons.inj heq).1
    rw [hscan, scan_eq, List.append_assoc]
    obtain ⟨hmantissa, hne⟩ := h.goesTo (cs' ++ rest)
    rw [if_neg hne, Option.map_some]
    refine ⟨_, rfl, ?_⟩
    cases h' with
    | none =>
      rcases hmantissa with hsame | hlt
      · rw [hsame]
        exact (goesTo_scanExponent rest).map fun e => some (Literal.mk ds fs e)
      · exact .inr ((goesTo_scanExponent _).length_le.trans_lt hlt)
    | some hletter hsign hdigits hsome =>
      rw [List.cons_append, h.mantissa_letter hletter, ← List.cons_append]
      exact ((IsExponent.some hletter hsign hdigits hsome).goesTo rest).map
        fun e => some (Literal.mk ds fs e)

lemma exists_isFloat {after : List Char} (h : float? cs = some ((negative, l?), after)) :
    ∃ p, cs = p ++ after ∧ IsFloat p negative l? := by
  obtain ⟨⟨l?, after⟩, hfound, heq⟩ := Option.map_eq_some_iff.1 h
  obtain ⟨hsigned, rfl⟩ := Prod.mk.inj heq
  obtain ⟨rfl, rfl⟩ := Prod.mk.inj hsigned
  obtain ⟨sgn, hsgn, hsign⟩ := exists_isSign cs
  obtain ⟨p, hp, hunsigned⟩ := exists_isUnsigned hfound
  exact ⟨sgn ++ p, by rw [List.append_assoc, ← hp, ← hsgn], .intro hsign hunsigned⟩

lemma IsFloat.goesTo (h : IsFloat p negative l?) (rest : List Char) :
    ∃ found, float? (p ++ rest) = some found ∧ GoesTo (negative, l?) rest found := by
  cases h with
  | @intro sgn cs _ _ hsign h =>
    obtain ⟨found, hfound, hgoes⟩ := h.goesTo rest
    obtain ⟨c, tail, rfl, hc, -⟩ := h.exists_cons
    rw [float?, List.append_assoc, List.cons_append, hsign.sign_append hc, ← List.cons_append,
      hfound, Option.map_some]
    exact ⟨_, rfl, hgoes.map (negative, ·)⟩

/-! ### The longest prefix -/

/-- Nothing is found where no prefix is a literal. -/
lemma float?_eq_none_iff :
    float? cs = none ↔ ∀ p, p <+: cs → ¬∃ negative l?, IsFloat p negative l? := by
  constructor
  · rintro hnone p ⟨rest, rfl⟩ ⟨negative, l?, h⟩
    obtain ⟨found, hfound, -⟩ := h.goesTo rest
    rw [hnone] at hfound
    cases hfound
  · intro hno
    by_contra hsome
    obtain ⟨⟨⟨negative, l?⟩, after⟩, hfound⟩ := Option.ne_none_iff_exists'.1 hsome
    obtain ⟨p, hp, h⟩ := exists_isFloat hfound
    exact hno p ⟨after, hp.symm⟩ ⟨negative, l?, h⟩

/-- What is found is the longest prefix that is a literal. -/
lemma isLongest_of_float? {after : List Char} (h : float? cs = some ((negative, l?), after)) :
    ∃ p, cs = p ++ after ∧ IsFloat p negative l? ∧ IsLongest cs p := by
  obtain ⟨p, hp, hfloat⟩ := exists_isFloat h
  refine ⟨p, hp, hfloat, ⟨after, hp.symm⟩, ⟨negative, l?, hfloat⟩, ?_⟩
  rintro p' ⟨rest, hrest⟩ ⟨negative', l?', h'⟩
  obtain ⟨found, hfound, hgoes⟩ := h'.goesTo rest
  rw [hrest, h, Option.some.injEq] at hfound
  have hle := hgoes.length_le
  rw [← hfound] at hle
  have hlength := congrArg List.length (hrest.trans hp)
  rw [List.length_append, List.length_append] at hlength
  dsimp only at hle
  omega

/-- The longest prefix that is a literal is found, and what it stands for with it. -/
lemma IsLongest.float?_eq (h : IsLongest cs p) (hfloat : IsFloat p negative l?) :
    ∃ after, float? cs = some ((negative, l?), after) := by
  obtain ⟨rest, rfl⟩ := h.isPrefix
  obtain ⟨⟨⟨negative', l?'⟩, after⟩, hfound, hgoes⟩ := hfloat.goesTo rest
  rcases hgoes with hsame | hlt
  · exact ⟨rest, by rw [hfound, hsame]⟩
  · obtain ⟨p', hp', h'⟩ := exists_isFloat hfound
    have hle := h.longest p' ⟨after, hp'.symm⟩ ⟨negative', l?', h'⟩
    have hlength := congrArg List.length hp'
    rw [List.length_append, List.length_append] at hlength
    dsimp only at hlt
    omega

end Scan

end Literal

end Workflow
