import Workflow.Proofs.Yaml.Quoted
import Workflow.Yaml.Token

/-!
# The tokens of JSON texts

The tokens of a flow collection do not depend on where its lines end. All that has to be known of a
place in a text is therefore how many collections are open there, which tokens stand before it, and
what follows the next spaces and line breaks. From one such place the scan goes on to the next.
-/

namespace Workflow.Yaml

open Text Json

/-! ### Places -/

lemma index_foldl_after (cs : List Char) (p : Place) :
    (cs.foldl Place.after p).index = p.index + cs.length := by
  induction cs generalizing p with
  | nil => rfl
  | cons c cs ih =>
    have hafter : (p.after c).index = p.index + 1 := by
      rw [Place.after]
      split_ifs <;> rfl
    rw [List.foldl_cons, ih, hafter, List.length_cons]
    omega

lemma line_foldl_after {cs : List Char} (h : ∀ c ∈ cs, isBreak c = false) (p : Place) :
    (cs.foldl Place.after p).line = p.line := by
  induction cs generalizing p with
  | nil => rfl
  | cons c cs ih =>
    obtain ⟨hc, hcs⟩ := List.forall_mem_cons.1 h
    have hafter : (p.after c).line = p.line := by
      rw [Place.after, hc, if_neg Bool.false_ne_true]
      split_ifs <;> rfl
    rw [List.foldl_cons, ih hcs, hafter]

lemma Cursor.skipTo_of_append {c : Cursor} {cs rest : List Char} (h : c.rest = cs ++ rest) :
    c.skipTo rest = ⟨rest, cs.foldl Place.after c.place⟩ := by
  have hlength : (cs ++ rest).length - rest.length = cs.length := by
    rw [List.length_append, Nat.add_sub_cancel]
  rw [skipTo, skip, h, hlength, List.drop_left, List.take_left]

/-! ### Gaps -/

/-- A text without the spaces and the line breaks at its start. -/
def dropGap (cs : List Char) : List Char :=
  cs.dropWhile fun c => c = ' ' || c = '\n'

/-- A character with which a token may begin. -/
structure BeginsToken (c : Char) : Prop where
  notSpace : c ≠ ' '
  notBreak : isBreak c = false
  notComment : c ≠ '#'

lemma BeginsToken.dropGap_cons {c : Char} (h : BeginsToken c) (rest : List Char) :
    dropGap (c :: rest) = c :: rest := by
  have hline : c ≠ '\n' := by
    rintro rfl
    exact absurd h.notBreak (by decide)
  rw [dropGap, List.dropWhile_cons_of_neg]
  simp [h.notSpace, hline]

lemma dropGap_append {gap : List Char} (h : ∀ c ∈ gap, c = ' ' ∨ c = '\n') (rest : List Char) :
    dropGap (gap ++ rest) = dropGap rest :=
  List.dropWhile_append_of_pos fun c hc => by simpa using h c hc

lemma dropGap_breakChars (depth : Nat) (rest : List Char) :
    dropGap (breakChars depth ++ rest) = dropGap rest := by
  apply dropGap_append
  intro c hc
  rcases List.mem_cons.1 hc with rfl | hc
  · exact .inr rfl
  · exact .inl (List.eq_of_mem_replicate hc)

lemma dropGap_dropGap (cs : List Char) : dropGap (dropGap cs) = dropGap cs :=
  List.dropWhile_idempotent _ cs

/-- The gap before a token is all that is skipped. -/
lemma drop_gapLength {cs : List Char} (h : ∀ c ∈ (dropGap cs).head?, BeginsToken c) :
    cs.drop (Scan.gapLength false cs) = dropGap cs := by
  induction cs with
  | nil => rfl
  | cons c cs ih =>
    by_cases hgap : c = ' ' ∨ c = '\n'
    · have hdrop : dropGap ([c] ++ cs) = dropGap cs :=
        dropGap_append (List.forall_mem_singleton.2 hgap) cs
      rw [List.singleton_append] at hdrop
      have hlength : Scan.gapLength false (c :: cs) = Scan.gapLength false cs + 1 := by
        rcases hgap with rfl | rfl <;> rfl
      rw [hdrop] at h ⊢
      rw [hlength, List.drop_succ_cons, ih h]
    · rw [not_or] at hgap
      have hdrop : dropGap (c :: cs) = c :: cs := by
        rw [dropGap, List.dropWhile_cons_of_neg]
        simp [hgap]
      rw [hdrop] at h ⊢
      have hc : BeginsToken c := h c rfl
      have hlength : Scan.gapLength false (c :: cs) = 0 := by
        simp [Scan.gapLength, hc.notBreak, hc.notComment, hc.notSpace]
      rw [hlength, List.drop_zero]

namespace Scan

variable {s s' : Scan} {flow fuel : Nat} {named : Bool} {tokens : List Token} {c : Char}
  {rest : List Char}

/-- A place outside all block collections where no name has to stand. -/
structure IsFree (s : Scan) : Prop where
  indents : s.indents = []
  optional : ∀ k ∈ s.keys, k.2.required = false

lemma IsFree.forgetKey (h : s.IsFree) :
    s.forgetKey = .ok { s with keys := s.keys.filter fun k => k.1 ≠ s.flow } := by
  rw [Scan.forgetKey, if_neg]
  rw [List.any_eq_true]
  rintro ⟨k, hk, hrequired⟩
  simp [h.optional k hk] at hrequired

lemma IsFree.forgetStale (h : s.IsFree) :
    s.forgetStale = .ok { s with keys := s.keys.filter fun k => !s.isStale k.2 } := by
  rw [Scan.forgetStale, if_neg]
  rw [List.any_eq_true]
  rintro ⟨k, hk, hrequired⟩
  simp [h.optional k hk] at hrequired

lemma IsFree.unwind (h : s.IsFree) (column : Nat) : s.unwind column = s := by
  obtain ⟨cursor, flow, indents, allowsKey, keys, tokens⟩ := s
  obtain rfl : indents = [] := h.indents
  rw [Scan.unwind]
  split_ifs <;> rfl

lemma IsFree.unwindAll (h : s.IsFree) : s.unwindAll = s := by
  obtain ⟨cursor, flow, indents, allowsKey, keys, tokens⟩ := s
  obtain rfl : indents = [] := h.indents
  rw [Scan.unwindAll]
  split_ifs <;> rfl

/-- A name may begin here without having to. -/
lemma IsFree.exists_markKey (h : s.IsFree) :
    ∃ keys, s.markKey = .ok { s with keys := keys } ∧ (∀ k ∈ keys, k.2.required = false) ∧
      (s.allowsKey = true → ∃ others,
        keys = (s.flow, ⟨s.tokens.length, false, s.cursor.place⟩) :: others) := by
  rw [markKey]
  split_ifs with hallows
  · have hrequired : (decide (s.flow = 0) && decide (s.indents.head? = some s.column)) = false := by
      simp [h.indents]
    refine ⟨_, by rw [h.forgetKey, hrequired]; rfl, ?_, fun _ => ⟨_, rfl⟩⟩
    intro k hk
    rcases List.mem_cons.1 hk with rfl | hk
    · rfl
    · exact h.optional k (List.mem_of_mem_filter hk)
  · exact ⟨s.keys, rfl, h.optional, fun htrue => absurd htrue hallows⟩

/-- The scan at its next token. -/
def atToken (s : Scan) : Scan :=
  { s.skipGap with keys := s.skipGap.keys.filter fun k => !s.skipGap.isStale k.2 }

lemma flow_atToken (s : Scan) : s.atToken.flow = s.flow := by
  rw [atToken, skipGap]
  split_ifs <;> rfl

lemma indents_atToken (s : Scan) : s.atToken.indents = s.indents := by
  rw [atToken, skipGap]
  split_ifs <;> rfl

lemma tokens_atToken (s : Scan) : s.atToken.tokens = s.tokens := by
  rw [atToken, skipGap]
  split_ifs <;> rfl

lemma cursor_atToken (s : Scan) :
    s.atToken.cursor = s.cursor.skip (gapLength false s.cursor.rest) := by
  rw [atToken, skipGap]
  split_ifs <;> rfl

lemma allowsKey_atToken (h : s.allowsKey = true) : s.atToken.allowsKey = true := by
  rw [atToken, skipGap]
  split_ifs
  · rfl
  · exact h

lemma keys_atToken (s : Scan) :
    s.atToken.keys = s.keys.filter fun k => !s.atToken.isStale k.2 := by
  rw [atToken, skipGap]
  split_ifs <;> rfl

lemma IsFree.atToken (h : s.IsFree) : s.atToken.IsFree := by
  refine ⟨s.indents_atToken.trans h.indents, fun k hk => ?_⟩
  rw [keys_atToken] at hk
  exact h.optional k (List.mem_of_mem_filter hk)

lemma IsFree.skipGap (h : s.IsFree) : s.skipGap.IsFree := by
  rw [Scan.skipGap]
  split_ifs <;> exact ⟨h.indents, h.optional⟩

/-- A token is made, and the scan goes on behind it. -/
lemma IsFree.run_of_next (h : s.IsFree) (hrest : s.atToken.cursor.rest = c :: rest)
    (hnext : s.atToken.next c rest = .ok s') (fuel : Nat) :
    run none (fuel + 1) s = run none fuel s' := by
  have hstale : s.skipGap.forgetStale = .ok s.atToken := h.skipGap.forgetStale
  have hunwind := h.atToken.unwind s.atToken.column
  rw [run]
  simp only [ite_self, hstale, hunwind, hrest, hnext]

/-- The scan ends with all tokens. -/
lemma IsFree.run_of_end (h : s.IsFree) (hrest : s.atToken.cursor.rest = []) (fuel : Nat) :
    run none (fuel + 1) s = s.tokens.reverse := by
  have hstale : s.skipGap.forgetStale = .ok s.atToken := h.skipGap.forgetStale
  have hunwind := h.atToken.unwind s.atToken.column
  rw [run]
  simp only [ite_self, hstale, hunwind, hrest, h.atToken.unwindAll, h.atToken.forgetKey,
    tokens_atToken]

/-- From one place the scan goes on to another, if it may take long enough. -/
def Leads (s s' : Scan) : Prop :=
  ∀ fuel, s.cursor.rest.length < fuel →
    ∃ fuel', s'.cursor.rest.length < fuel' ∧ run none fuel s = run none fuel' s'

/-- A place with so many open collections and tokens before it, with a text behind its gap. -/
structure IsAt (s : Scan) (flow : Nat) (named : Bool) (tokens : List Token) (rest : List Char) :
    Prop extends s.IsFree where
  flow_eq : s.flow = flow
  /-- If a name has to be found here, it may begin here. -/
  allowsKey : named = true → s.allowsKey = true
  tokens_eq : s.tokens = tokens
  rest_eq : dropGap s.cursor.rest = dropGap rest

/-- The scan goes on to such a place. -/
def Reaches (s : Scan) (flow : Nat) (named : Bool) (tokens : List Token) (rest : List Char) :
    Prop :=
  ∃ s', s.Leads s' ∧ s'.IsAt flow named tokens rest

lemma Leads.trans {s'' : Scan} (h : s.Leads s') (h' : s'.Leads s'') : s.Leads s'' := by
  intro fuel hfuel
  obtain ⟨fuel', hfuel', hrun⟩ := h fuel hfuel
  obtain ⟨fuel'', hfuel'', hrun'⟩ := h' fuel' hfuel'
  exact ⟨fuel'', hfuel'', hrun.trans hrun'⟩

lemma IsAt.reaches (h : s.IsAt flow named tokens rest) : s.Reaches flow named tokens rest :=
  ⟨s, fun fuel hfuel => ⟨fuel, hfuel, rfl⟩, h⟩

/-- It does not matter how large a gap is. -/
lemma Reaches.congr {rest' : List Char} (h : s.Reaches flow named tokens rest)
    (hrest : dropGap rest = dropGap rest') : s.Reaches flow named tokens rest' := by
  obtain ⟨s', hleads, hat⟩ := h
  exact ⟨s', hleads, hat.toIsFree, hat.flow_eq, hat.allowsKey, hat.tokens_eq,
    hat.rest_eq.trans hrest⟩

lemma Reaches.unnamed (h : s.Reaches flow named tokens rest) :
    s.Reaches flow false tokens rest := by
  obtain ⟨s', hleads, hat⟩ := h
  exact ⟨s', hleads, hat.toIsFree, hat.flow_eq, fun hfalse => absurd hfalse Bool.false_ne_true,
    hat.tokens_eq, hat.rest_eq⟩

/-- At a place before a token the token comes next. -/
lemma IsAt.atToken (h : s.IsAt flow named tokens (c :: rest)) (hc : BeginsToken c) :
    s.atToken.IsAt flow named tokens (c :: rest) ∧ s.atToken.cursor.rest = c :: rest := by
  have hdrop := h.rest_eq
  rw [hc.dropGap_cons] at hdrop
  have hcursor : s.atToken.cursor.rest = c :: rest := by
    rw [cursor_atToken, Cursor.skip, drop_gapLength, hdrop]
    rw [hdrop]
    intro x hx
    obtain rfl : c = x := Option.some.inj hx
    exact hc
  refine ⟨⟨h.toIsFree.atToken, ?_, fun hnamed => allowsKey_atToken (h.allowsKey hnamed), ?_, ?_⟩,
    hcursor⟩
  · rw [flow_atToken, h.flow_eq]
  · rw [tokens_atToken, h.tokens_eq]
  · rw [hcursor]

/-- A token is made, and the scan goes on behind it. -/
lemma IsAt.leads (h : s.IsAt flow named tokens (c :: rest)) (hc : BeginsToken c)
    (hnext : s.atToken.next c rest = .ok s') (hless : s'.cursor.rest.length ≤ rest.length) :
    s.Leads s' := by
  intro fuel hfuel
  have hrest := (h.atToken hc).2
  have hlength : (c :: rest).length ≤ s.cursor.rest.length := by
    rw [← hrest, cursor_atToken, Cursor.skip, List.length_drop]
    exact Nat.sub_le _ _
  rw [List.length_cons] at hlength
  obtain ⟨fuel, rfl⟩ : ∃ f, fuel = f + 1 := ⟨fuel - 1, by omega⟩
  exact ⟨fuel, by omega, h.toIsFree.run_of_next hrest hnext fuel⟩

/-- What the next token makes of every such place is reached. -/
lemma Reaches.next {flow' : Nat} {named' : Bool} {tokens' : List Token} {rest' : List Char}
    (h : s.Reaches flow named tokens (c :: rest)) (hc : BeginsToken c)
    (hnext : ∀ s' : Scan, s'.IsAt flow named tokens (c :: rest) → s'.cursor.rest = c :: rest →
      ∃ after, s'.next c rest = .ok after ∧ after.cursor.rest.length ≤ rest.length ∧
        after.IsAt flow' named' tokens' rest') :
    s.Reaches flow' named' tokens' rest' := by
  obtain ⟨s', hleads, hat⟩ := h
  obtain ⟨hhere, hrest⟩ := hat.atToken hc
  obtain ⟨after, hafter, hless, hat'⟩ := hnext s'.atToken hhere hrest
  exact ⟨after, hleads.trans (hat.leads hc hafter hless), hat'⟩

/-! ### Brackets and commas -/

lemma Reaches.openFlow (h : s.Reaches flow named tokens (c :: rest)) (hc : BeginsToken c)
    {t : Token} (hnext : ∀ s' : Scan, s'.next c rest = s'.openFlow t) :
    s.Reaches (flow + 1) true (t :: tokens) rest := by
  refine h.next hc fun s' hat hrest => ?_
  obtain ⟨keys, hmark, hoptional, -⟩ := hat.toIsFree.exists_markKey
  refine ⟨_, by rw [hnext, Scan.openFlow, hmark]; rfl, ?_, ?_⟩
  · simp [skip, emit, Cursor.skip, hrest]
  · exact ⟨⟨hat.indents, hoptional⟩, by simp [skip, emit, hat.flow_eq], fun _ => rfl,
      by simp [skip, emit, hat.tokens_eq], by simp [skip, emit, Cursor.skip, hrest]⟩

lemma Reaches.closeFlow (h : s.Reaches (flow + 1) named tokens (c :: rest)) (hc : BeginsToken c)
    {t : Token} (hnext : ∀ s' : Scan, s'.next c rest = s'.closeFlow t) :
    s.Reaches flow false (t :: tokens) rest := by
  refine h.next hc fun s' hat hrest => ?_
  have hflow : s'.flow ≠ 0 := by
    rw [hat.flow_eq]
    exact Nat.succ_ne_zero flow
  refine ⟨_, by rw [hnext, Scan.closeFlow, if_neg hflow, hat.toIsFree.forgetKey]; rfl, ?_, ?_⟩
  · simp [skip, emit, Cursor.skip, hrest]
  · exact ⟨⟨hat.indents, fun k hk => hat.optional k (List.mem_of_mem_filter hk)⟩,
      by simp [skip, emit, hat.flow_eq], fun hfalse => absurd hfalse Bool.false_ne_true,
      by simp [skip, emit, hat.tokens_eq], by simp [skip, emit, Cursor.skip, hrest]⟩

lemma Reaches.comma (h : s.Reaches flow named tokens (',' :: rest)) :
    s.Reaches flow true (.flowEntry :: tokens) rest := by
  refine h.next ⟨by decide, by decide, by decide⟩ fun s' hat hrest => ?_
  have hnext : s'.next ',' rest = s'.flowEntry := rfl
  refine ⟨_, by rw [hnext, Scan.flowEntry, hat.toIsFree.forgetKey]; rfl, ?_, ?_⟩
  · simp [skip, emit, Cursor.skip, hrest]
  · exact ⟨⟨hat.indents, fun k hk => hat.optional k (List.mem_of_mem_filter hk)⟩,
      by simp [skip, emit, hat.flow_eq], fun _ => rfl,
      by simp [skip, emit, hat.tokens_eq], by simp [skip, emit, Cursor.skip, hrest]⟩

lemma Reaches.openList (h : s.Reaches flow named tokens ('[' :: rest)) :
    s.Reaches (flow + 1) true (.flowSequence :: tokens) rest :=
  h.openFlow ⟨by decide, by decide, by decide⟩ fun _ => rfl

lemma Reaches.openObject (h : s.Reaches flow named tokens ('\x7b' :: rest)) :
    s.Reaches (flow + 1) true (.flowMapping :: tokens) rest :=
  h.openFlow ⟨by decide, by decide, by decide⟩ fun _ => rfl

lemma Reaches.closeList (h : s.Reaches (flow + 1) named tokens (']' :: rest)) :
    s.Reaches flow false (.flowSequenceEnd :: tokens) rest :=
  h.closeFlow ⟨by decide, by decide, by decide⟩ fun _ => rfl

lemma Reaches.closeObject (h : s.Reaches (flow + 1) named tokens ('\x7d' :: rest)) :
    s.Reaches flow false (.flowMappingEnd :: tokens) rest :=
  h.closeFlow ⟨by decide, by decide, by decide⟩ fun _ => rfl

/-! ### Strings and names -/

/-- The scan behind a string, with some marks. -/
def afterText (s : Scan) (x : String) (rest : List Char) (keys : List (Nat × KeyMark)) : Scan :=
  { s with
    cursor := ⟨rest, (quotedChars x).foldl Place.after s.cursor.place⟩
    allowsKey := false
    keys := keys
    tokens := .scalar x .quoted :: s.tokens }

lemma IsAt.afterText {rest' : List Char} (h : s.IsAt flow named tokens rest') (x : String)
    {keys : List (Nat × KeyMark)} (hkeys : ∀ k ∈ keys, k.2.required = false) :
    (s.afterText x rest keys).IsAt flow false (.scalar x .quoted :: tokens) rest :=
  ⟨⟨h.indents, hkeys⟩, h.flow_eq, fun hfalse => absurd hfalse Bool.false_ne_true,
    congrArg _ h.tokens_eq, rfl⟩

/-- A string is made a token, and its place is remembered where a name may begin. -/
lemma IsFree.exists_quotedScalar {x : String} (h : s.IsFree) (hwhole : hasHalf x = false)
    (hsafe : isSafeText x = true) (hrest : s.cursor.rest = quotedChars x ++ rest) :
    ∃ keys, s.quotedScalar true = .ok (s.afterText x rest keys) ∧
      (∀ k ∈ keys, k.2.required = false) ∧ (s.allowsKey = true → ∃ others,
        keys = (s.flow, ⟨s.tokens.length, false, s.cursor.place⟩) :: others) := by
  obtain ⟨keys, hmark, hoptional, hkeys⟩ := h.exists_markKey
  obtain ⟨body, hbody, hscan⟩ := scanQuoted_quotedChars hwhole hsafe rest
  refine ⟨keys, ?_, hoptional, hkeys⟩
  have hlength : body.length ≤ s.cursor.rest.length := by
    rw [hrest, hbody, List.length_cons]
    exact Nat.le_succ _
  have hdrop : s.cursor.rest.drop 1 = body := by
    rw [hrest, hbody, List.drop_succ_cons, List.drop_zero]
  rw [Scan.quotedScalar, hmark]
  simp only [bind, Except.bind, hdrop, hscan _ hlength, Cursor.skipTo_of_append hrest]
  rfl

lemma Reaches.text {x : String} (h : s.Reaches flow named tokens (quotedChars x ++ rest))
    (hwhole : hasHalf x = false) (hsafe : isSafeText x = true) :
    s.Reaches flow false (.scalar x .quoted :: tokens) rest := by
  obtain ⟨body, hbody, -⟩ := scanQuoted_quotedChars hwhole hsafe rest
  rw [hbody] at h
  refine h.next ⟨by decide, by decide, by decide⟩ fun s' hat hrest => ?_
  rw [← hbody] at hrest
  obtain ⟨keys, hquoted, hoptional, -⟩ := hat.toIsFree.exists_quotedScalar hwhole hsafe hrest
  refine ⟨_, hquoted, ?_, hat.afterText x hoptional⟩
  have hlength := congrArg List.length hbody
  rw [List.length_append, quotedChars, List.length_cons, List.length_cons] at hlength
  change rest.length ≤ body.length
  omega

lemma openBlock_of_flow (hflow : s.flow ≠ 0) (column index : Nat) (t : Token) :
    s.openBlock column index t = s := by
  rw [openBlock, if_pos (by simp [hflow])]

/-- A colon announces a value, and that its name has begun at a mark. -/
lemma next_colon {k : KeyMark} (hflow : s.flow ≠ 0) (hlookup : s.keys.lookup s.flow = some k) :
    s.next ':' rest = .ok { s with
      cursor := s.cursor.skip 1
      keys := s.keys.filter fun k => k.1 ≠ s.flow
      allowsKey := false
      tokens := .value :: (s.insert k.index .key).tokens } := by
  have hnext : s.next ':' rest = s.valueMark := by simp [Scan.next, hflow]
  rw [hnext, valueMark, hlookup]
  dsimp only
  rw [openBlock_of_flow]
  · rfl
  · exact hflow

/-- A colon at the very cursor ends the name whose mark is not too far away. -/
lemma IsAt.valueMark {k : KeyMark} {others : List (Nat × KeyMark)}
    (h : s.IsAt (flow + 1) named tokens (':' :: rest)) (hrest : s.cursor.rest = ':' :: rest)
    (hkeys : s.keys = (flow + 1, k) :: others) (hstale : s.isStale k = false) :
    s.Reaches (flow + 1) false (.value :: (s.insert k.index .key).tokens) rest := by
  have hcolon : BeginsToken ':' := ⟨by decide, by decide, by decide⟩
  obtain ⟨hat, hrest'⟩ := h.atToken hcolon
  have hcursor : s.atToken.cursor = s.cursor := by
    have hgap : gapLength false (':' :: rest) = 0 := rfl
    rw [cursor_atToken, hrest, hgap, Cursor.skip, List.drop_zero, List.take_zero, List.foldl_nil]
  have hlookup : s.atToken.keys.lookup s.atToken.flow = some k := by
    have hfresh : s.atToken.isStale k = false := by rw [isStale, hcursor, ← isStale, hstale]
    rw [keys_atToken, hkeys, List.filter_cons_of_pos (by simp [hfresh]), flow_atToken, h.flow_eq,
      List.lookup_cons_self]
  have hinsert : (s.atToken.insert k.index .key).tokens = (s.insert k.index .key).tokens := by
    rw [insert, insert, tokens_atToken]
  have hflow : s.atToken.flow ≠ 0 := by
    rw [hat.flow_eq]
    exact Nat.succ_ne_zero flow
  have hskip : (s.atToken.cursor.skip 1).rest = rest := by
    rw [Cursor.skip, hrest', List.drop_succ_cons, List.drop_zero]
  refine ⟨_, h.leads hcolon (next_colon hflow hlookup)
    (congrArg List.length hskip).le, ⟨hat.indents, fun k hk =>
    hat.optional k (List.mem_of_mem_filter hk)⟩, hat.flow_eq,
    fun hfalse => absurd hfalse Bool.false_ne_true, ?_, ?_⟩
  · rw [hinsert]
  · rw [hskip]

/-- The colon after a name makes a name of what it follows. -/
lemma Reaches.name {x : String}
    (h : s.Reaches (flow + 1) true tokens (quotedChars x ++ ':' :: rest))
    (hwhole : hasHalf x = false) (hsafe : isSafeName x = true) :
    s.Reaches (flow + 1) false (.value :: .scalar x .quoted :: .key :: tokens) rest := by
  rw [isSafeName, Bool.and_eq_true, decide_eq_true_iff] at hsafe
  obtain ⟨hsafe, hshort⟩ := hsafe
  obtain ⟨s', hleads, hat⟩ := h
  obtain ⟨body, hbody, -⟩ := scanQuoted_quotedChars hwhole hsafe (':' :: rest)
  have hquote : BeginsToken '"' := ⟨by decide, by decide, by decide⟩
  have hless : (':' :: rest).length ≤ body.length := by
    have hlength := congrArg List.length hbody
    rw [List.length_append, List.length_cons, List.length_cons, quotedChars, List.length_cons]
      at hlength
    rw [List.length_cons]
    omega
  rw [hbody] at hat
  obtain ⟨hhere, hrest⟩ := hat.atToken hquote
  rw [← hbody] at hrest
  obtain ⟨keys, hquoted, hoptional, hkeys⟩ :=
    hhere.toIsFree.exists_quotedScalar hwhole hsafe hrest
  obtain ⟨others, hkeys⟩ := hkeys (hhere.allowsKey rfl)
  have hfresh : (s'.atToken.afterText x (':' :: rest) keys).isStale
      ⟨s'.atToken.tokens.length, false, s'.atToken.cursor.place⟩ = false := by
    have hinline : ∀ c ∈ quotedChars x, isBreak c = false := fun c hc =>
      (isInline_quotedChars hsafe c hc).notBreak
    simp only [isStale, afterText, line_foldl_after hinline, index_foldl_after]
    simpa using hshort
  obtain ⟨after, hleads', hafter⟩ :=
    (hhere.afterText x hoptional).valueMark rfl (hkeys.trans (by rw [hhere.flow_eq])) hfresh
  refine ⟨after, hleads.trans ((hat.leads hquote hquoted hless).trans hleads'), ?_⟩
  have htokens : ((s'.atToken.afterText x (':' :: rest) keys).insert s'.atToken.tokens.length
      .key).tokens = .scalar x .quoted :: .key :: tokens := by
    simp [insert, afterText, hhere.tokens_eq]
  rw [htokens] at hafter
  exact hafter

end Scan

end Workflow.Yaml
