import Workflow.Proofs.Graph.Members
import Workflow.Proofs.Json.Text

/-!
# Values are read as they were written

The text of a saved file is read as the value it was written from, unless the value holds something
that such a text cannot: a non-finite double, an integer of too many digits, half a surrogate pair,
two members of one name, or collections that are nested too deep.
-/

namespace Workflow

/-- A value that a file can hold, its collections being nested no deeper than there is room. -/
inductive Value.Fits : Nat → Value → Prop where
  | null (room : Nat) : Fits room .null
  | bool (room : Nat) (b : Bool) : Fits room (.bool b)
  | int (room : Nat) {n : Int} (h : Double.digitCount n.natAbs ≤ Literal.maxIntegerDigits) :
      Fits room (.int n)
  | float (room : Nat) {x : Float} (h : Double.isFinite x = true) : Fits room (.float x)
  | str (room : Nat) {s : String} (h : Text.hasHalf s = false) : Fits room (.str s)
  | noItems (room : Nat) : Fits room (.list [])
  | noMembers (room : Nat) : Fits room (.object [])
  | list {room : Nat} {items : List Value} (h : ∀ v ∈ items, Fits room v) :
      Fits (room + 1) (.list items)
  | object {room : Nat} {members : List (String × Value)}
      (hnames : (members.map Prod.fst).Nodup) (hbroken : ∀ m ∈ members, Text.hasHalf m.1 = false)
      (h : ∀ m ∈ members, Fits room m.2) : Fits (room + 1) (.object members)

/-! ### Deciding what fits -/

namespace Value

mutual

/-- Whether a file can hold a value. -/
def fits (room : Nat) : Value → Bool
  | null | bool _ => true
  | int n => Double.digitCount n.natAbs ≤ Literal.maxIntegerDigits
  | float x => Double.isFinite x
  | str s => !Text.hasHalf s
  | list items => items.isEmpty || (room ≠ 0 && fitsItems (room - 1) items)
  | object members =>
    members.isEmpty || (room ≠ 0 && (members.map Prod.fst).Nodup && fitsMembers (room - 1) members)

/-- Whether a file can hold the items of a list. -/
def fitsItems (room : Nat) : List Value → Bool
  | [] => true
  | v :: vs => fits room v && fitsItems room vs

/-- Whether a file can hold the members of an object, whatever their names have in common. -/
def fitsMembers (room : Nat) : List (String × Value) → Bool
  | [] => true
  | (name, v) :: rest => !Text.hasHalf name && fits room v && fitsMembers room rest

end

mutual

lemma fits_iff (room : Nat) : ∀ v : Value, v.fits room = true ↔ v.Fits room
  | null => iff_of_true rfl (.null room)
  | bool b => iff_of_true rfl (.bool room b)
  | int n => by
    rw [fits, decide_eq_true_iff]
    exact ⟨.int room, fun h => by cases h; assumption⟩
  | float x => by
    rw [fits]
    exact ⟨.float room, fun h => by cases h; assumption⟩
  | str s => by
    rw [fits, Bool.not_eq_true']
    exact ⟨.str room, fun h => by cases h; assumption⟩
  | list [] => iff_of_true rfl (.noItems room)
  | list (v :: vs) => by
    cases room with
    | zero => exact iff_of_false (by simp [fits]) nofun
    | succ room =>
      have hitems := fitsItems_iff room (v :: vs)
      simp only [fits, List.isEmpty_cons, Bool.false_or, Nat.add_sub_cancel, Nat.succ_ne_zero,
        ne_eq, not_false_iff, decide_true, Bool.true_and, hitems]
      exact ⟨.list, fun h => by cases h; assumption⟩
  | object [] => iff_of_true rfl (.noMembers room)
  | object (m :: ms) => by
    cases room with
    | zero => exact iff_of_false (by simp [fits]) nofun
    | succ room =>
      have hmembers := fitsMembers_iff room (m :: ms)
      simp only [fits, List.isEmpty_cons, Bool.false_or, Nat.add_sub_cancel, Nat.succ_ne_zero,
        ne_eq, not_false_iff, decide_true, Bool.true_and, Bool.and_eq_true, decide_eq_true_iff,
        hmembers]
      constructor
      · rintro ⟨hnames, h⟩
        exact .object hnames (fun m hm => (h m hm).1) fun m hm => (h m hm).2
      · intro h
        cases h with
        | object hnames hbroken h => exact ⟨hnames, fun m hm => ⟨hbroken m hm, h m hm⟩⟩

lemma fitsItems_iff (room : Nat) : ∀ vs : List Value,
    fitsItems room vs = true ↔ ∀ v ∈ vs, v.Fits room
  | [] => by simp [fitsItems]
  | v :: vs => by
    rw [fitsItems, Bool.and_eq_true, fits_iff room v, fitsItems_iff room vs, List.forall_mem_cons]

lemma fitsMembers_iff (room : Nat) : ∀ ms : List (String × Value),
    fitsMembers room ms = true ↔ ∀ m ∈ ms, Text.hasHalf m.1 = false ∧ m.2.Fits room
  | [] => by simp [fitsMembers]
  | (name, v) :: ms => by
    rw [fitsMembers, Bool.and_eq_true, Bool.and_eq_true, Bool.not_eq_true', fits_iff room v,
      fitsMembers_iff room ms, List.forall_mem_cons]

end

instance (room : Nat) (v : Value) : Decidable (v.Fits room) :=
  decidable_of_iff (v.fits room = true) (fits_iff room v)

end Value

namespace Json

/-! ### Joined texts -/

lemma toList_intercalate_cons (sep first : String) (parts : List String) :
    (sep.intercalate (first :: parts)).toList
      = first.toList ++ parts.flatMap fun part => sep.toList ++ part.toList := by
  induction parts generalizing first with
  | nil => simp
  | cons part parts ih =>
    rw [String.intercalate_cons_cons, String.toList_append, String.toList_append, ih]
    simp

/-- The parts of a collection between its brackets. -/
lemma toList_enclose (S : Style) (depth : Nat) (first last part : String) (parts : List String) :
    (S.enclose depth first last (part :: parts)).toList
      = first.toList ++ (S.lineBreak (depth + 1)).toList ++ part.toList
        ++ parts.flatMap (fun part => S.comma.toList ++ (S.lineBreak (depth + 1)).toList
          ++ part.toList)
        ++ (S.lineBreak depth).toList ++ last.toList := by
  rw [Style.enclose, if_neg (by simp)]
  simp only [String.toList_append, toList_intercalate_cons, List.append_assoc]

/-! ### Blanks -/

section Blanks

variable {D : Dialect} {cs blanks rest : List Char} {fuel room depth : Nat}

lemma skipBlanks_append (h : ∀ c ∈ blanks, isBlank c = true) :
    skipBlanks (blanks ++ cs) = skipBlanks cs :=
  List.dropWhile_append_of_pos h

lemma value_congr {cs' : List Char} (h : skipBlanks cs = skipBlanks cs') :
    value D fuel room cs = value D fuel room cs' := by
  cases fuel with
  | zero => rfl
  | succ fuel => rw [value, value, h]

lemma isBlank_of_mem_lineBreak {c : Char} (h : c ∈ (Style.file.lineBreak depth).toList) :
    isBlank c = true := by
  rw [Style.lineBreak] at h
  change c ∈ (String.ofList ('\n' :: List.replicate (2 * depth) ' ')).toList at h
  rw [String.toList_ofList] at h
  rcases List.mem_cons.1 h with rfl | h
  · rfl
  · rw [List.eq_of_mem_replicate h]
    rfl

lemma value_lineBreak :
    value D fuel room ((Style.file.lineBreak depth).toList ++ cs) = value D fuel room cs :=
  value_congr (skipBlanks_append fun _ => isBlank_of_mem_lineBreak)

/-- A value does not begin with a closing bracket. -/
lemma skipBlanks_ne_of_value {found : Value × List Char} (h : value D fuel room cs = .ok found) :
    (∀ after, skipBlanks cs ≠ ']' :: after) ∧ ∀ after, skipBlanks cs ≠ '\x7d' :: after := by
  cases fuel with
  | zero => cases h
  | succ fuel =>
    constructor
    all_goals
      intro after hclosing
      rw [value, hclosing] at h
      cases h

lemma endsNumber_cons {c : Char} (h : c = ',' ∨ c = '\n') (cs : List Char) :
    EndsNumber (c :: cs) := by
  refine ⟨endsDigits_cons ?_ cs, ?_, ?_, ?_⟩ <;> rcases h with rfl | rfl <;> simp

lemma endsNumber_lineBreak (depth : Nat) (cs : List Char) :
    EndsNumber ((Style.file.lineBreak depth).toList ++ cs) := by
  have htext : (Style.file.lineBreak depth).toList = '\n' :: List.replicate (2 * depth) ' ' :=
    String.toList_ofList
  rw [htext]
  exact endsNumber_cons (.inr rfl) _

end Blanks

/-! ### Collections -/

/-- A value is read from its text at any place of a file, given fuel for its characters. -/
def IsRead (room depth : Nat) (v : Value) : Prop :=
  ∀ (fuel : Nat) (rest : List Char), EndsNumber rest →
    2 * (writeAt .file depth v).length ≤ fuel →
      value .file fuel room ((writeAt .file depth v).toList ++ rest) = .ok (v, rest)

section Lists

variable {room depth fuel : Nat} {rest : List Char} {v : Value} {vs : List Value}

lemma items_lineBreak {before : List Value} {cs : List Char} :
    items .file fuel room before ((Style.file.lineBreak depth).toList ++ cs)
      = items .file fuel room before cs := by
  cases fuel with
  | zero => rfl
  | succ fuel => rw [items, items, value_lineBreak]

/-- The items after the first, each on a line of its own. -/
def otherItems (depth : Nat) (vs : List Value) : List Char :=
  vs.flatMap fun v => ',' :: ((Style.file.lineBreak depth).toList ++ (writeAt .file depth v).toList)

lemma otherItems_cons (depth : Nat) (v : Value) (vs : List Value) :
    otherItems depth (v :: vs) = ',' :: ((Style.file.lineBreak depth).toList
      ++ ((writeAt .file depth v).toList ++ otherItems depth vs)) := by
  simp [otherItems]

/-- What follows an item does not go on with a number. -/
lemma endsNumber_otherItems (depth : Nat) (vs : List Value) (closing : Nat) (cs : List Char) :
    EndsNumber (otherItems depth vs ++ ((Style.file.lineBreak closing).toList ++ cs)) := by
  cases vs with
  | nil => exact endsNumber_lineBreak closing cs
  | cons v vs =>
    rw [otherItems_cons]
    exact endsNumber_cons (.inl rfl) _

/-- The rest of a list is read item by item. -/
lemma items_written (h : ∀ u ∈ v :: vs, IsRead room depth u) (before : List Value) (closing : Nat)
    (rest : List Char) {fuel : Nat}
    (hfuel : 2 * ((writeAt .file depth v).length + (otherItems depth vs).length) < fuel) :
    items .file fuel room before ((writeAt .file depth v).toList ++ (otherItems depth vs
      ++ ((Style.file.lineBreak closing).toList ++ ']' :: rest)))
      = .ok (.list (before.reverse ++ v :: vs), rest) := by
  induction vs generalizing v before fuel with
  | nil =>
    obtain ⟨fuel, rfl⟩ : ∃ f, fuel = f + 1 := ⟨fuel - 1, by omega⟩
    have hv := h v List.mem_cons_self fuel _
      (endsNumber_otherItems depth [] closing (']' :: rest)) (by omega)
    have hclosing : skipBlanks (otherItems depth [] ++ ((Style.file.lineBreak closing).toList
        ++ ']' :: rest)) = ']' :: rest :=
      skipBlanks_append fun _ => isBlank_of_mem_lineBreak
    rw [items, hv]
    dsimp only
    rw [hclosing, List.reverse_cons]
    rfl
  | cons u us ih =>
    obtain ⟨fuel, rfl⟩ : ∃ f, fuel = f + 1 := ⟨fuel - 1, by omega⟩
    have hv := h v List.mem_cons_self fuel _
      (endsNumber_otherItems depth (u :: us) closing (']' :: rest)) (by omega)
    simp only [otherItems_cons, List.length_cons, List.length_append, String.length_toList] at hfuel
    rw [items, hv, otherItems_cons]
    dsimp only
    rw [List.cons_append]
    change items .file fuel room (v :: before) _ = _
    rw [List.append_assoc, items_lineBreak, List.append_assoc,
      ih (fun w hw => h w (List.mem_cons_of_mem v hw)) (v :: before) (by omega),
      List.reverse_cons, List.append_assoc]
    rfl

end Lists

section Objects

variable {room depth fuel : Nat} {rest : List Char} {m : String × Value}
  {ms before : List (String × Value)}

lemma members_lineBreak {cs : List Char} :
    members .file fuel room before ((Style.file.lineBreak depth).toList ++ cs)
      = members .file fuel room before cs := by
  cases fuel with
  | zero => rfl
  | succ fuel => rw [members, members, skipBlanks_append fun _ => isBlank_of_mem_lineBreak]

/-- A member of an object: its name, a colon and its value. -/
def memberText (depth : Nat) (m : String × Value) : List Char :=
  (writeString false m.1).toList ++ ':' :: ' ' :: (writeAt .file depth m.2).toList

/-- The members after the first, each on a line of its own. -/
def otherMembers (depth : Nat) (ms : List (String × Value)) : List Char :=
  ms.flatMap fun m => ',' :: ((Style.file.lineBreak depth).toList ++ memberText depth m)

lemma otherMembers_cons (depth : Nat) (m : String × Value) (ms : List (String × Value)) :
    otherMembers depth (m :: ms) = ',' :: ((Style.file.lineBreak depth).toList
      ++ (memberText depth m ++ otherMembers depth ms)) := by
  simp [otherMembers]

/-- What follows a member does not go on with a number. -/
lemma endsNumber_otherMembers (depth : Nat) (ms : List (String × Value)) (closing : Nat)
    (cs : List Char) :
    EndsNumber (otherMembers depth ms ++ ((Style.file.lineBreak closing).toList ++ cs)) := by
  cases ms with
  | nil => exact endsNumber_lineBreak closing cs
  | cons m ms =>
    rw [otherMembers_cons]
    exact endsNumber_cons (.inl rfl) _

/-- What is found of a member: its name behind the opening quote, and its value behind the colon. -/
lemma member_written (hname : Text.hasHalf m.1 = false) (h : IsRead room depth m.2)
    (hrest : EndsNumber rest) (hfuel : 2 * (memberText depth m).length ≤ fuel) :
    ∃ afterQuote afterColon, skipBlanks (memberText depth m ++ rest) = '"' :: afterQuote ∧
      stringBody .file fuel [] afterQuote = some (m.1, ':' :: afterColon) ∧
      value .file fuel room afterColon = .ok (m.2, rest) := by
  simp only [memberText, List.length_append, List.length_cons, String.length_toList] at hfuel
  obtain ⟨body, htext, hbody⟩ := stringBody_writeString .file hname
    (':' :: ' ' :: ((writeAt .file depth m.2).toList ++ rest)) fuel (by omega)
  refine ⟨_, _, ?_, hbody, ?_⟩
  · rw [memberText, htext]
    simp [skipBlanks, isBlank]
  · have hblank : value .file fuel room (' ' :: ((writeAt .file depth m.2).toList ++ rest))
        = value .file fuel room ((writeAt .file depth m.2).toList ++ rest) := value_congr rfl
    rw [hblank]
    exact h fuel rest hrest (by omega)

lemma skipBlanks_colon (cs : List Char) : skipBlanks (':' :: cs) = ':' :: cs :=
  rfl

lemma members_next (hname : Text.hasHalf m.1 = false) (h : IsRead room depth m.2)
    (hfuel : 2 * (memberText depth m).length ≤ fuel) :
    members .file (fuel + 1) room before (memberText depth m ++ ',' :: rest)
      = members .file fuel room (Value.setMember before m.1 m.2) rest := by
  obtain ⟨afterQuote, afterColon, hstart, hbody, hvalue⟩ :=
    member_written hname h (endsNumber_cons (.inl rfl) rest) hfuel
  have hcomma : skipBlanks (',' :: rest) = ',' :: rest := rfl
  simp only [members, hstart, hbody, skipBlanks_colon, hvalue, hcomma]

lemma members_last (hname : Text.hasHalf m.1 = false) (h : IsRead room depth m.2) (closing : Nat)
    (hfuel : 2 * (memberText depth m).length ≤ fuel) :
    members .file (fuel + 1) room before (memberText depth m
      ++ ((Style.file.lineBreak closing).toList ++ '\x7d' :: rest))
      = .ok (.object (Value.setMember before m.1 m.2), rest) := by
  obtain ⟨afterQuote, afterColon, hstart, hbody, hvalue⟩ :=
    member_written hname h (endsNumber_lineBreak closing ('\x7d' :: rest)) hfuel
  have hbrace : skipBlanks ((Style.file.lineBreak closing).toList ++ '\x7d' :: rest)
      = '\x7d' :: rest :=
    skipBlanks_append fun _ => isBlank_of_mem_lineBreak
  simp only [members, hstart, hbody, skipBlanks_colon, hvalue, hbrace]

lemma setMember_of_not_mem {name : String} {v : Value} (h : name ∉ before.map Prod.fst) :
    Value.setMember before name v = before ++ [(name, v)] := by
  induction before with
  | nil => rfl
  | cons m before ih =>
    rw [List.map_cons, List.mem_cons, not_or] at h
    rw [Value.setMember, if_neg (Ne.symm h.1), ih h.2, List.cons_append]

/-- The rest of an object is read member by member. -/
lemma members_written (hread : ∀ k ∈ m :: ms, IsRead room depth k.2)
    (hbroken : ∀ k ∈ m :: ms, Text.hasHalf k.1 = false)
    (hnames : ((before ++ m :: ms).map Prod.fst).Nodup) (closing : Nat)
    (rest : List Char) {fuel : Nat}
    (hfuel : 2 * ((memberText depth m).length + (otherMembers depth ms).length) < fuel) :
    members .file fuel room before (memberText depth m ++ (otherMembers depth ms
      ++ ((Style.file.lineBreak closing).toList ++ '\x7d' :: rest)))
      = .ok (.object (before ++ m :: ms), rest) := by
  induction ms generalizing m before fuel with
  | nil =>
    obtain ⟨fuel, rfl⟩ : ∃ f, fuel = f + 1 := ⟨fuel - 1, by omega⟩
    have hnew : m.1 ∉ before.map Prod.fst := by
      rw [List.map_append, List.nodup_append] at hnames
      exact fun hm => hnames.2.2 _ hm _ List.mem_cons_self rfl
    rw [← setMember_of_not_mem hnew]
    exact members_last (hbroken m List.mem_cons_self) (hread m List.mem_cons_self) closing
      (by omega)
  | cons k ms ih =>
    obtain ⟨fuel, rfl⟩ : ∃ f, fuel = f + 1 := ⟨fuel - 1, by omega⟩
    have hnew : m.1 ∉ before.map Prod.fst := by
      rw [List.map_append, List.nodup_append] at hnames
      exact fun hm => hnames.2.2 _ hm _ List.mem_cons_self rfl
    have hset := setMember_of_not_mem (v := m.2) hnew
    rw [otherMembers_cons, List.cons_append,
      members_next (hbroken m List.mem_cons_self) (hread m List.mem_cons_self) (by omega), hset,
      List.append_assoc, members_lineBreak, List.append_assoc]
    simp only [otherMembers_cons, List.length_cons, List.length_append] at hfuel
    rw [ih (fun w hw => hread w (List.mem_cons_of_mem m hw))
      (fun w hw => hbroken w (List.mem_cons_of_mem m hw)) (by simpa using hnames) (by omega),
      List.append_assoc]
    rfl

end Objects

/-! ### Values -/

section Values

variable {room depth fuel : Nat} {rest cs : List Char} {found : Value × List Char}

/-- Neither a word nor a number begins with a blank, a quote or a bracket. -/
lemma value_of_scalar {D : Dialect} (h : scalar D cs = .ok found) :
    value D (fuel + 1) room cs = .ok found := by
  have hne : ∀ c ∈ [' ', '\t', '\n', '\r', '"', '[', '\x7b'], ∀ after, cs ≠ c :: after := by
    intro c hc after hcs
    subst hcs
    simp only [List.mem_cons, List.not_mem_nil, or_false] at hc
    rcases hc with rfl | rfl | rfl | rfl | rfl | rfl | rfl <;> cases h
  have hskip : skipBlanks cs = cs := by
    cases cs with
    | nil => rfl
    | cons c after =>
      have hc : isBlank c = false := by
        by_contra hblank
        simp only [isBlank, Bool.not_eq_false, Bool.or_eq_true, decide_eq_true_iff] at hblank
        rcases hblank with ((rfl | rfl) | rfl) | rfl
        · exact hne ' ' (by simp) after rfl
        · exact hne '\t' (by simp) after rfl
        · exact hne '\n' (by simp) after rfl
        · exact hne '\r' (by simp) after rfl
      simp [skipBlanks, hc]
  rw [value, hskip]
  split
  · next after => exact absurd rfl (hne '"' (by simp) after)
  · next after => exact absurd rfl (hne '[' (by simp) after)
  · next after => exact absurd rfl (hne '\x7b' (by simp) after)
  · exact h

/-- A word or a number that is found is a value; no text is empty. -/
lemma isRead_of_scalar {v : Value}
    (h : ∀ rest, EndsNumber rest →
      scalar .file ((writeAt .file depth v).toList ++ rest) = .ok (v, rest)) :
    IsRead room depth v := by
  intro fuel rest hrest hfuel
  have hpos : (writeAt .file depth v).length ≠ 0 := by
    intro hzero
    have hnil : (writeAt .file depth v).toList = [] := by
      rw [← List.length_eq_zero_iff, String.length_toList, hzero]
    have hempty := h [] ⟨nofun, nofun, nofun, nofun⟩
    rw [hnil] at hempty
    cases hempty
  obtain ⟨fuel, rfl⟩ : ∃ f, fuel = f + 1 := ⟨fuel - 1, by omega⟩
  exact value_of_scalar (h rest hrest)

lemma isRead_str (room depth : Nat) {s : String} (h : Text.hasHalf s = false) :
    IsRead room depth (.str s) := by
  intro fuel rest hrest hfuel
  change 2 * (writeString false s).length ≤ fuel at hfuel
  change value .file fuel room ((writeString false s).toList ++ rest) = _
  have hpos := congrArg List.length (toList_writeString false s)
  rw [String.length_toList, List.length_cons] at hpos
  obtain ⟨fuel, rfl⟩ : ∃ f, fuel = f + 1 := ⟨fuel - 1, by omega⟩
  obtain ⟨body, htext, hbody⟩ := stringBody_writeString .file h rest fuel (by omega)
  have hquote : skipBlanks ('"' :: (body ++ rest)) = '"' :: (body ++ rest) := rfl
  rw [htext, List.cons_append, value, hquote]
  simp only [hbody]

lemma writeItems_eq (S : Style) (depth : Nat) (vs : List Value) :
    writeItems S depth vs = vs.map (writeAt S depth) := by
  induction vs with
  | nil => rfl
  | cons v vs ih => rw [writeItems, List.map_cons, ih]

lemma writeMembers_eq (S : Style) (depth : Nat) (ms : List (String × Value)) :
    writeMembers S depth ms
      = ms.map fun m => writeString S.ascii m.1 ++ S.colon ++ writeAt S depth m.2 := by
  induction ms with
  | nil => rfl
  | cons m ms ih => rw [writeMembers, List.map_cons, ih]

/-- The text of a list that is not empty. -/
lemma toList_writeAt_list (depth : Nat) (v : Value) (vs : List Value) :
    (writeAt .file depth (.list (v :: vs))).toList
      = '[' :: ((Style.file.lineBreak (depth + 1)).toList ++ ((writeAt .file (depth + 1) v).toList
        ++ (otherItems (depth + 1) vs ++ ((Style.file.lineBreak depth).toList ++ [']'])))) := by
  rw [writeAt, writeItems_eq, List.map_cons, toList_enclose]
  simp [otherItems, List.flatMap_map, Style.file]

/-- The text of an object that is not empty. -/
lemma toList_writeAt_object (depth : Nat) (m : String × Value) (ms : List (String × Value)) :
    (writeAt .file depth (.object (m :: ms))).toList
      = '\x7b' :: ((Style.file.lineBreak (depth + 1)).toList ++ (memberText (depth + 1) m
        ++ (otherMembers (depth + 1) ms
          ++ ((Style.file.lineBreak depth).toList ++ ['\x7d'])))) := by
  rw [writeAt, writeMembers_eq, List.map_cons, toList_enclose]
  simp [otherMembers, memberText, List.flatMap_map, Style.file]

lemma isRead_noItems (room depth : Nat) : IsRead room depth (.list []) := by
  intro fuel rest hrest hfuel
  have htext : (writeAt .file depth (.list [])).toList = ['[', ']'] := by
    simp [writeAt, writeItems, Style.enclose]
  have hlength := congrArg List.length htext
  rw [String.length_toList, List.length_cons] at hlength
  obtain ⟨fuel, rfl⟩ : ∃ f, fuel = f + 1 := ⟨fuel - 1, by omega⟩
  rw [htext]
  cases room <;> rfl

lemma isRead_noMembers (room depth : Nat) : IsRead room depth (.object []) := by
  intro fuel rest hrest hfuel
  have htext : (writeAt .file depth (.object [])).toList = ['\x7b', '\x7d'] := by
    simp [writeAt, writeMembers, Style.enclose]
  have hlength := congrArg List.length htext
  rw [String.length_toList, List.length_cons] at hlength
  obtain ⟨fuel, rfl⟩ : ∃ f, fuel = f + 1 := ⟨fuel - 1, by omega⟩
  rw [htext]
  cases room <;> rfl

/-- A list behind its opening bracket. -/
lemma value_bracket (h : ∀ after, skipBlanks cs ≠ ']' :: after) :
    value .file (fuel + 1) (room + 1) ('[' :: cs) = items .file fuel room [] cs := by
  have hopening : skipBlanks ('[' :: cs) = '[' :: cs := rfl
  simp only [value, hopening, Nat.succ_ne_zero, decide_false, Bool.false_and, Bool.false_eq_true,
    if_false, Nat.add_sub_cancel]

/-- An object behind its opening brace. -/
lemma value_brace (h : ∀ after, skipBlanks cs ≠ '\x7d' :: after) :
    value .file (fuel + 1) (room + 1) ('\x7b' :: cs) = members .file fuel room [] cs := by
  have hopening : skipBlanks ('\x7b' :: cs) = '\x7b' :: cs := rfl
  simp only [value, hopening, Nat.succ_ne_zero, decide_false, Bool.false_and, Bool.false_eq_true,
    if_false, Nat.add_sub_cancel]

lemma isRead_list {items : List Value} (h : ∀ v ∈ items, IsRead room (depth + 1) v) :
    IsRead (room + 1) depth (.list items) := by
  cases items with
  | nil => exact isRead_noItems _ _
  | cons v vs =>
    intro fuel rest hrest hfuel
    have htext := toList_writeAt_list depth v vs
    have hlength := congrArg List.length htext
    simp only [String.length_toList, List.length_cons, List.length_append] at hlength
    obtain ⟨fuel, rfl⟩ : ∃ f, fuel = f + 1 := ⟨fuel - 1, by omega⟩
    have hfirst := h v List.mem_cons_self fuel _
      (endsNumber_otherItems (depth + 1) vs depth (']' :: rest)) (by omega)
    rw [htext, List.cons_append, List.append_assoc, List.append_assoc, List.append_assoc,
      List.append_assoc, value_bracket, items_lineBreak]
    · exact items_written h [] depth rest (by omega)
    · intro after
      rw [skipBlanks_append fun _ => isBlank_of_mem_lineBreak]
      exact (skipBlanks_ne_of_value hfirst).1 after

lemma isRead_object {members : List (String × Value)} (hnames : (members.map Prod.fst).Nodup)
    (hbroken : ∀ m ∈ members, Text.hasHalf m.1 = false)
    (h : ∀ m ∈ members, IsRead room (depth + 1) m.2) :
    IsRead (room + 1) depth (.object members) := by
  cases members with
  | nil => exact isRead_noMembers _ _
  | cons m ms =>
    intro fuel rest hrest hfuel
    have htext := toList_writeAt_object depth m ms
    have hlength := congrArg List.length htext
    simp only [String.length_toList, List.length_cons, List.length_append] at hlength
    obtain ⟨fuel, rfl⟩ : ∃ f, fuel = f + 1 := ⟨fuel - 1, by omega⟩
    obtain ⟨afterQuote, -, hstart, -⟩ := member_written (hbroken m List.mem_cons_self)
      (h m List.mem_cons_self)
      (endsNumber_otherMembers (depth + 1) ms depth ('\x7d' :: rest)) le_rfl
    rw [htext, List.cons_append, List.append_assoc, List.append_assoc, List.append_assoc,
      List.append_assoc, value_brace, members_lineBreak]
    · exact members_written h hbroken hnames depth rest (by omega)
    · intro after
      rw [skipBlanks_append fun _ => isBlank_of_mem_lineBreak]
      intro hclosing
      rw [List.singleton_append, hstart] at hclosing
      cases hclosing

end Values

end Json

open Json

/-- A value that a file can hold is read from its text. -/
lemma Value.Fits.isRead {room : Nat} {v : Value} (h : v.Fits room) (depth : Nat) :
    IsRead room depth v := by
  induction h generalizing depth with
  | null room => exact isRead_of_scalar fun rest _ => by simp [writeAt, scalar, word?]
  | bool room b =>
    cases b <;> exact isRead_of_scalar fun rest _ => by simp [writeAt, scalar, word?]
  | int room h => exact isRead_of_scalar fun rest hrest => scalar_int h hrest
  | float room h =>
    exact isRead_of_scalar fun rest hrest => scalar_float DoubleLayout.highest_saved h hrest
  | str room h => exact isRead_str room depth h
  | noItems room => exact isRead_noItems room depth
  | noMembers room => exact isRead_noMembers room depth
  | list _ ih => exact isRead_list fun v hv => ih v hv (depth + 1)
  | object hnames hbroken _ ih => exact isRead_object hnames hbroken fun m hm => ih m hm (depth + 1)

/-- A text is read as the value that all of it is the text of. -/
lemma Json.read_of_value {D : Dialect} {s : String} {v : Value} {room : Nat}
    (hroom : D.maxDepth.getD s.toList.length = room)
    (h : value D (2 * s.toList.length + 2) room s.toList = .ok (v, [])) : read D s = .ok v := by
  simp only [read, hroom, h]
  rfl

/-- **The text of a value that a file can hold is read as that value.** -/
theorem Json.read_write {v : Value} (h : v.Fits 200) : read .file (write .file v) = .ok v := by
  have hvalue := h.isRead 0 (2 * (write .file v).toList.length + 2) []
    ⟨nofun, nofun, nofun, nofun⟩ (by
      rw [String.length_toList]
      exact Nat.le_add_right _ 2)
  rw [List.append_nil] at hvalue
  exact read_of_value rfl hvalue

end Workflow
