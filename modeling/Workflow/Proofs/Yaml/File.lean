import Workflow.Proofs.Yaml.Flow
import Workflow.Proofs.Yaml.Plain
import Workflow.Proofs.Yaml.Source
import Workflow.Proofs.Yaml.Word
import Workflow.Yaml.Reader

/-!
# JSON files read as YAML

The text of a JSON value is a flow collection with quoted and plain scalars. If all texts in it are
legible, YAML reads it as the value, but for the doubles without a point, which it takes for texts.
-/

namespace Workflow.Yaml

open Text Json

/-! ### Nodes of values -/

mutual

/-- The node that the JSON text of a value writes. -/
def Node.ofValue : Value → Node
  | .null => .scalar "null" .plain
  | .bool b => .scalar (if b then "true" else "false") .plain
  | .int n => .scalar (toString n) .plain
  | .float x => .scalar (DoubleLayout.saved.text x) .plain
  | .str s => .scalar s .quoted
  | .list items => .sequence (ofItems items)
  | .object members => .mapping (ofMembers members)

/-- The nodes of the items of a list. -/
def Node.ofItems : List Value → List Node
  | [] => []
  | v :: vs => ofValue v :: ofItems vs

/-- The entries of the members of an object. -/
def Node.ofMembers : List (String × Value) → List (Node × Node)
  | [] => []
  | (name, v) :: rest => (.scalar name .quoted, ofValue v) :: ofMembers rest

end

lemma Node.ofItems_eq_map (items : List Value) : Node.ofItems items = items.map Node.ofValue := by
  induction items with
  | nil => rfl
  | cons v items ih => rw [ofItems, ih, List.map_cons]

lemma Node.ofMembers_eq_map (members : List (String × Value)) :
    Node.ofMembers members = members.map fun m => (.scalar m.1 .quoted, ofValue m.2) := by
  induction members with
  | nil => rfl
  | cons m members ih => rw [ofMembers, ih, List.map_cons]

lemma Node.flowItems_ofItems (v : Value) (vs : List Value) :
    Node.flowItems true (ofItems (v :: vs)) = (ofValue v).flowTokens
      ++ vs.flatMap fun u => .flowEntry :: (ofValue u).flowTokens := by
  have hothers : ∀ us, Node.flowItems false (ofItems us)
      = us.flatMap fun u => .flowEntry :: (ofValue u).flowTokens := by
    intro us
    induction us with
    | nil => rw [ofItems, flowItems, List.flatMap_nil]
    | cons u us ih =>
      rw [ofItems, flowItems, ih, List.flatMap_cons]
      rfl
  rw [ofItems, flowItems, hothers]
  rfl

/-- The tokens of a member. -/
def memberTokens (m : String × Value) : List Token :=
  .key :: .scalar m.1 .quoted :: .value :: (Node.ofValue m.2).flowTokens

lemma Node.flowEntries_ofMembers (m : String × Value) (ms : List (String × Value)) :
    Node.flowEntries true (ofMembers (m :: ms)) = memberTokens m
      ++ ms.flatMap fun k => .flowEntry :: memberTokens k := by
  have hothers : ∀ ks, Node.flowEntries false (ofMembers ks)
      = ks.flatMap fun k => .flowEntry :: memberTokens k := by
    intro ks
    induction ks with
    | nil => rw [ofMembers, flowEntries, List.flatMap_nil]
    | cons k ks ih =>
      rw [ofMembers, flowEntries, ih, List.flatMap_cons, flowTokens]
      rfl
  rw [ofMembers, flowEntries, hothers, flowTokens]
  rfl

/-- The node of a value that a file can hold is not nested too deep. -/
lemma Node.nests_ofValue {room : Nat} {v : Value} (h : v.Fits room) :
    (ofValue v).Nests (room + 1) := by
  induction h with
  | null | bool | int | float | str => exact .scalar _ _ _
  | noItems => exact .sequence (List.forall_mem_nil _)
  | noMembers => exact .mapping (List.forall_mem_nil _) (List.forall_mem_nil _)
  | list h ih =>
    rw [ofValue, ofItems_eq_map]
    exact .sequence (List.forall_mem_map.2 ih)
  | object hnames hbroken h ih =>
    rw [ofValue, ofMembers_eq_map]
    exact .mapping (List.forall_mem_map.2 fun m hm => .scalar _ _ _) (List.forall_mem_map.2 ih)

/-! ### Tokens of values -/

lemma isWordChar_of_isNumeral {c : Char} (h : isNumeral c = true) : isWordChar c = true := by
  have hmarks : c ∉ [' ', '\t', '\n', '\x85', '\u2028', '\u2029', ':', '#', ',', '?', '[', ']',
      '\x7b', '\x7d'] := by
    intro hc
    have hnot : [' ', '\t', '\n', '\x85', '\u2028', '\u2029', ':', '#', ',', '?', '[', ']',
      '\x7b', '\x7d'].any isNumeral = false := rfl
    simpa [h] using List.any_eq_false.1 hnot c hc
  simp only [List.mem_cons, not_or] at hmarks
  simp [isWordChar, isSpace, isBreak, endsFlowScalar, hmarks]

/-- A number begins with a digit, perhaps behind a minus. -/
lemma beginsWord_of_isWhole {cs tail : List Char} (h : IsWhole cs) (negative : Bool) :
    BeginsWord (if negative then '-' :: (cs ++ tail) else cs ++ tail) := by
  obtain ⟨c, ds, rfl⟩ := List.exists_cons_of_ne_nil h.nonempty
  have hc : c.isAlphanum = true := by
    rw [Char.isAlphanum, h.digits c List.mem_cons_self, Bool.or_true]
  cases negative with
  | true => exact .minus hc _
  | false => exact .plain hc _

lemma beginsWord_int (n : Int) : BeginsWord (toString n).toList := by
  have hbegins := @beginsWord_of_isWhole _ [] (isWhole_toDigits n.natAbs) (decide (n < 0))
  rw [List.append_nil] at hbegins
  rwa [toList_toString_int]

lemma beginsWord_float {x : Float} (hx : Double.isFinite x = true) :
    BeginsWord (DoubleLayout.saved.text x).toList := by
  obtain ⟨negative, t, htext, -⟩ := DoubleLayout.exists_text DoubleLayout.highest_saved hx
  rw [htext, DoubleLayout.Spelling.chars]
  exact beginsWord_of_isWhole t.isWhole negative

/-- The characters of a value's text represent the text. -/
lemma ofChars_fileChars {room : Nat} {v : Value} (h : v.Fits room) (depth : Nat) :
    ofChars (fileChars depth v) = writeAt .file depth v := by
  have hwhole : hasHalf (writeAt .file depth v) = false := by
    rw [hasHalf, parts_eq]
    exact (h.isClosed depth).whole
  exact ofChars_shown hwhole

/--
Within a flow collection a text becomes such tokens, if it is followed by what ends a value. A name
may have to be found in it.
-/
structure Makes (named : Bool) (cs : List Char) (ts : List Token) : Prop where
  reaches : ∀ {s : Scan} {flow : Nat} {tokens : List Token} {rest : List Char}, EndsValue rest →
    s.Reaches (flow + 1) named tokens (cs ++ rest) →
      s.Reaches (flow + 1) false (ts.reverse ++ tokens) rest

lemma Makes.named {cs : List Char} {ts : List Token} (h : Makes false cs ts) : Makes true cs ts :=
  ⟨fun hends hs => h.reaches hends hs.unnamed⟩

namespace Scan

variable {s : Scan} {flow depth : Nat} {tokens : List Token} {rest : List Char}

section Between

variable {α : Type} {text : α → List Char} {made : α → List Token} {a : α} {as : List α}
  {last : Char}

/-- The entries of a collection but for the first: each behind a comma and a line break. -/
def laterEntries (depth : Nat) (text : α → List Char) (as : List α) : List Char :=
  as.flatMap fun x => ',' :: (breakChars (depth + 1) ++ text x)

lemma endsValue_laterEntries (hlast : last = ']' ∨ last = '\x7d') (text : α → List Char)
    (as : List α) (rest : List Char) :
    EndsValue (laterEntries depth text as ++ (breakChars depth ++ last :: rest)) := by
  cases as with
  | nil => exact .bracket depth hlast rest
  | cons x as => exact .comma _

lemma Reaches.later (h : ∀ x ∈ as, Makes true (text x) (made x))
    (hlast : last = ']' ∨ last = '\x7d')
    (hs : s.Reaches (flow + 1) false tokens
      (laterEntries depth text as ++ (breakChars depth ++ last :: rest))) :
    s.Reaches (flow + 1) false
      ((as.flatMap fun x => .flowEntry :: made x).reverse ++ tokens) (last :: rest) := by
  induction as generalizing tokens with
  | nil => exact hs.congr (dropGap_breakChars depth _)
  | cons x as ih =>
    obtain ⟨hx, has⟩ := List.forall_mem_cons.1 h
    rw [laterEntries, List.flatMap_cons, List.cons_append, List.append_assoc, List.cons_append,
      List.append_assoc, ← laterEntries] at hs
    rw [List.append_assoc] at hs
    have hentry := hs.comma.congr (dropGap_breakChars (depth + 1) _)
    have hothers := ih has (hx.reaches (endsValue_laterEntries hlast text as rest) hentry)
    rw [List.flatMap_cons, List.reverse_append, List.append_assoc, List.reverse_cons,
      List.append_assoc]
    exact hothers

/-- What stands between the brackets of a list or of an object becomes the tokens of its entries. -/
lemma Reaches.between (h : ∀ x ∈ a :: as, Makes true (text x) (made x))
    (hlast : last = ']' ∨ last = '\x7d')
    (hs : s.Reaches (flow + 1) true tokens (breakChars (depth + 1) ++ (text a
      ++ (laterEntries depth text as ++ (breakChars depth ++ last :: rest))))) :
    s.Reaches (flow + 1) false
      ((made a ++ as.flatMap fun x => .flowEntry :: made x).reverse ++ tokens) (last :: rest) := by
  obtain ⟨ha, has⟩ := List.forall_mem_cons.1 h
  have hfirst := ha.reaches (endsValue_laterEntries hlast text as rest)
    (hs.congr (dropGap_breakChars (depth + 1) _))
  rw [List.reverse_append, List.append_assoc]
  exact hfirst.later has hlast

end Between

/-- A scalar of JSON that is no string becomes a plain scalar. -/
lemma makes_word {v : Value} {room : Nat} {x : String} (hv : v.Fits room)
    (htext : writeAt .file depth v = x) (hcs : ∀ c ∈ fileChars depth v, isWordChar c = true)
    (hbegins : BeginsWord (fileChars depth v)) :
    Makes false (fileChars depth v) [.scalar x .plain] := by
  refine ⟨fun hends hs => ?_⟩
  rw [← htext, ← ofChars_fileChars hv]
  exact hs.word hcs hbegins hends

lemma makes_str {x : String} (hx : hasHalf x = false) (hyaml : isSafeText x = true) :
    Makes false (fileChars depth (.str x)) [.scalar x .quoted] := by
  refine ⟨fun hends hs => ?_⟩
  rw [fileChars_str hx] at hs
  exact hs.text hx hyaml

lemma makes_list {items : List Value} {room : Nat} (hitems : ∀ v ∈ items, v.Fits room)
    (h : ∀ v ∈ items, Makes false (fileChars (depth + 1) v) (Node.ofValue v).flowTokens) :
    Makes false (fileChars depth (.list items)) (Node.ofValue (.list items)).flowTokens := by
  refine ⟨fun hends hs => ?_⟩
  cases items with
  | nil =>
    rw [fileChars_noItems] at hs
    exact hs.openList.closeList
  | cons v vs =>
    rw [fileChars_list hitems] at hs
    simp only [List.cons_append, List.append_assoc, List.nil_append] at hs
    have hentries := hs.openList.between (fun u hu => (h u hu).named) (.inl rfl)
    rw [Node.ofValue, Node.flowTokens, Node.flowItems_ofItems, List.reverse_cons,
      List.reverse_append, List.append_assoc]
    exact hentries.closeList

/-- The text of a member becomes its name, a colon and its value. -/
lemma makes_member {m : String × Value} (hname : hasHalf m.1 = false)
    (hyaml : isSafeName m.1 = true)
    (h : Makes false (fileChars depth m.2) (Node.ofValue m.2).flowTokens) :
    Makes true (memberChars depth m) (memberTokens m) := by
  refine ⟨fun hends hs => ?_⟩
  rw [memberChars, List.append_assoc, List.cons_append, List.cons_append] at hs
  have hgap := dropGap_append (List.forall_mem_singleton.2 (.inl rfl))
  have hvalue := h.reaches hends ((hs.name hname hyaml).congr (hgap _))
  rw [memberTokens, List.reverse_cons, List.reverse_cons, List.reverse_cons, List.append_assoc,
    List.append_assoc, List.append_assoc]
  exact hvalue

/-- The text of an object becomes the tokens of its members, also outside all flow collections. -/
lemma Reaches.members {members : List (String × Value)} {room : Nat} {named : Bool}
    (hmembers : ∀ m ∈ members, hasHalf m.1 = false) (hfits : ∀ m ∈ members, m.2.Fits room)
    (hyaml : ∀ m ∈ members, isSafeName m.1 = true)
    (h : ∀ m ∈ members, Makes false (fileChars (depth + 1) m.2) (Node.ofValue m.2).flowTokens)
    (hs : s.Reaches flow named tokens (fileChars depth (.object members) ++ rest)) :
    s.Reaches flow false ((Node.ofValue (.object members)).flowTokens.reverse ++ tokens) rest := by
  cases members with
  | nil =>
    rw [fileChars_noMembers] at hs
    exact hs.openObject.closeObject
  | cons m ms =>
    rw [fileChars_object hmembers hfits] at hs
    simp only [List.cons_append, List.append_assoc, List.nil_append] at hs
    have hentries := hs.openObject.between
      (fun k hk => makes_member (hmembers k hk) (hyaml k hk) (h k hk)) (.inr rfl)
    rw [Node.ofValue, Node.flowTokens, Node.flowEntries_ofMembers, List.reverse_cons,
      List.reverse_append, List.append_assoc]
    exact hentries.closeObject

lemma makes_object {members : List (String × Value)} {room : Nat}
    (hmembers : ∀ m ∈ members, hasHalf m.1 = false) (hfits : ∀ m ∈ members, m.2.Fits room)
    (hyaml : ∀ m ∈ members, isSafeName m.1 = true)
    (h : ∀ m ∈ members, Makes false (fileChars (depth + 1) m.2) (Node.ofValue m.2).flowTokens) :
    Makes false (fileChars depth (.object members)) (Node.ofValue (.object members)).flowTokens :=
  ⟨fun _ hs => hs.members hmembers hfits hyaml h⟩

end Scan

/-- **The text of a value becomes the tokens of its node.** -/
theorem makes_fileChars {v : Value} {room : Nat} (h : v.Fits room) (hlegible : v.isLegible = true)
    (depth : Nat) : Makes false (fileChars depth v) (Node.ofValue v).flowTokens := by
  induction h generalizing depth with
  | null room =>
    apply Scan.makes_word (.null room) (by rw [writeAt]) <;> rw [fileChars_null]
    · exact List.all_eq_true.1 rfl
    · exact .plain rfl _
  | bool room b =>
    apply Scan.makes_word (.bool room b) (by rw [writeAt]) <;> rw [fileChars_bool] <;> cases b
    · exact List.all_eq_true.1 rfl
    · exact List.all_eq_true.1 rfl
    · exact .plain rfl _
    · exact .plain rfl _
  | int room h =>
    apply Scan.makes_word (.int room h) (by rw [writeAt]) <;> rw [fileChars_int]
    · exact fun c hc => isWordChar_of_isNumeral (isNumeral_toString_int hc)
    · exact beginsWord_int _
  | float room h =>
    apply Scan.makes_word (.float room h) (by rw [writeAt, Style.file]) <;>
      rw [fileChars_float depth h]
    · exact fun c hc => isWordChar_of_isNumeral
        (DoubleLayout.isNumeral_text DoubleLayout.highest_saved h hc)
    · exact beginsWord_float h
  | str room h => exact Scan.makes_str h hlegible
  | noItems room =>
    have hnone : ∀ v ∈ ([] : List Value), v.Fits room := List.forall_mem_nil _
    exact Scan.makes_list hnone (List.forall_mem_nil _)
  | noMembers room =>
    have hnone : ∀ m ∈ ([] : List (String × Value)), m.2.Fits room := List.forall_mem_nil _
    exact Scan.makes_object (List.forall_mem_nil _) hnone (List.forall_mem_nil _)
      (List.forall_mem_nil _)
  | list h ih =>
    have hitems := Value.isLegibleItems_iff.1 hlegible
    exact Scan.makes_list h fun v hv => ih v hv (hitems v hv) (depth + 1)
  | object hnames hbroken h ih =>
    have hmembers := Value.isLegibleMembers_iff.1 hlegible
    exact Scan.makes_object hbroken h (fun m hm => (hmembers m hm).1)
      fun m hm => ih m hm (hmembers m hm).2 (depth + 1)

namespace Scan

variable {s : Scan} {tokens : List Token} {members : List (String × Value)} {room : Nat}

/-- The scan begins outside all collections. -/
lemma isAt_start (cs : List Char) : ({ cursor := ⟨cs, {}⟩ } : Scan).IsAt 0 true [] cs :=
  ⟨⟨rfl, List.forall_mem_nil _⟩, rfl, fun _ => rfl, rfl, rfl⟩

/-- The scan of a text is done when nothing follows. -/
lemma tokens_of_reaches {cs : List Char} {flow : Nat} {named : Bool} (hmark : dropMark cs = cs)
    (h : ({ cursor := ⟨cs, {}⟩ } : Scan).Reaches flow named tokens.reverse []) :
    (⟨cs, none⟩ : Source).tokens = tokens := by
  obtain ⟨s', hleads, hat⟩ := h
  obtain ⟨fuel, hfuel, hrun⟩ := hleads (cs.length + 1) (Nat.lt_succ_self _)
  obtain ⟨fuel, rfl⟩ : ∃ f, fuel = f + 1 := ⟨fuel - 1, by omega⟩
  have hdone : s'.atToken.cursor.rest = [] := by
    have hnothing : dropGap s'.cursor.rest = [] := hat.rest_eq
    rw [cursor_atToken, Cursor.skip, drop_gapLength, hnothing]
    rw [hnothing]
    exact fun c hc => absurd hc (Option.not_mem_none c)
  have htokens : run none (cs.length + 1) { cursor := ⟨cs, {}⟩ } = tokens := by
    rw [hrun, hat.toIsFree.run_of_end hdone, hat.tokens_eq, List.reverse_reverse]
  rw [Source.tokens, hmark]
  exact htokens

lemma Reaches.object {flow : Nat} {named : Bool} {rest : List Char}
    (h : (Value.object members).Fits room) (hlegible : (Value.object members).isLegible = true)
    (hs : s.Reaches flow named tokens (fileChars 0 (.object members) ++ rest)) :
    s.Reaches flow false ((Node.ofValue (.object members)).flowTokens.reverse ++ tokens) rest := by
  have hmembers := Value.isLegibleMembers_iff.1 hlegible
  cases h with
  | noMembers room =>
    have hnone : ∀ m ∈ ([] : List (String × Value)), m.2.Fits room := List.forall_mem_nil _
    exact hs.members (List.forall_mem_nil _) hnone (List.forall_mem_nil _) (List.forall_mem_nil _)
  | object hnames hbroken h =>
    exact hs.members hbroken h (fun m hm => (hmembers m hm).1)
      fun m hm => makes_fileChars (h m hm) (hmembers m hm).2 1

end Scan

/-- An object in a file begins with its bracket. -/
lemma exists_fileChars_object {members : List (String × Value)} {room : Nat}
    (h : (Value.object members).Fits room) :
    ∃ rest, fileChars 0 (.object members) = '\x7b' :: rest := by
  cases h with
  | noMembers => exact ⟨_, fileChars_noMembers 0⟩
  | object hnames hbroken h =>
    cases members with
    | nil => exact ⟨_, fileChars_noMembers 0⟩
    | cons m ms => exact ⟨_, fileChars_object hbroken h 0⟩

/-- **The text of an object in a file becomes the tokens of its node.** -/
theorem tokens_fileChars {members : List (String × Value)} {room : Nat}
    (h : (Value.object members).Fits room) (hlegible : (Value.object members).isLegible = true) :
    (⟨fileChars 0 (.object members), none⟩ : Source).tokens
      = (Node.ofValue (.object members)).flowTokens := by
  obtain ⟨cs, hcs⟩ := exists_fileChars_object h
  have hmark : dropMark (fileChars 0 (.object members)) = fileChars 0 (.object members) := by
    rw [hcs, dropMark]
    intro rest hrest
    exact absurd (List.cons.inj hrest).1 (by decide)
  have hstart := (Scan.isAt_start (fileChars 0 (.object members))).reaches.congr
    (congrArg dropGap (List.append_nil _).symm)
  have hend := hstart.object h hlegible
  rw [List.append_nil] at hend
  exact Scan.tokens_of_reaches hmark hend

/-! ### Documents of values -/

section Document

variable {room : Nat} {v : Value} {members : List (String × Value)}

/-- The names in a JSON text are quoted, so that none takes over another mapping. -/
lemma splitEntries_ofMembers (members : List (String × Value)) :
    splitEntries (Node.ofMembers members) = .ok ⟨[], Node.ofMembers members⟩ := by
  induction members with
  | nil => rw [Node.ofMembers, splitEntries]
  | cons m members ih =>
    have hname : (Node.scalar m.1 .quoted).isMerge = false := by simp [Node.isMerge]
    rw [Node.ofMembers, splitEntries, hname, ih]
    rfl

lemma merged_ofMembers (members : List (String × Value)) :
    merged (Node.ofMembers members) = .ok (Node.ofMembers members) := by
  rw [merged, splitEntries_ofMembers]
  rfl

lemma plainDocument_text {x : Float} (hx : Double.isFinite x = true) :
    plainDocument (DoubleLayout.saved.text x) = .ok (Document.ofValue (Value.float x).asYaml) := by
  rw [Value.asYaml, isPointedDouble]
  split_ifs with hpoint
  · exact plainDocument_float hx (List.contains_iff_mem.1 hpoint)
  · exact plainDocument_pointless hx fun hmem => hpoint (List.contains_iff_mem.2 hmem)

/-- Nothing is wrong with a value as far as it can be seen from what holds it. -/
lemma Node.valueFault?_ofValue (h : v.Fits room) (hlegible : v.isLegible = true) :
    (ofValue v).valueFault? = none := by
  cases h with
  | null => rfl
  | bool room b => rw [ofValue, valueFault?, scalarFault?, plainDocument_bool, faultOf?]
  | int room h => rw [ofValue, valueFault?, scalarFault?, plainDocument_int h, faultOf?]
  | float room h => rw [ofValue, valueFault?, scalarFault?, plainDocument_text h, faultOf?]
  | str | noItems | noMembers | list | object => rfl

/-- A node of a value that a file can hold, with legible texts. -/
def Node.IsSound (n : Node) : Prop :=
  ∃ room v, Value.Fits room v ∧ v.isLegible = true ∧ Node.ofValue v = n

lemma Node.IsSound.valueFault?_eq {n : Node} (h : n.IsSound) : n.valueFault? = none := by
  obtain ⟨room, v, hfits, hlegible, rfl⟩ := h
  exact valueFault?_ofValue hfits hlegible

lemma Node.isSound_of_mem_parts (h : v.Fits room) (hlegible : v.isLegible = true) :
    ∀ n ∈ (ofValue v).parts, n.IsSound := by
  cases h with
  | null | bool | int | float | str => exact List.forall_mem_nil _
  | noItems => exact List.forall_mem_nil _
  | noMembers => exact List.forall_mem_nil _
  | @list room items h =>
    have hitems := Value.isLegibleItems_iff.1 hlegible
    rw [ofValue, parts, ofItems_eq_map]
    exact List.forall_mem_map.2 fun v hv => ⟨room, v, h v hv, hitems v hv, rfl⟩
  | @object room members hnames hbroken h =>
    have hmembers := Value.isLegibleMembers_iff.1 hlegible
    rw [ofValue, parts, mergedValues, merged_ofMembers, ofMembers_eq_map]
    intro n hn
    obtain ⟨e, he, rfl⟩ := List.mem_map.1 hn
    obtain ⟨m, hm, rfl⟩ := List.mem_map.1 he
    exact ⟨room, m.2, h m hm, (hmembers m hm).2, rfl⟩

lemma Node.IsSound.ownFault?_eq {n : Node} (h : n.IsSound) : n.ownFault? = none := by
  have hvalue := h.valueFault?_eq
  obtain ⟨room, v, hfits, hlegible, rfl⟩ := h
  have hparts := isSound_of_mem_parts hfits hlegible
  cases v with
  | null | bool | int | float | str => exact hvalue
  | list items =>
    rw [ofValue, parts] at hparts
    rw [ofValue, ownFault?, List.findSome?_eq_none_iff]
    exact fun n hn => (hparts n hn).valueFault?_eq
  | object members =>
    rw [ofValue, parts, mergedValues, merged_ofMembers] at hparts
    rw [ofValue, ownFault?, entriesFault?, merged_ofMembers]
    dsimp only
    rw [List.findSome?_eq_none_iff]
    intro e he
    have hname : e.1.keyFault? = none := by
      rw [ofMembers_eq_map] at he
      obtain ⟨m, -, rfl⟩ := List.mem_map.1 he
      simp [keyFault?, scalarFault?]
    rw [hname, (hparts e.2 (List.mem_map_of_mem he)).valueFault?_eq]
    rfl

/-- Nothing is wrong anywhere in such nodes. -/
lemma firstFault?_of_isSound {ns : List Node} (h : ∀ n ∈ ns, n.IsSound) (levels : Nat) :
    firstFault? levels ns = none := by
  induction levels generalizing ns with
  | zero => rfl
  | succ levels ih =>
    have hown : ns.findSome? Node.ownFault? = none :=
      List.findSome?_eq_none_iff.2 fun n hn => (h n hn).ownFault?_eq
    have hparts : ∀ n ∈ ns.flatMap Node.parts, n.IsSound := by
      intro n hn
      obtain ⟨whole, hwhole, hn⟩ := List.mem_flatMap.1 hn
      obtain ⟨room, v, hfits, hlegible, rfl⟩ := h whole hwhole
      exact Node.isSound_of_mem_parts hfits hlegible n hn
    rw [firstFault?, hown, ih hparts]
    rfl

/-! ### What is read -/

/-- A member with a new name goes last. -/
lemma addMember_of_new {ms : Members} {key : Document.Key} (d : Document)
    (h : ∀ m ∈ ms, m.1.same key = false) : addMember ms key d = ms ++ [(key, d)] := by
  induction ms with
  | nil => rfl
  | cons m ms ih =>
    obtain ⟨hm, hms⟩ := List.forall_mem_cons.1 h
    rw [addMember, hm, if_neg Bool.false_ne_true, ih hms, List.cons_append]

/-- Members with names of their own are added one after the other. -/
lemma foldl_addMember {before ms : List (String × Document)}
    (h : ((before ++ ms).map Prod.fst).Nodup) :
    (ms.map fun m => (Document.Key.text m.1, m.2)).foldl (fun ms m => addMember ms m.1 m.2)
        (before.map fun m => (Document.Key.text m.1, m.2))
      = (before ++ ms).map fun m => (Document.Key.text m.1, m.2) := by
  induction ms generalizing before with
  | nil => rw [List.append_nil]; rfl
  | cons m ms ih =>
    have hnew : ∀ k ∈ before.map fun m => (Document.Key.text m.1, m.2),
        k.1.same (.text m.1) = false := by
      refine List.forall_mem_map.2 fun k hk => ?_
      rw [List.map_append, List.map_cons, List.nodup_append] at h
      have hne := h.2.2 k.1 (List.mem_map_of_mem hk) m.1 List.mem_cons_self
      simp [Document.Key.same, hne]
    have hnames : ((before ++ [m] ++ ms).map Prod.fst).Nodup := by
      rwa [List.append_assoc, List.singleton_append]
    have hothers := ih hnames
    rw [List.append_assoc, List.singleton_append, List.map_append] at hothers
    rw [List.map_cons, List.foldl_cons, addMember_of_new _ hnew]
    exact hothers

lemma Node.documents_eq_map (ns : List Node) : documents ns = ns.map document := by
  induction ns with
  | nil => rw [documents, List.map_nil]
  | cons n ns ih => rw [documents, ih, List.map_cons]

lemma Node.splitMembers_ofMembers (members : List (String × Value)) :
    splitMembers (ofMembers members)
      = ⟨[], members.map fun m => (.text m.1, (ofValue m.2).document)⟩ := by
  induction members with
  | nil => rw [ofMembers, splitMembers, List.map_nil]
  | cons m members ih =>
    have hname : (Node.scalar m.1 .quoted).isMerge = false := by simp [isMerge]
    have hkey : (Node.scalar m.1 .quoted).key = .text m.1 := by simp [key, scalarDocument, keyOf]
    rw [ofMembers, splitMembers, ih, hname, hkey, List.map_cons]
    rfl

lemma documentOfItems_eq_map (items : List Value) :
    Document.ofItems items = items.map Document.ofValue := by
  induction items with
  | nil => rfl
  | cons v items ih => rw [Document.ofItems, ih, List.map_cons]

lemma documentOfMembers_eq_map (members : List (String × Value)) :
    Document.ofMembers members = members.map fun m => (.text m.1, Document.ofValue m.2) := by
  induction members with
  | nil => rfl
  | cons m members ih => rw [Document.ofMembers, ih, List.map_cons]

/-- **The node of a value's text stands for what YAML takes the value for.** -/
theorem Node.document_ofValue (h : v.Fits room) (hlegible : v.isLegible = true) :
    (ofValue v).document = Document.ofValue v.asYaml := by
  induction h with
  | null => rw [ofValue, document, scalarDocument, plainDocument_null]; rfl
  | bool room b => rw [ofValue, document, scalarDocument, plainDocument_bool]; rfl
  | int room h => rw [ofValue, document, scalarDocument, plainDocument_int h]; rfl
  | float room h => rw [ofValue, document, scalarDocument, plainDocument_text h]; rfl
  | str => rw [ofValue, document, scalarDocument]; rfl
  | noItems => rw [ofValue, document, ofItems, documents]; rfl
  | noMembers => rw [ofValue, document, ofMembers, splitMembers]; rfl
  | @list room items h ih =>
    have hitems := Value.isLegibleItems_iff.1 hlegible
    have hdocuments : items.map (fun v => (ofValue v).document)
        = items.map fun v => Document.ofValue v.asYaml :=
      List.map_congr_left fun v hv => ih v hv (hitems v hv)
    rw [ofValue, document, ofItems_eq_map, documents_eq_map, List.map_map, Value.asYaml,
      Value.asYamlItems_eq_map, Document.ofValue, documentOfItems_eq_map, List.map_map]
    exact congrArg _ hdocuments
  | @object room members hnames hbroken h ih =>
    have hmembers := Value.isLegibleMembers_iff.1 hlegible
    have hdocuments : members.map (fun m => (Document.Key.text m.1, (ofValue m.2).document))
        = members.map fun m => (.text m.1, Document.ofValue m.2.asYaml) :=
      List.map_congr_left fun m hm => by rw [ih m hm (hmembers m hm).2]
    let made : List (String × Document) := members.map fun m => (m.1, Document.ofValue m.2.asYaml)
    have hmade : (([] ++ made).map Prod.fst).Nodup := by
      rw [List.nil_append, List.map_map]
      exact hnames
    have hfold := foldl_addMember hmade
    rw [List.nil_append, List.map_map] at hfold
    rw [ofValue, document, splitMembers_ofMembers, Value.asYaml, Value.asYamlMembers_eq_map,
      Document.ofValue, documentOfMembers_eq_map, List.map_map, Split.all, List.nil_append,
      hdocuments]
    exact congrArg _ hfold

/-- **A JSON file is read as what YAML takes it for,** if it holds an object of legible texts. -/
theorem read_write (h : (Value.object members).Fits 200)
    (hlegible : (Value.object members).isLegible = true) :
    Yaml.read (toUtf8 (write .file (.object members)))
      = .ok (Document.ofValue (Value.object members).asYaml) := by
  have hchars : ∀ c ∈ fileChars 0 (.object members), isAllowed c = true ∧ c ≠ '\r' := by
    intro c hc
    rcases h.isFileChar hlegible 0 c hc with hinline | rfl
    · refine ⟨hinline.allowed, ?_⟩
      rintro rfl
      exact absurd hinline.printable (by decide)
    · decide
  have hsource : Source.ofBytes (toUtf8 (write .file (.object members)))
      = ⟨fileChars 0 (.object members), none⟩ := Source.ofBytes_toUtf8 hchars
  have hsound : ∀ n ∈ [Node.ofValue (.object members)], n.IsSound :=
    List.forall_mem_singleton.2 ⟨200, _, h, hlegible, rfl⟩
  have hnode := Node.ofTokens?_flowTokens (Node.nests_ofValue h) (by decide)
  rw [read, hsource, Source.read, tokens_fileChars h hlegible, hnode]
  simp only [bind, Except.bind, firstFault?_of_isSound hsound, Node.document_ofValue h hlegible]

end Document

end Workflow.Yaml
