import Workflow.Proofs.Json.Escaped
import Workflow.Proofs.Json.Value

/-!
# Values of one compact text

No two values have the same compact text, if their texts are joined. This is shown from the front: a
value is known from what its text begins with, and so is where the text ends, whatever may follow it
in a list or an object.
-/

namespace Workflow

/-- A value whose texts are joined, the names of members among them. -/
inductive Value.IsJoined : Value → Prop where
  | null : IsJoined .null
  | bool (b : Bool) : IsJoined (.bool b)
  | int (n : Int) : IsJoined (.int n)
  | float (x : Float) : IsJoined (.float x)
  | str {s : String} (h : Text.IsJoined s) : IsJoined (.str s)
  | list {items : List Value} (h : ∀ v ∈ items, IsJoined v) : IsJoined (.list items)
  | object {members : List (String × Value)} (hnames : ∀ m ∈ members, Text.IsJoined m.1)
      (h : ∀ m ∈ members, IsJoined m.2) : IsJoined (.object members)

namespace Double

open Float.Model Float.Model.UnpackedFloat

variable {x y : Float}

/-- There is only one NaN. -/
lemma eq_nan_of_parts (h : parts x = .nan) : x = nan := by
  simp only [parts] at h
  split_ifs at h with hfield hfraction
  have hexponent : @unpackExponent .binary64 x.toBits.toBitVec = -1#11 := by
    apply BitVec.eq_of_toNat_eq
    simpa [unpackExponent, Nat.shiftRight_eq_div_pow] using hfield
  have hmantissa : @unpackMantissa .binary64 x.toBits.toBitVec ≠ 0#52 := by
    intro hzero
    have hmantissa := congrArg BitVec.toNat hzero
    exact hfraction (by simpa [unpackMantissa] using hmantissa)
  exact eq_of_toBits (UInt64.toBitVec_inj.1 (x.toModel.valid.eq_packedNaN hexponent hmantissa))

/-- A double is known by its parts. -/
lemma eq_of_parts (h : parts x = parts y) : x = y := by
  by_cases hx : parts x = .nan
  · rw [eq_nan_of_parts hx, eq_nan_of_parts (h.symm.trans hx)]
  · refine eq_of_toBits (UInt64.toNat.inj ?_)
    have hxbits := x.toBits.toNat_lt
    have hybits := y.toBits.toNat_lt
    simp only [parts] at h hx
    split_ifs at h hx <;> simp_all <;> omega

end Double

namespace Json

open Text

/-! ### Strings -/

section Strings

variable {s t : String} {r r' : List Char}

/-- Two texts are the same if their strings begin two equal texts. -/
lemma writeString_cancel (hs : IsJoined s) (ht : IsJoined t)
    (h : (writeString true s).toList ++ r = (writeString true t).toList ++ r') :
    s = t ∧ r = r' := by
  have hD : Dialect.payload.loneSurrogates = true := rfl
  obtain ⟨body, htext, hread⟩ := stringBody_writeString_true hD hs r
    (le_max_left (writeString true s).length (writeString true t).length)
  obtain ⟨body', htext', hread'⟩ := stringBody_writeString_true hD ht r'
    (le_max_right (writeString true s).length (writeString true t).length)
  rw [htext, htext', List.cons_append, List.cons_append, List.cons.injEq] at h
  rw [h.2, hread'] at hread
  simpa [eq_comm] using hread

end Strings

/-! ### Numbers -/

section Numbers

variable {n m : Int} {x y : Float} {r r' : List Char}

/-- What follows a value in a compact text: nothing, the next item, or the end of a collection. -/
def EndsValue (rest : List Char) : Prop :=
  ∀ c ∈ rest.head?, c ∈ [',', ']', '\x7d']

lemma EndsValue.endsNumber (h : EndsValue r) : EndsNumber r := by
  cases r with
  | nil => exact ⟨nofun, nofun, nofun, nofun⟩
  | cons c r =>
    have hc := h c rfl
    simp only [List.mem_cons, List.not_mem_nil, or_false] at hc
    refine ⟨endsDigits_cons ?_ r, ?_, ?_, ?_⟩ <;> rcases hc with rfl | rfl | rfl <;> simp

/-- The digits at the start of a text as a number, unless they go on as a double. -/
def natural? (cs : List Char) : Option (Nat × List Char) :=
  let (ds, after) := digits cs
  if ds = [] ∨ after.head? = some '.' ∨ after.head? = some 'e' then none
  else some (digitsValue ds, after)

/-- The integer at the start of a text, unless it goes on as a double. -/
def integer? (cs : List Char) : Option (Int × List Char) :=
  let negative := decide (cs.head? = some '-')
  (natural? (if negative then cs.tail else cs)).map fun found =>
    (Double.signed negative found.1, found.2)

lemma integer?_signed (negative : Bool) {cs : List Char} (hcs : cs.head? ≠ some '-') :
    integer? (if negative then '-' :: cs else cs)
      = (natural? cs).map fun found => (Double.signed negative found.1, found.2) := by
  cases negative with
  | true => rfl
  | false => simp [integer?, hcs]

lemma head?_ne_minus {cs : List Char} (hcs : IsWhole cs) (rest : List Char) :
    (cs ++ rest).head? ≠ some '-' := by
  cases cs with
  | nil => exact absurd rfl hcs.nonempty
  | cons c cs =>
    intro hminus
    obtain rfl : c = '-' := Option.some.inj hminus
    exact absurd (hcs.digits '-' List.mem_cons_self) (by decide)

/-- An integer of any size is found again. -/
lemma integer?_int (n : Int) (hr : EndsValue r) :
    integer? ((toString n).toList ++ r) = some (n, r) := by
  have hwhole := isWhole_toDigits n.natAbs
  have hnatural : natural? (Nat.toDigits 10 n.natAbs ++ r) = some (n.natAbs, r) := by
    have hne : valuesOf (Nat.toDigits 10 n.natAbs) ≠ [] := by
      rw [← List.length_pos_iff, length_valuesOf, List.length_pos_iff]
      exact hwhole.nonempty
    rw [natural?, digits_append hwhole.digits hr.endsNumber.digit]
    simp only [hne, hr.endsNumber.point, hr.endsNumber.lower, or_self, if_false,
      digitsValue_toDigits]
  have htext : (toString n).toList ++ r = if decide (n < 0) then
      '-' :: (Nat.toDigits 10 n.natAbs ++ r) else Nat.toDigits 10 n.natAbs ++ r := by
    rw [toList_toString_int]
    split_ifs <;> rfl
  rw [htext, integer?_signed _ (head?_ne_minus hwhole r), hnatural, Option.map_some, signed_natAbs]

lemma toList_trace_infinite {negative : Bool} (h : Double.parts x = .infinite negative) :
    (DoubleLayout.trace.text x).toList
      = if negative then '-' :: "Infinity".toList else "Infinity".toList := by
  rw [DoubleLayout.text, h]
  cases negative <;> rfl

/-- Doubles in compact texts have no whole part that is too long to be read. -/
lemma highest_trace : DoubleLayout.trace.highest ≤ Literal.maxIntegerDigits - 1 := by decide

/-- The whole part of a double is followed by a point or an exponent. -/
lemma natural?_spelling (L : DoubleLayout) (t : DoubleLayout.Spelling) (r : List Char) :
    natural? (t.chars L ++ r) = none := by
  obtain ⟨c, after, htext, hc⟩ : ∃ c after,
      t.fractionChars ++ t.exponentChars L ++ r = c :: after ∧ (c = '.' ∨ c = 'e') := by
    by_cases hfraction : t.fraction = []
    · obtain ⟨e, he⟩ := Option.isSome_iff_exists.1 (t.isDouble hfraction)
      refine ⟨'e', L.exponentText e ++ r, ?_, .inr rfl⟩
      simp [DoubleLayout.Spelling.fractionChars, DoubleLayout.Spelling.exponentChars, hfraction, he]
    · refine ⟨'.', t.fraction ++ (t.exponentChars L ++ r), ?_, .inl rfl⟩
      simp [DoubleLayout.Spelling.fractionChars, hfraction]
  have hdigit : c.isDigit = false := by rcases hc with rfl | rfl <;> rfl
  rw [DoubleLayout.Spelling.chars, List.append_assoc, htext, natural?,
    digits_append t.isWhole.digits (endsDigits_cons hdigit after)]
  rcases hc with rfl | rfl <;> simp

lemma toList_trace_nan (h : Double.parts x = .nan) :
    (DoubleLayout.trace.text x).toList = "NaN".toList := by
  rw [DoubleLayout.text, h]
  rfl

/-- No integer is found where a double begins. -/
lemma integer?_float (x : Float) (r : List Char) :
    integer? ((DoubleLayout.trace.text x).toList ++ r) = none := by
  obtain ⟨negative, cs, htext, hminus, hnone⟩ : ∃ (negative : Bool) (cs : List Char),
      (DoubleLayout.trace.text x).toList = (if negative then '-' :: cs else cs) ∧
        (cs ++ r).head? ≠ some '-' ∧ natural? (cs ++ r) = none := by
    cases hparts : Double.parts x with
    | nan =>
      refine ⟨false, _, toList_trace_nan hparts, ?_, rfl⟩
      exact fun h => absurd (Option.some.inj h) (by decide)
    | infinite negative =>
      refine ⟨negative, _, toList_trace_infinite hparts, ?_, rfl⟩
      exact fun h => absurd (Option.some.inj h) (by decide)
    | finite negative m q =>
      have hfinite : Double.isFinite x = true := by rw [Double.isFinite, hparts]
      obtain ⟨negative, t, htext, -⟩ := DoubleLayout.exists_text highest_trace hfinite
      refine ⟨negative, _, htext, ?_, ?_⟩
      · rw [DoubleLayout.Spelling.chars, List.append_assoc]
        exact head?_ne_minus t.isWhole _
      · exact natural?_spelling _ t r
  have hsplit : (DoubleLayout.trace.text x).toList ++ r
      = if negative then '-' :: (cs ++ r) else cs ++ r := by
    rw [htext]
    split_ifs <;> rfl
  rw [hsplit, integer?_signed negative hminus, hnone, Option.map_none]

/-- A double is found again. -/
lemma scalar_trace (x : Float) (hr : EndsValue r) :
    scalar .file ((DoubleLayout.trace.text x).toList ++ r) = .ok (.float x, r) := by
  cases hparts : Double.parts x with
  | nan =>
    rw [toList_trace_nan hparts, Double.eq_nan_of_parts hparts]
    rfl
  | infinite negative =>
    have hvalue : x = if negative then -Double.infinity else Double.infinity :=
      Double.eq_of_parts (by rw [hparts]; cases negative <;> rfl)
    rw [toList_trace_infinite hparts, hvalue]
    cases negative <;> rfl
  | finite negative m q =>
    have hfinite : Double.isFinite x = true := by rw [Double.isFinite, hparts]
    exact scalar_float highest_trace hfinite hr.endsNumber

/-- Two numbers are the same if their texts begin two equal texts in which no number goes on. -/
lemma int_cancel (hr : EndsValue r) (hr' : EndsValue r')
    (h : (toString n).toList ++ r = (toString m).toList ++ r') : n = m ∧ r = r' := by
  have hread := integer?_int n hr
  rw [h, integer?_int m hr'] at hread
  simpa [eq_comm] using hread

lemma float_cancel (hr : EndsValue r) (hr' : EndsValue r')
    (h : (DoubleLayout.trace.text x).toList ++ r = (DoubleLayout.trace.text y).toList ++ r') :
    x = y ∧ r = r' := by
  have hread := scalar_trace x hr
  rw [h, scalar_trace y hr'] at hread
  simpa [eq_comm] using hread

/-- No text of an integer begins like that of a double. -/
lemma int_ne_float (hr : EndsValue r) :
    (toString n).toList ++ r ≠ (DoubleLayout.trace.text x).toList ++ r' := by
  intro h
  have hread := integer?_int n hr
  rw [h, integer?_float] at hread
  cases hread

end Numbers

/-! ### Collections -/

section Collections

variable {α : Type} {text : α → String} {as bs : List α} {r r' : List Char} {depth : Nat}

/-- Values that are known from what their texts begin with. -/
def Cancels (text : α → String) (a b : α) : Prop :=
  ∀ r r', EndsValue r → EndsValue r' → (text a).toList ++ r = (text b).toList ++ r' →
    a = b ∧ r = r'

/-- The items after the first. -/
def laterItems (text : α → String) (as : List α) : List Char :=
  as.flatMap fun a => ',' :: (text a).toList

lemma endsValue_cons {c : Char} (hc : c ∈ [',', ']', '\x7d']) (rest : List Char) :
    EndsValue (c :: rest) := by
  intro c' hc'
  obtain rfl : c = c' := Option.some.inj hc'
  exact hc

lemma endsValue_laterItems {closing : Char} (hclosing : closing ∈ [']', '\x7d']) (as : List α)
    (r : List Char) : EndsValue (laterItems text as ++ closing :: r) := by
  cases as with
  | nil => exact endsValue_cons (List.mem_cons_of_mem _ hclosing) r
  | cons a as => exact endsValue_cons List.mem_cons_self _

/-- The items are known one by one up to the closing bracket. -/
lemma laterItems_cancel {closing : Char} (hclosing : closing ∈ [']', '\x7d'])
    (hcancels : ∀ a ∈ as, ∀ b ∈ bs, Cancels text a b)
    (h : laterItems text as ++ closing :: r = laterItems text bs ++ closing :: r') :
    as = bs ∧ r = r' := by
  have hcomma : closing ≠ ',' := by
    rintro rfl
    exact absurd hclosing (by decide)
  induction as generalizing bs with
  | nil =>
    cases bs with
    | nil => exact ⟨rfl, (List.cons.inj h).2⟩
    | cons b bs => exact absurd (List.cons.inj h).1 hcomma
  | cons a as ih =>
    cases bs with
    | nil => exact absurd (List.cons.inj h).1.symm hcomma
    | cons b bs =>
      simp only [laterItems, List.flatMap_cons, List.cons_append, List.append_assoc,
        List.cons.injEq, true_and] at h
      obtain ⟨rfl, hrest⟩ := hcancels a List.mem_cons_self b List.mem_cons_self _ _
        (endsValue_laterItems hclosing as r) (endsValue_laterItems hclosing bs r') h
      obtain ⟨rfl, hr⟩ := ih (fun a' ha b' hb =>
        hcancels a' (List.mem_cons_of_mem _ ha) b' (List.mem_cons_of_mem _ hb)) hrest
      exact ⟨rfl, hr⟩

/-- The text of a collection behind its opening bracket. -/
lemma exists_enclose (first last : String) (as : List α) :
    (Style.fingerprint.enclose depth first last (as.map text)).toList
      = first.toList ++ (match as with
        | [] => []
        | a :: as => (text a).toList ++ laterItems text as) ++ last.toList := by
  cases as with
  | nil => simp [Style.enclose]
  | cons a as =>
    rw [List.map_cons, toList_enclose]
    simp [laterItems, List.flatMap_map, Style.fingerprint, Style.lineBreak]

/-- Two collections are the same if their texts begin two equal texts. -/
lemma enclose_cancel {first last : String} (closing : Char) (hlast : last.toList = [closing])
    (hclosing : closing ∈ [']', '\x7d'])
    (hfirst : ∀ a ∈ as ++ bs, ∃ c tail, (text a).toList = c :: tail ∧ c ≠ closing)
    (hcancels : ∀ a ∈ as, ∀ b ∈ bs, Cancels text a b)
    (h : (Style.fingerprint.enclose depth first last (as.map text)).toList ++ r
      = (Style.fingerprint.enclose depth first last (bs.map text)).toList ++ r') :
    as = bs ∧ r = r' := by
  rw [exists_enclose, exists_enclose, hlast] at h
  simp only [List.append_assoc, List.append_cancel_left_eq, List.singleton_append] at h
  cases as with
  | nil =>
    cases bs with
    | nil => exact ⟨rfl, (List.cons.inj h).2⟩
    | cons b bs =>
      obtain ⟨c, tail, htext, hc⟩ := hfirst b (List.mem_append_right _ List.mem_cons_self)
      simp only [htext, List.cons_append, List.nil_append] at h
      exact absurd (List.cons.inj h).1.symm hc
  | cons a as =>
    cases bs with
    | nil =>
      obtain ⟨c, tail, htext, hc⟩ := hfirst a (List.mem_append_left _ List.mem_cons_self)
      simp only [htext, List.cons_append, List.nil_append] at h
      exact absurd (List.cons.inj h).1 hc
    | cons b bs =>
      simp only [List.append_assoc] at h
      obtain ⟨rfl, hrest⟩ := hcancels a List.mem_cons_self b List.mem_cons_self _ _
        (endsValue_laterItems hclosing as r) (endsValue_laterItems hclosing bs r') h
      obtain ⟨rfl, hr⟩ := laterItems_cancel hclosing (fun a' ha b' hb =>
        hcancels a' (List.mem_cons_of_mem _ ha) b' (List.mem_cons_of_mem _ hb)) hrest
      exact ⟨rfl, hr⟩

end Collections

/-! ### Values -/

section Values

variable {v w : Value} {x : Float} {r r' : List Char} {depth : Nat}

/-- The kinds of values that the first character of a text tells apart. -/
inductive Kind where
  | null
  | bool (b : Bool)
  | number
  | text
  | list
  | object

/-- The kind of a value. -/
def kind : Value → Kind
  | .null => .null
  | .bool b => .bool b
  | .int _ | .float _ => .number
  | .str _ => .text
  | .list _ => .list
  | .object _ => .object

/-- The kind of the values whose texts begin with a character. -/
def kind? (c : Char) : Option Kind :=
  if c.isDigit ∨ c = '-' ∨ c = 'I' ∨ c = 'N' then some .number
  else if c = 'n' then some .null
  else if c = 't' then some (.bool true)
  else if c = 'f' then some (.bool false)
  else if c = '"' then some .text
  else if c = '[' then some .list
  else if c = '\x7b' then some .object
  else none

lemma exists_number_of_signed {cs : List Char}
    (h : ∃ c tail, cs = c :: tail ∧ kind? c = some .number) (negative : Bool) :
    ∃ c tail, (if negative then '-' :: cs else cs) = c :: tail ∧ kind? c = some .number := by
  cases negative with
  | true => exact ⟨'-', cs, rfl, rfl⟩
  | false => exact h

lemma exists_number_of_isWhole {cs : List Char} (hcs : IsWhole cs) (rest : List Char) :
    ∃ c tail, cs ++ rest = c :: tail ∧ kind? c = some .number := by
  cases cs with
  | nil => exact absurd rfl hcs.nonempty
  | cons c cs =>
    exact ⟨c, cs ++ rest, rfl, by simp [kind?, hcs.digits c List.mem_cons_self]⟩

lemma exists_number_of_float (x : Float) :
    ∃ c tail, (DoubleLayout.trace.text x).toList = c :: tail ∧ kind? c = some .number := by
  cases hparts : Double.parts x with
  | nan => exact ⟨'N', _, toList_trace_nan hparts, rfl⟩
  | infinite negative =>
    rw [toList_trace_infinite hparts]
    exact exists_number_of_signed ⟨'I', _, rfl, rfl⟩ negative
  | finite negative m q =>
    have hfinite : Double.isFinite x = true := by rw [Double.isFinite, hparts]
    obtain ⟨negative, t, htext, -⟩ := DoubleLayout.exists_text highest_trace hfinite
    rw [htext]
    exact exists_number_of_signed (exists_number_of_isWhole t.isWhole _) negative

/-- The text of a value tells its kind. -/
lemma exists_kind (v : Value) (depth : Nat) : ∃ c tail,
    (writeAt .fingerprint depth v).toList = c :: tail ∧ kind? c = some (kind v) := by
  cases v with
  | null => simp [writeAt, kind, kind?]
  | bool b => cases b <;> simp [writeAt, kind, kind?]
  | int n =>
    rw [writeAt, toList_toString_int]
    have hwhole := exists_number_of_isWhole (isWhole_toDigits n.natAbs) []
    rw [List.append_nil] at hwhole
    exact exists_number_of_signed hwhole _
  | float x => exact exists_number_of_float x
  | str s => exact ⟨'"', _, toList_writeString_true s, rfl⟩
  | list items =>
    rw [writeAt, writeItems_eq, exists_enclose]
    exact ⟨'[', _, rfl, rfl⟩
  | object members =>
    rw [writeAt, writeMembers_eq, exists_enclose]
    exact ⟨'\x7b', _, rfl, rfl⟩

lemma kind_eq
    (h : (writeAt .fingerprint depth v).toList ++ r = (writeAt .fingerprint depth w).toList ++ r') :
    kind v = kind w := by
  obtain ⟨c, tail, htext, hc⟩ := exists_kind v depth
  obtain ⟨c', tail', htext', hc'⟩ := exists_kind w depth
  rw [htext, htext', List.cons_append, List.cons_append, List.cons.injEq] at h
  rw [h.1, hc'] at hc
  exact (Option.some.inj hc).symm

/-- No value begins with a closing bracket. -/
lemma exists_ne_closing (v : Value) (depth : Nat) : ∃ c tail,
    (writeAt .fingerprint depth v).toList = c :: tail ∧ c ≠ ']' := by
  obtain ⟨c, tail, htext, hc⟩ := exists_kind v depth
  refine ⟨c, tail, htext, ?_⟩
  rintro rfl
  cases hc

/-- The text of a member of an object. -/
def memberOf (depth : Nat) (m : String × Value) : String :=
  writeString true m.1 ++ ":" ++ writeAt .fingerprint depth m.2

lemma writeMembers_fingerprint (depth : Nat) (ms : List (String × Value)) :
    writeMembers .fingerprint depth ms = ms.map (memberOf depth) :=
  writeMembers_eq .fingerprint depth ms

lemma exists_quote_memberOf (depth : Nat) (m : String × Value) : ∃ c tail,
    (memberOf depth m).toList = c :: tail ∧ c ≠ '\x7d' := by
  simp only [memberOf, String.toList_append, toList_writeString_true, List.cons_append]
  exact ⟨'"', _, rfl, by decide⟩

lemma cancels_member {m k : String × Value} (hm : IsJoined m.1) (hk : IsJoined k.1)
    (h : Cancels (writeAt .fingerprint depth) m.2 k.2) : Cancels (memberOf depth) m k := by
  intro r r' hr hr' htext
  simp only [memberOf, String.toList_append, List.append_assoc] at htext
  obtain ⟨hname, htext⟩ := writeString_cancel hm hk htext
  obtain ⟨hvalue, hrest⟩ := h r r' hr hr' (List.append_cancel_left htext)
  exact ⟨Prod.ext hname hvalue, hrest⟩

/-- A joined value is known from what its text begins with. -/
lemma cancels_writeAt (hv : v.IsJoined) (hw : w.IsJoined) (depth : Nat) :
    Cancels (writeAt .fingerprint depth) v w := by
  induction hv generalizing w depth with
  | null =>
    intro r r' hr hr' htext
    have hkind := kind_eq htext
    cases hw with
    | null => exact ⟨rfl, List.append_cancel_left htext⟩
    | _ => cases hkind
  | bool b =>
    intro r r' hr hr' htext
    have hkind := kind_eq htext
    cases hw with
    | bool b' =>
      obtain rfl := Kind.bool.inj hkind
      exact ⟨rfl, List.append_cancel_left htext⟩
    | _ => cases hkind
  | int n =>
    intro r r' hr hr' htext
    have hkind := kind_eq htext
    cases hw with
    | int m =>
      obtain ⟨rfl, hrest⟩ := int_cancel hr hr' htext
      exact ⟨rfl, hrest⟩
    | float y => exact absurd htext (int_ne_float hr)
    | _ => cases hkind
  | float x =>
    intro r r' hr hr' htext
    have hkind := kind_eq htext
    cases hw with
    | int m => exact absurd htext.symm (int_ne_float hr')
    | float y =>
      obtain ⟨rfl, hrest⟩ := float_cancel hr hr' htext
      exact ⟨rfl, hrest⟩
    | _ => cases hkind
  | str hs =>
    intro r r' hr hr' htext
    have hkind := kind_eq htext
    cases hw with
    | str ht =>
      obtain ⟨rfl, hrest⟩ := writeString_cancel hs ht htext
      exact ⟨rfl, hrest⟩
    | _ => cases hkind
  | list h ih =>
    intro r r' hr hr' htext
    have hkind := kind_eq htext
    cases hw with
    | list h' =>
      rw [writeAt, writeAt, writeItems_eq, writeItems_eq] at htext
      obtain ⟨rfl, hrest⟩ := enclose_cancel ']' rfl (by simp)
        (fun v _ => exists_ne_closing v _)
        (fun v hv w hw => ih v hv (h' w hw) (depth + 1)) htext
      exact ⟨rfl, hrest⟩
    | _ => cases hkind
  | object hnames h ih =>
    intro r r' hr hr' htext
    have hkind := kind_eq htext
    cases hw with
    | object hnames' h' =>
      rw [writeAt, writeAt, writeMembers_fingerprint, writeMembers_fingerprint] at htext
      obtain ⟨rfl, hrest⟩ := enclose_cancel '\x7d' rfl (by simp)
        (fun m _ => exists_quote_memberOf (depth + 1) m)
        (fun m hm k hk => cancels_member (hnames m hm) (hnames' k hk)
          (ih m hm (h' k hk) (depth + 1))) htext
      exact ⟨rfl, hrest⟩
    | _ => cases hkind

/-- **No two joined values have the same compact text.** -/
theorem write_fingerprint_injective (hv : v.IsJoined) (hw : w.IsJoined)
    (h : write .fingerprint v = write .fingerprint w) : v = w := by
  have hcancels := cancels_writeAt hv hw 0 [] [] nofun nofun
  exact (hcancels (congrArg (·.toList ++ []) h)).1

end Values

end Json

end Workflow
