import Mathlib.Tactic.Lemma
import Mathlib.Tactic.Common
import Workflow.Yaml.Node

/-!
# Nodes from flow collections

A node without aliases can be written with flow collections only. Its tokens are then read as the
very node, whatever follows them.
-/

namespace Workflow.Yaml

/-! ### Tokens of a node -/

/-- What stands before an entry of a flow collection. -/
def entryMark (first : Bool) : List Token :=
  if first then [] else [.flowEntry]

mutual

/-- The tokens of a node that is written with flow collections. -/
def Node.flowTokens : Node → List Token
  | .scalar text style => [.scalar text style]
  | .sequence items => .flowSequence :: (flowItems true items ++ [.flowSequenceEnd])
  | .mapping entries => .flowMapping :: (flowEntries true entries ++ [.flowMappingEnd])
  | .loop name => [.alias name]
  | .tagged _ n => n.flowTokens

/-- The tokens of the items of a flow sequence. -/
def Node.flowItems : Bool → List Node → List Token
  | _, [] => []
  | first, n :: ns => entryMark first ++ (n.flowTokens ++ flowItems false ns)

/-- The tokens of the entries of a flow mapping. -/
def Node.flowEntries : Bool → List (Node × Node) → List Token
  | _, [] => []
  | first, (name, value) :: rest =>
    entryMark first ++ .key :: (name.flowTokens ++ .value :: (value.flowTokens
      ++ flowEntries false rest))

end

/-- A node without aliases whose collections are nested no deeper than some room allows. -/
inductive Node.Nests : Nat → Node → Prop where
  | scalar (room : Nat) (text : String) (style : ScalarStyle) : Nests room (.scalar text style)
  | sequence {room : Nat} {items : List Node} (h : ∀ n ∈ items, Nests room n) :
      Nests (room + 1) (.sequence items)
  | mapping {room : Nat} {entries : List (Node × Node)} (hnames : ∀ e ∈ entries, Nests room e.1)
      (hvalues : ∀ e ∈ entries, Nests room e.2) : Nests (room + 1) (.mapping entries)

/-- A token with which such a node begins. -/
def Token.opens : Token → Bool
  | .scalar _ _ | .flowSequence | .flowMapping => true
  | _ => false

lemma Node.Nests.exists_head {room : Nat} {n : Node} (h : n.Nests room) :
    ∃ t ts, n.flowTokens = t :: ts ∧ t.opens = true := by
  cases h with
  | scalar room text style => exact ⟨.scalar text style, [], by rw [flowTokens], rfl⟩
  | @sequence _ items => exact ⟨.flowSequence, _, by rw [flowTokens], rfl⟩
  | @mapping _ entries => exact ⟨.flowMapping, _, by rw [flowTokens], rfl⟩

/-! ### Reading them -/

section Read

variable {p : Parse} {t : Token} {rest : List Token} {room fuel : Nat} {n : Node}

lemma Parse.at_of_tokens (h : p.tokens = t :: rest) (ts : List Token) :
    p.at ts = ts.contains t := by
  rw [Parse.at, h, List.head?_cons, Option.any_some]

/-- A node is none of the tokens that end something. -/
lemma Node.Nests.at_eq_false (h : n.Nests room) (hp : p.tokens = n.flowTokens ++ rest)
    {ts : List Token} (hts : ts.all fun t => !t.opens) : p.at ts = false := by
  obtain ⟨t, tail, htokens, hopens⟩ := h.exists_head
  rw [htokens] at hp
  rw [Parse.at_of_tokens hp, Bool.eq_false_iff, Ne, List.contains_iff_mem]
  intro hmem
  have hnot := List.all_eq_true.1 hts t hmem
  rw [hopens] at hnot
  cases hnot

/-- The tokens of a node are read as it wherever there is room for it. -/
def Node.IsRead (n : Node) (room : Nat) : Prop :=
  ∀ (fuel : Nat) (block flush : Bool) (p : Parse) (rest : List Token),
    2 * n.flowTokens.length ≤ fuel → room ≤ p.room → p.tokens = n.flowTokens ++ rest →
      parseNode fuel block flush p = .ok (n, { p with tokens := rest })

/-- A node is read where there might be none. -/
lemma parseOptional_flowTokens (hn : n.Nests room) (hread : n.IsRead room)
    (hfuel : 2 * n.flowTokens.length + 1 ≤ fuel) (block flush : Bool) {before : List Token}
    (hbefore : before.all fun t => !t.opens) (hroom : room ≤ p.room)
    (hp : p.tokens = n.flowTokens ++ rest) :
    parseOptional fuel block flush before p = .ok (n, { p with tokens := rest }) := by
  obtain ⟨fuel, rfl⟩ : ∃ f, fuel = f + 1 := ⟨fuel - 1, by omega⟩
  have hsome : p.at before = false := hn.at_eq_false hp hbefore
  rw [parseOptional, if_neg (by simp [hsome]), hread fuel block flush p rest (by omega) hroom hp]

/-- A node is read behind a colon. -/
lemma parseValue_flowTokens (hn : n.Nests room) (hread : n.IsRead room)
    (hfuel : 2 * n.flowTokens.length + 2 ≤ fuel) (block : Bool) {before : List Token}
    (hbefore : before.all fun t => !t.opens) (hroom : room ≤ p.room)
    (hp : p.tokens = .value :: (n.flowTokens ++ rest)) :
    parseValue fuel block before p = .ok (n, { p with tokens := rest }) := by
  obtain ⟨fuel, rfl⟩ : ∃ f, fuel = f + 1 := ⟨fuel - 1, by omega⟩
  have hcolon : p.at [.value] = true := Parse.at_of_tokens hp _
  have htail : p.tail.tokens = n.flowTokens ++ rest := by rw [Parse.tail, hp, List.tail_cons]
  rw [parseValue, if_pos hcolon]
  exact parseOptional_flowTokens hn hread (by omega) block block hbefore hroom htail

/-- Where an entry comes next, the collection does not end, and a comma is skipped. -/
lemma Parse.entry {first : Bool} (hp : p.tokens = entryMark first ++ t :: rest) (last : Token)
    (hlast : last ≠ .flowEntry) (ht : t ≠ last) :
    p.at [last] = false ∧ (!first && !p.at [.flowEntry]) = false ∧
      (if first then p else p.tail) = { p with tokens := t :: rest } := by
  cases first with
  | true =>
    have hend : p.at [last] = false := by
      rw [Parse.at_of_tokens hp]
      simpa using ht
    have htokens : t :: rest = p.tokens := hp.symm
    exact ⟨hend, rfl, by rw [if_pos rfl, htokens]⟩
  | false =>
    have hcomma : p.at [.flowEntry] = true := Parse.at_of_tokens hp _
    have hend : p.at [last] = false := by
      rw [Parse.at_of_tokens hp]
      simpa using hlast.symm
    exact ⟨hend, by rw [hcomma]; rfl, by rw [if_neg Bool.false_ne_true, Parse.tail, hp]; rfl⟩

/-- The items of a flow sequence are read one after the other. -/
lemma parseFlowItems_flowItems {items : List Node} (hnests : ∀ n ∈ items, n.Nests room)
    (hread : ∀ n ∈ items, n.IsRead room) {first : Bool}
    (hfuel : 2 * (Node.flowItems first items).length + 1 ≤ fuel) (hroom : room ≤ p.room)
    (hp : p.tokens = Node.flowItems first items ++ .flowSequenceEnd :: rest) :
    parseFlowItems fuel first p = .ok (items, { p with tokens := rest }) := by
  induction items generalizing fuel first p with
  | nil =>
    obtain ⟨fuel, rfl⟩ : ∃ f, fuel = f + 1 := ⟨fuel - 1, by omega⟩
    rw [Node.flowItems, List.nil_append] at hp
    have hend : p.at [.flowSequenceEnd] = true := Parse.at_of_tokens hp _
    rw [parseFlowItems, if_pos hend, Parse.tail, hp, List.tail_cons]
  | cons n ns ih =>
    obtain ⟨fuel, rfl⟩ : ∃ f, fuel = f + 1 := ⟨fuel - 1, by omega⟩
    obtain ⟨hn, hns⟩ := List.forall_mem_cons.1 hnests
    obtain ⟨hread, hothers⟩ := List.forall_mem_cons.1 hread
    obtain ⟨t, tail, htokens, hopens⟩ := hn.exists_head
    have hne : t ≠ .flowSequenceEnd := by
      rintro rfl
      cases hopens
    have hlength : 0 < n.flowTokens.length := by simp [htokens]
    rw [Node.flowItems, List.length_append, List.length_append] at hfuel
    rw [Node.flowItems, List.append_assoc, List.append_assoc, htokens, List.cons_append] at hp
    obtain ⟨hend, hcomma, hentry⟩ := Parse.entry hp .flowSequenceEnd (by decide) hne
    generalize hq : ({ p with tokens := _ } : Parse) = q at hentry
    have hqtokens : q.tokens
        = n.flowTokens ++ (Node.flowItems false ns ++ .flowSequenceEnd :: rest) := by
      rw [← hq, htokens, List.cons_append]
    have hqroom : room ≤ q.room := by rwa [← hq]
    have hopen : q.at [.flowSequenceEnd] = false := hn.at_eq_false hqtokens (by decide)
    have hkey : q.at [.key] = false := hn.at_eq_false hqtokens (by decide)
    have hitem := hread fuel false false q _ (by omega) hqroom hqtokens
    have hitems : parseFlowItems fuel false
        { q with tokens := Node.flowItems false ns ++ .flowSequenceEnd :: rest }
          = .ok (ns, { q with tokens := rest }) := ih hns hothers (by omega) hqroom rfl
    have hrest : ({ q with tokens := rest } : Parse) = { p with tokens := rest } := by rw [← hq]
    rw [parseFlowItems]
    simp only [hend, hcomma, hentry, hopen, hkey, hitem, hitems, hrest, bind, Except.bind,
      Bool.false_eq_true, if_false]

/-- The entries of a flow mapping are read one after the other. -/
lemma parseFlowEntries_flowEntries {entries : List (Node × Node)}
    (hnests : ∀ e ∈ entries, e.1.Nests room ∧ e.2.Nests room)
    (hread : ∀ e ∈ entries, e.1.IsRead room ∧ e.2.IsRead room) {first : Bool}
    (hfuel : 2 * (Node.flowEntries first entries).length + 1 ≤ fuel) (hroom : room ≤ p.room)
    (hp : p.tokens = Node.flowEntries first entries ++ .flowMappingEnd :: rest) :
    parseFlowEntries fuel first p = .ok (entries, { p with tokens := rest }) := by
  induction entries generalizing fuel first p with
  | nil =>
    obtain ⟨fuel, rfl⟩ : ∃ f, fuel = f + 1 := ⟨fuel - 1, by omega⟩
    rw [Node.flowEntries, List.nil_append] at hp
    have hend : p.at [.flowMappingEnd] = true := Parse.at_of_tokens hp _
    rw [parseFlowEntries, if_pos hend, Parse.tail, hp, List.tail_cons]
  | cons e es ih =>
    obtain ⟨fuel, rfl⟩ : ∃ f, fuel = f + 1 := ⟨fuel - 1, by omega⟩
    obtain ⟨⟨hname, hvalue⟩, hes⟩ := List.forall_mem_cons.1 hnests
    obtain ⟨⟨hreadName, hreadValue⟩, hothers⟩ := List.forall_mem_cons.1 hread
    obtain ⟨name, value⟩ := e
    dsimp only at hname hvalue hreadName hreadValue
    rw [Node.flowEntries] at hfuel hp
    simp only [List.length_append, List.length_cons] at hfuel
    simp only [List.append_assoc, List.cons_append] at hp
    obtain ⟨hend, hcomma, hentry⟩ := Parse.entry hp .flowMappingEnd (by decide) (by decide)
    generalize hq : ({ p with tokens := _ } : Parse) = q at hentry
    have hqtokens : q.tokens = .key :: (name.flowTokens ++ .value :: (value.flowTokens
        ++ (Node.flowEntries false es ++ .flowMappingEnd :: rest))) := by
      rw [← hq]
    have hqroom : room ≤ q.room := by rwa [← hq]
    have hopen : q.at [.flowMappingEnd] = false := Parse.at_of_tokens hqtokens _
    have hkey : q.at [.key] = true := Parse.at_of_tokens hqtokens _
    have htail : q.tail.tokens = name.flowTokens ++ .value :: (value.flowTokens
        ++ (Node.flowEntries false es ++ .flowMappingEnd :: rest)) := by
      rw [Parse.tail, hqtokens, List.tail_cons]
    have hfirst : parseOptional fuel false false [.value, .flowEntry, .flowMappingEnd] q.tail
        = .ok (name, _) :=
      parseOptional_flowTokens hname hreadName (by omega) false false (by decide) hqroom htail
    have hsecond : parseValue fuel false [.flowEntry, .flowMappingEnd] { q.tail with
        tokens := .value :: (value.flowTokens
          ++ (Node.flowEntries false es ++ .flowMappingEnd :: rest)) } = .ok (value, _) :=
      parseValue_flowTokens hvalue hreadValue (by omega) false (by decide) hqroom rfl
    have hentries : parseFlowEntries fuel false
        { q.tail with tokens := Node.flowEntries false es ++ .flowMappingEnd :: rest }
          = .ok (es, { q.tail with tokens := rest }) := ih hes hothers (by omega) hqroom rfl
    have hrest : ({ q.tail with tokens := rest } : Parse) = { p with tokens := rest } := by
      rw [← hq]
      rfl
    rw [parseFlowEntries]
    simp only [hend, hcomma, hentry, hopen, hkey, hfirst, hsecond, hentries, hrest, bind,
      Except.bind, Bool.false_eq_true, if_false, if_true]

/-- A node that begins so has no anchor. -/
lemma parseNode_of_opens (hp : p.tokens = t :: rest) (ht : t.opens = true) (block flush : Bool) :
    parseNode (fuel + 1) block flush p = parseContent fuel block flush false p := by
  rw [parseNode, hp]
  cases t with
  | scalar | flowSequence | flowMapping => rfl
  | _ => cases ht

/-- A collection may begin where there is room for it. -/
lemma Parse.deeper_of_le (h : room + 1 ≤ p.room) :
    ∃ q, p.deeper = .ok q ∧ room ≤ q.room ∧ q.tokens = p.tokens ∧
      ∀ ts, { q with tokens := ts }.shallower = { p with tokens := ts } := by
  refine ⟨{ p with room := p.room - 1 }, by rw [deeper, if_neg (by omega)], Nat.le_sub_of_add_le h,
    rfl, fun ts => ?_⟩
  have hback : p.room - 1 + 1 = p.room := by omega
  rw [shallower]
  simp only [hback]

/-- **The tokens of a node are read as it.** -/
theorem Node.Nests.isRead (h : n.Nests room) : n.IsRead room := by
  induction h with
  | scalar room text style =>
    intro fuel block flush p rest hfuel hroom hp
    rw [flowTokens, List.length_singleton] at hfuel
    obtain ⟨fuel, rfl⟩ : ∃ f, fuel = f + 2 := ⟨fuel - 2, by omega⟩
    rw [flowTokens, List.singleton_append] at hp
    rw [parseNode_of_opens hp rfl, parseContent, hp]
    simp only [Parse.tail, hp, List.tail_cons]
  | @sequence room items h ih =>
    intro fuel block flush p rest hfuel hroom hp
    rw [flowTokens, List.length_cons, List.length_append, List.length_singleton] at hfuel
    obtain ⟨fuel, rfl⟩ : ∃ f, fuel = f + 2 := ⟨fuel - 2, by omega⟩
    rw [flowTokens, List.cons_append, List.append_assoc, List.singleton_append] at hp
    obtain ⟨q, hdeeper, hqroom, hqtokens, hback⟩ := Parse.deeper_of_le hroom
    have hinside : q.tail.tokens = flowItems true items ++ .flowSequenceEnd :: rest := by
      rw [Parse.tail, hqtokens, hp, List.tail_cons]
    have hitems : parseFlowItems fuel true q.tail = .ok (items, { q with tokens := rest }) :=
      parseFlowItems_flowItems h ih (by omega) hqroom hinside
    rw [parseNode_of_opens hp rfl, parseContent, hp]
    simp only [hdeeper, Except.bind, hitems, parseContent.sequence, Except.map, hback]
  | @mapping room entries hnames hvalues ihNames ihValues =>
    intro fuel block flush p rest hfuel hroom hp
    rw [flowTokens, List.length_cons, List.length_append, List.length_singleton] at hfuel
    obtain ⟨fuel, rfl⟩ : ∃ f, fuel = f + 2 := ⟨fuel - 2, by omega⟩
    rw [flowTokens, List.cons_append, List.append_assoc, List.singleton_append] at hp
    obtain ⟨q, hdeeper, hqroom, hqtokens, hback⟩ := Parse.deeper_of_le hroom
    have hinside : q.tail.tokens = flowEntries true entries ++ .flowMappingEnd :: rest := by
      rw [Parse.tail, hqtokens, hp, List.tail_cons]
    have hentries : parseFlowEntries fuel true q.tail = .ok (entries, { q with tokens := rest }) :=
      parseFlowEntries_flowEntries (fun e he => ⟨hnames e he, hvalues e he⟩)
        (fun e he => ⟨ihNames e he, ihValues e he⟩) (by omega) hqroom hinside
    rw [parseNode_of_opens hp rfl, parseContent, hp]
    simp only [hdeeper, Except.bind, hentries, parseContent.mapping, Except.map, hback]

end Read

/-- **The tokens of a node are a document with it.** -/
theorem Node.ofTokens?_flowTokens {n : Node} {room : Nat} (h : n.Nests room)
    (hroom : room ≤ maxNesting) :
    Node.ofTokens? n.flowTokens = .ok (some n) := by
  obtain ⟨t, ts, htokens, hopens⟩ := h.exists_head
  have hsome : n.flowTokens.isEmpty = false := by rw [htokens, List.isEmpty_cons]
  have hplain : Parse.at { tokens := n.flowTokens } [.documentStart] = false :=
    h.at_eq_false (List.append_nil _).symm (by decide)
  have hdirective : Parse.atDirective { tokens := n.flowTokens } = false := by
    rw [htokens]
    cases t <;> first | rfl | cases hopens
  have hnode : parseNode (4 * n.flowTokens.length + 4) true false { tokens := n.flowTokens }
      = .ok (n, { tokens := [] }) :=
    h.isRead _ true false _ [] (by omega) hroom (List.append_nil _).symm
  rw [ofTokens?, hsome, parseDocument]
  simp only [hplain, hdirective, hnode, bind, Except.bind, Bool.or_self, Bool.false_eq_true,
    if_false]
  rfl

end Workflow.Yaml
