import Workflow.Proofs.Graph.Validity
import Workflow.Proofs.Run.Walk
import Workflow.Proofs.Transform.Record

/-!
# What a failing run is caused by

The error of a run wraps the one that stopped it, and so on down to the error that came first. That
first error is one of a short list, each with its own reason, unless a node was asked for more than
its arithmetic or its reader can do: to multiply a double with an integer beyond all doubles, to
append an integer of too many digits, or to read a payload that is nested too deep.
-/

namespace Workflow

/-! ### Chains of errors -/

/-- An error of the arithmetic or of the reader that a run is built upon. -/
inductive Strain where
  | overflow
  | longInteger
  | deepPayload (kind : Json.Collection)
deriving DecidableEq

/-- One error in the chain of errors that a failing run ends with. -/
inductive Cause where
  /-- The run was stopped after the given last entry of its trace. -/
  | run (last : Option TraceEntry)
  /-- The node of the given id, label and type failed. -/
  | node (id label : String) (type : NodeType)
  /-- The operation of the given name failed. -/
  | operation (name : String)
  | emptyWorkflow
  | missingStart
  | missingEnd
  | cycle (id label : String)
  | dangling (target : String)
  | invalidPayload
  | missingInput
  | transform (e : TransformError)
  | strain (s : Strain)

namespace Cause

/-- Whether an error only says where another one happened. -/
def isWrapper : Cause → Bool
  | run _ | node .. | operation _ => true
  | _ => false

/-- Whether an error is none of those that a run has names for. -/
def isStrain : Cause → Bool
  | strain _ => true
  | _ => false

/-- The innermost error of a chain whose first error is given, all wrappers removed. -/
def innermost : Cause → List Cause → Cause
  | c, [] => c
  | c, next :: rest => if c.isWrapper then innermost next rest else c

end Cause

/-- The errors in a failing node, the outermost first. -/
def NodeError.causes : NodeError → List Cause
  | invalidPayload => [.invalidPayload]
  | deepPayload kind => [.strain (.deepPayload kind)]
  | missingInput => [.missingInput]
  | refused operation cause => [.operation operation, .transform cause]
  | overflow => [.strain .overflow]
  | longInteger => [.strain .longInteger]

/-- The errors that stopped a run, the outermost first. -/
def WalkError.causes : WalkError → List Cause
  | cycle id label => [.cycle id label]
  | dangling target => [.dangling target]
  | node id label type cause => .node id label type :: cause.causes

/-- The outermost error of a run. -/
def RunError.outermost : RunError → Cause
  | emptyWorkflow => .emptyWorkflow
  | missingStart => .missingStart
  | missingEnd => .missingEnd
  | stopped _ last => .run last

/-- The errors that the outermost error of a run was caused by, one by the other. -/
def RunError.causes : RunError → List Cause
  | stopped cause _ => cause.causes
  | _ => []

/-- The error that a failing run goes back to. -/
def RunError.rootCause (e : RunError) : Cause :=
  e.outermost.innermost e.causes

/-! ### Operations that fail -/

/-- A number, or a member of a record, overflows as it is multiplied. -/
def Value.Overflows (factor : Number) : Value → Prop
  | .object ms => ∃ before name v after, ms = before ++ (name, v) :: after ∧
      (∀ m ∈ before, Operation.Scales factor m.2) ∧ Operation.Balks factor name v .overflow
  | v => ∃ a, Number.ofValue? v = some a ∧ a.Overflows factor

namespace TransformData

/-- The number that a node multiplies by. -/
def MultipliesBy (d : TransformData) (factor : Number) : Prop :=
  d.operation = "multiply" ∧ Operation.multiplier d.operand.toValue = .ok factor

/-- Why the operation of a node refuses its input. -/
inductive Refuses (d : TransformData) (input : Value) : TransformError → Prop where
  | unknownOperation (h : d.operation ∉ ["uppercase", "lowercase", "append", "multiply"]) :
      Refuses d input (.unknownOperation d.operation)
  | missingMultiplier (h : d.operation = "multiply")
      (hnone : d.operand = .none ∨ d.operand = .text "") : Refuses d input .missingMultiplier
  | unreadableMultiplier {s : String} (h : d.operation = "multiply") (hs : d.operand = .text s)
      (hne : s ≠ "") (hnumber : Number.ofText? s = none) :
      Refuses d input (.unreadableMultiplier s)
  | textInput {factor : Number} {s : String} (h : d.MultipliesBy factor) (hs : input = .str s) :
      Refuses d input .textInput
  | textMember {factor : Number} {before after : List (String × Value)} {name s : String}
      (h : d.MultipliesBy factor) (hs : input = .object (before ++ (name, .str s) :: after))
      (hbefore : ∀ m ∈ before, Operation.Scales factor m.2) : Refuses d input (.textMember name)
  | unsupportedInput {factor : Number} (h : d.MultipliesBy factor)
      (hinput : input = .null ∨ (∃ b, input = .bool b) ∨ ∃ items, input = .list items) :
      Refuses d input (.unsupportedInput (Operation.kindName input))

/-- What the operation of a node asks of arithmetic that it cannot do. -/
inductive Strains (d : TransformData) (input : Value) : Strain → Prop where
  | overflow {factor : Number} (h : d.MultipliesBy factor) (hover : input.Overflows factor) :
      Strains d input .overflow
  | longInteger {n : Int} (h : d.operation = "append") (hn : d.operand = .int n)
      (hlong : Literal.maxIntegerDigits < Double.digitCount n.natAbs) :
      Strains d input .longInteger

end TransformData

/-- How the operation of a node fails on an input. -/
inductive TransformData.Fails (d : TransformData) (input : Value) : OperationFailure → Prop where
  | refused {e : TransformError} (h : d.Refuses input e) : Fails d input (.refused e)
  | overflow (h : d.Strains input .overflow) : Fails d input .overflow
  | longInteger (h : d.Strains input .longInteger) : Fails d input .longInteger

namespace Operation

lemma ofName?_eq_none_iff {s : String} :
    ofName? s = none ↔ s ∉ ["uppercase", "lowercase", "append", "multiply"] := by
  rw [ofName?]
  split_ifs <;> simp_all

/-- The name that an operation goes by. -/
def name : Operation → String
  | uppercase => "uppercase"
  | lowercase => "lowercase"
  | append => "append"
  | multiply => "multiply"

lemma ofName?_name (operation : Operation) : ofName? operation.name = some operation := by
  cases operation <;> rfl

lemma eq_name_of_ofName? {s : String} {operation : Operation}
    (h : ofName? s = some operation) : s = operation.name := by
  rw [ofName?] at h
  split_ifs at h with hs hs hs hs <;> obtain rfl := Option.some.inj h <;> exact hs

lemma suffix_eq_error_iff {o : Operand} {f : OperationFailure} :
    suffix o.toValue = .error f ↔
      (∃ n, o = .int n ∧ Literal.maxIntegerDigits < Double.digitCount n.natAbs) ∧
        f = .longInteger := by
  cases o with
  | none => simp [suffix, Operand.toValue]
  | text s => simp [suffix, Operand.toValue, Value.mostDigits]
  | int n =>
    simp only [suffix, Operand.toValue, Value.mostDigits]
    split_ifs with hlong <;> simp [hlong, eq_comm]
  | float x =>
    simp only [suffix, Operand.toValue]
    cases Double.toInt? x <;> simp

lemma multiplier_eq_error_iff {o : Operand} {e : TransformError} :
    multiplier o.toValue = .error e ↔
      (o = .none ∨ o = .text "") ∧ e = .missingMultiplier ∨
        ∃ s, o = .text s ∧ s ≠ "" ∧ Number.ofText? s = none ∧ e = .unreadableMultiplier s := by
  cases o with
  | none => simp [multiplier, Operand.toValue, eq_comm]
  | text s =>
    by_cases hs : s = ""
    · simp [multiplier, Operand.toValue, hs, eq_comm]
    · have hparse : multiplier (Operand.text s).toValue = parseMultiplier (.str s) := by
        rw [Operand.toValue, multiplier]
        · nofun
        · exact fun h => hs (Value.str.inj h)
      cases hnumber : Number.ofText? s with
      | none => simp [hparse, parseMultiplier, hnumber, hs, eq_comm]
      | some a => simp [hparse, parseMultiplier, hnumber, hs]
  | int n => simp [multiplier, Operand.toValue, parseMultiplier]
  | float x => simp [multiplier, Operand.toValue, parseMultiplier]

end Operation

namespace TransformData

variable {d : TransformData} {factor : Number} {input : Value} {f : OperationFailure}

lemma applyNamed_eq_apply (operation : Operation) (h : d.operation = operation.name) :
    Operation.applyNamed d.operation input d.operand.toValue
      = operation.apply input d.operand.toValue := by
  rw [Operation.applyNamed, h, Operation.ofName?_name]

lemma MultipliesBy.applyNamed (h : d.MultipliesBy factor) (input : Value) :
    Operation.applyNamed d.operation input d.operand.toValue
      = Operation.scaleInput factor input := by
  rw [applyNamed_eq_apply .multiply h.1, Operation.apply, h.2]

/-- A multiplication that has a multiplier fails by its input alone. -/
lemma MultipliesBy.fails_of_scaleInput (h : d.MultipliesBy factor)
    (hfails : Operation.scaleInput factor input = .error f) : d.Fails input f := by
  cases input with
  | str s =>
    obtain rfl : .refused .textInput = f := Except.error.inj hfails
    exact .refused (.textInput h rfl)
  | int n =>
    obtain ⟨hover, rfl⟩ := Operation.scale_eq_error_iff.1 hfails
    exact .overflow (.overflow h ⟨_, rfl, hover⟩)
  | float x =>
    obtain ⟨hover, rfl⟩ := Operation.scale_eq_error_iff.1 hfails
    exact .overflow (.overflow h ⟨_, rfl, hover⟩)
  | object ms =>
    have hmembers : Operation.scaleMembers factor ms = .error f := by
      rw [Operation.scaleInput] at hfails
      cases hms : Operation.scaleMembers factor ms <;> simp_all [Except.map]
    obtain ⟨before, name, v, after, rfl, hbefore, hbalks⟩ :=
      Operation.scaleMembers_eq_error_iff.1 hmembers
    cases hbalks with
    | text s => exact .refused (.textMember h rfl hbefore)
    | overflow ha hover =>
      exact .overflow (.overflow h ⟨before, name, v, after, rfl, hbefore, .overflow ha hover⟩)
  | null =>
    obtain rfl := Except.error.inj hfails
    exact .refused (.unsupportedInput h (.inl rfl))
  | bool b =>
    obtain rfl := Except.error.inj hfails
    exact .refused (.unsupportedInput h (.inr (.inl ⟨b, rfl⟩)))
  | list items =>
    obtain rfl := Except.error.inj hfails
    exact .refused (.unsupportedInput h (.inr (.inr ⟨items, rfl⟩)))

lemma scaleInput_of_overflows (h : input.Overflows factor) :
    Operation.scaleInput factor input = .error .overflow := by
  cases input with
  | object ms =>
    rw [Operation.scaleInput, Operation.scaleMembers_eq_error_iff.2 h]
    rfl
  | int n | float x =>
    obtain ⟨a, ha, hover⟩ := h
    obtain rfl := Option.some.inj ha
    exact Operation.scale_eq_error_iff.2 ⟨hover, rfl⟩
  | null | bool b | str s | list items =>
    obtain ⟨a, ha, -⟩ := h
    cases ha

lemma fails_of_apply_append (hname : d.operation = "append")
    (hfails : Operation.append.apply input d.operand.toValue = .error f) : d.Fails input f := by
  have hsuffix : Operation.suffix d.operand.toValue = .error f := by
    simp only [Operation.apply] at hfails
    cases hs : Operation.suffix d.operand.toValue <;> simp_all [Except.map]
  obtain ⟨⟨n, hn, hlong⟩, rfl⟩ := Operation.suffix_eq_error_iff.1 hsuffix
  exact .longInteger (.longInteger hname hn hlong)

lemma fails_of_apply_multiply (hname : d.operation = "multiply")
    (hfails : Operation.multiply.apply input d.operand.toValue = .error f) : d.Fails input f := by
  rw [Operation.apply] at hfails
  cases hfactor : Operation.multiplier d.operand.toValue with
  | ok factor =>
    rw [hfactor] at hfails
    exact MultipliesBy.fails_of_scaleInput ⟨hname, hfactor⟩ hfails
  | error e =>
    rw [hfactor] at hfails
    obtain rfl := Except.error.inj hfails
    rcases Operation.multiplier_eq_error_iff.1 hfactor with
      ⟨hnone, rfl⟩ | ⟨s, hs, hne, hnumber, rfl⟩
    · exact .refused (.missingMultiplier hname hnone)
    · exact .refused (.unreadableMultiplier hname hs hne hnumber)

lemma fails_of_applyNamed
    (hfails : Operation.applyNamed d.operation input d.operand.toValue = .error f) :
    d.Fails input f := by
  cases hname : Operation.ofName? d.operation with
  | none =>
    rw [Operation.applyNamed, hname] at hfails
    obtain rfl := Except.error.inj hfails
    exact .refused (.unknownOperation (Operation.ofName?_eq_none_iff.1 hname))
  | some operation =>
    have hoperation := Operation.eq_name_of_ofName? hname
    rw [applyNamed_eq_apply operation hoperation] at hfails
    cases operation with
    | uppercase | lowercase => cases hfails
    | append => exact fails_of_apply_append hoperation hfails
    | multiply => exact fails_of_apply_multiply hoperation hfails

lemma applyNamed_of_multiplier {e : TransformError} (hname : d.operation = "multiply")
    (h : Operation.multiplier d.operand.toValue = .error e) :
    Operation.applyNamed d.operation input d.operand.toValue = .error (.refused e) := by
  rw [applyNamed_eq_apply .multiply hname, Operation.apply, h]

lemma Refuses.applyNamed {e : TransformError} (h : d.Refuses input e) :
    Operation.applyNamed d.operation input d.operand.toValue = .error (.refused e) := by
  cases h with
  | unknownOperation h => rw [Operation.applyNamed, Operation.ofName?_eq_none_iff.2 h]
  | missingMultiplier h hnone =>
    exact applyNamed_of_multiplier h (Operation.multiplier_eq_error_iff.2 (.inl ⟨hnone, rfl⟩))
  | unreadableMultiplier h hs hne hnumber =>
    apply applyNamed_of_multiplier h
    exact Operation.multiplier_eq_error_iff.2 (.inr ⟨_, hs, hne, hnumber, rfl⟩)
  | textInput h hs =>
    rw [h.applyNamed, hs]
    rfl
  | @textMember factor before after name s h hs hbefore =>
    have hmembers := Operation.scaleMembers_eq_error_iff.2
      ⟨before, name, .str s, after, rfl, hbefore, .text s⟩
    rw [h.applyNamed, hs, Operation.scaleInput, hmembers]
    rfl
  | unsupportedInput h hinput =>
    rw [h.applyNamed]
    rcases hinput with rfl | ⟨b, rfl⟩ | ⟨items, rfl⟩ <;> rfl

lemma Fails.applyNamed (h : d.Fails input f) :
    Operation.applyNamed d.operation input d.operand.toValue = .error f := by
  cases h with
  | refused h => exact h.applyNamed
  | overflow h =>
    cases h with
    | overflow h hover => rw [h.applyNamed, scaleInput_of_overflows hover]
  | longInteger h =>
    cases h with
    | longInteger h hn hlong =>
      rw [applyNamed_eq_apply .append h, Operation.apply,
        Operation.suffix_eq_error_iff.2 ⟨⟨_, hn, hlong⟩, rfl⟩]
      rfl

/-- How the operation of a node fails, and why. -/
lemma applyNamed_eq_error_iff :
    Operation.applyNamed d.operation input d.operand.toValue = .error f ↔ d.Fails input f :=
  ⟨fails_of_applyNamed, Fails.applyNamed⟩

end TransformData

/-! ### Nodes that fail -/

/-- What a node asks of the arithmetic or of the reader that it cannot do. -/
inductive Node.Strains (n : Node) (input : Value) : Strain → Prop where
  | operation {d : TransformData} {s : Strain} (hd : n.payload = .transform d)
      (hinput : input ≠ .null) (h : d.Strains input s) : Strains n input s
  | deepPayload {d : StartData} {kind : Json.Collection} (hd : n.payload = .start d)
      (h : Json.read .payload d.payload = .error (.tooDeep kind)) :
      Strains n input (.deepPayload kind)

/-- The errors that a node fails with on an input, the outermost first, and why it does. -/
inductive Node.FailsBy (n : Node) (input : Value) : List Cause → Prop where
  | invalidPayload {d : StartData} (hd : n.payload = .start d)
      (h : Json.read .payload d.payload = .error .malformed) : FailsBy n input [.invalidPayload]
  | missingInput {d : TransformData} (hd : n.payload = .transform d) (h : input = .null) :
      FailsBy n input [.missingInput]
  | refused {d : TransformData} {e : TransformError} (hd : n.payload = .transform d)
      (hinput : input ≠ .null) (h : d.Refuses input e) :
      FailsBy n input [.operation d.operation, .transform e]
  | strained {s : Strain} (h : n.Strains input s) : FailsBy n input [.strain s]

section Nodes

variable {n : Node} {d : TransformData} {input : Value} {e : NodeError} {causes : List Cause}

lemma TransformData.evaluate_of_ne_null (hinput : input ≠ .null) :
    d.evaluate input = match Operation.applyNamed d.operation input d.operand.toValue with
      | .ok output => .ok output
      | .error (.refused cause) => .error (.refused d.operation cause)
      | .error .overflow => .error .overflow
      | .error .longInteger => .error .longInteger := by
  cases input with
  | null => exact absurd rfl hinput
  | bool | int | float | str | list | object => rfl

lemma Node.failsBy_of_evaluate (h : n.evaluate input = .error e) : n.FailsBy input e.causes := by
  rw [evaluate] at h
  cases hpayload : n.payload with
  | start d =>
    rw [hpayload] at h
    simp only [StartData.evaluate] at h
    cases hread : Json.read .payload d.payload with
    | ok v => simp [hread] at h
    | error fault =>
      rw [hread] at h
      cases fault with
      | malformed =>
        obtain rfl := Except.error.inj h
        exact .invalidPayload hpayload hread
      | tooDeep kind =>
        obtain rfl := Except.error.inj h
        exact .strained (.deepPayload hpayload hread)
  | transform d =>
    rw [hpayload] at h
    by_cases hinput : input = .null
    · subst hinput
      obtain rfl := Except.error.inj h
      exact .missingInput hpayload rfl
    · simp only [TransformData.evaluate_of_ne_null hinput] at h
      cases happlied : Operation.applyNamed d.operation input d.operand.toValue with
      | ok output => simp [happlied] at h
      | error f =>
        rw [happlied] at h
        cases TransformData.applyNamed_eq_error_iff.1 happlied with
        | refused hrefuses =>
          obtain rfl := Except.error.inj h
          exact .refused hpayload hinput hrefuses
        | overflow hstrains =>
          obtain rfl := Except.error.inj h
          exact .strained (.operation hpayload hinput hstrains)
        | longInteger hstrains =>
          obtain rfl := Except.error.inj h
          exact .strained (.operation hpayload hinput hstrains)
  | finish d =>
    rw [hpayload] at h
    cases h

lemma Node.FailsBy.exists_evaluate (h : n.FailsBy input causes) :
    ∃ e, n.evaluate input = .error e ∧ e.causes = causes := by
  cases h with
  | invalidPayload hd h =>
    exact ⟨.invalidPayload, by simp [evaluate, hd, StartData.evaluate, h], rfl⟩
  | missingInput hd h =>
    exact ⟨.missingInput, by simp [evaluate, hd, h, TransformData.evaluate], rfl⟩
  | refused hd hinput h =>
    have happlied := TransformData.applyNamed_eq_error_iff.2 (.refused h)
    refine ⟨.refused _ _, ?_, rfl⟩
    simp only [evaluate, hd, TransformData.evaluate_of_ne_null hinput, happlied]
  | strained h =>
    cases h with
    | deepPayload hd h =>
      exact ⟨.deepPayload _, by simp [evaluate, hd, StartData.evaluate, h], rfl⟩
    | @operation d s hd hinput h =>
      cases h with
      | overflow h hover =>
        have happlied := TransformData.applyNamed_eq_error_iff.2 (.overflow (.overflow h hover))
        refine ⟨.overflow, ?_, rfl⟩
        simp only [evaluate, hd, TransformData.evaluate_of_ne_null hinput, happlied]
      | longInteger h hn hlong =>
        have hfails : d.Fails input .longInteger := .longInteger (.longInteger h hn hlong)
        have happlied := TransformData.applyNamed_eq_error_iff.2 hfails
        refine ⟨.longInteger, ?_, rfl⟩
        simp only [evaluate, hd, TransformData.evaluate_of_ne_null hinput, happlied]

/-- A node fails with the errors that it has a reason for, and with no others. -/
lemma Node.evaluate_error_iff :
    (∃ e, n.evaluate input = .error e ∧ e.causes = causes) ↔ n.FailsBy input causes := by
  constructor
  · rintro ⟨e, he, rfl⟩
    exact failsBy_of_evaluate he
  · exact FailsBy.exists_evaluate

end Nodes

/-! ### Runs that fail -/

/-- The errors that a run fails with after some entries, the outermost first, and why it does. -/
inductive Graph.FailsBy (g : Graph) (trace : List TraceEntry) : List Cause → Prop where
  | emptyWorkflow (h : g.nodes = []) : FailsBy g trace [.emptyWorkflow]
  | missingStart (hnodes : g.nodes ≠ []) (h : ∀ n ∈ g.nodes, n.type ≠ .start) :
      FailsBy g trace [.missingStart]
  | missingEnd (hstart : ∃ n ∈ g.nodes, n.type = .start) (h : ∀ n ∈ g.nodes, n.type ≠ .finish) :
      FailsBy g trace [.missingEnd]
  | cycle {n : Node} (hn : n ∈ g.nodes) (hv : visited trace n.id = true) :
      FailsBy g trace [.run trace.getLast?, .cycle n.id n.label]
  | dangling {e : Edge} (he : e ∈ g.edges) (h : ∀ n ∈ g.nodes, n.id ≠ e.target) :
      FailsBy g trace [.run trace.getLast?, .dangling e.target]
  | node {n : Node} {input : Value} {causes : List Cause} (hn : n ∈ g.nodes)
      (hv : visited trace n.id = false) (h : n.FailsBy input causes) :
      FailsBy g trace (.run trace.getLast? :: .node n.id n.label n.type :: causes)

section Runs

variable {g : Graph} {clock : Nat → Int} {start : Node}

/-- What waits to be visited is a node, or the target of an edge. -/
def Graph.Leads (g : Graph) (_ : List TraceEntry) (agenda : Agenda) : Prop :=
  ∀ visit ∈ agenda, (∃ n ∈ g.nodes, n.id = visit.1) ∨ ∃ e ∈ g.edges, e.target = visit.1

lemma Graph.keptByVisits_leads (g : Graph) (clock : Nat → Int) : g.KeptByVisits clock g.Leads := by
  intro trace id input later n output h hn hv he visit hvisit
  rcases List.mem_append.1 hvisit with hnew | hlater
  · obtain ⟨e, he, rfl⟩ := List.mem_map.1 hnew
    exact .inr ⟨e, List.mem_of_mem_filter he, rfl⟩
  · exact h visit (List.mem_cons_of_mem _ hlater)

/-- A walk that stops has a reason for every one of its errors. -/
lemma Graph.Stops.failsBy {walk : Walk} (h : g.Stops g.Leads walk) {cause : WalkError}
    (hcause : walk.error? = some cause) :
    g.FailsBy walk.trace (.run walk.trace.getLast? :: cause.causes) := by
  cases h with
  | finished h => cases hcause
  | dangling h hn =>
    obtain rfl := Option.some.inj hcause
    have hnone := Graph.find?_eq_none_iff.1 hn
    rcases h _ List.mem_cons_self with ⟨n, hmem, hid⟩ | ⟨e, he, htarget⟩
    · exact absurd hid (hnone n hmem)
    · obtain rfl : e.target = _ := htarget
      exact .dangling he hnone
  | cycle h hn hv =>
    obtain rfl := Option.some.inj hcause
    exact .cycle (Graph.mem_of_find? hn) hv
  | failure h hn hv he =>
    obtain rfl := Option.some.inj hcause
    exact .node (Graph.mem_of_find? hn) hv (Node.evaluate_error_iff.1 ⟨_, he, rfl⟩)

/-- A run that fails has a reason for every one of its errors. -/
lemma Graph.failsBy_of_execute {trace : List TraceEntry} {error : RunError}
    (h : g.execute clock = ⟨trace, some error⟩) :
    g.FailsBy trace (error.outermost :: error.causes) := by
  by_cases hempty : g.nodes = []
  · rw [execute, if_pos (by simp [hempty])] at h
    cases h
    exact .emptyWorkflow hempty
  cases hs : g.start? with
  | none =>
    rw [execute, if_neg (by simpa using hempty), hs] at h
    cases h
    refine .missingStart hempty fun n hn htype => ?_
    exact absurd (List.find?_eq_none.1 hs n hn) (by simp [htype])
  | some start =>
    cases hend : g.hasEnd with
    | false =>
      rw [execute, if_neg (by simpa using hempty), hs] at h
      simp only [hend, Bool.not_false, if_true] at h
      cases h
      obtain ⟨hmem, htype⟩ := Graph.start?_mem hs
      refine .missingEnd ⟨start, hmem, htype⟩ fun n hn hfinish => ?_
      simp only [hasEnd, List.any_eq_false] at hend
      exact hend n hn (by simp [hfinish])
    | true =>
      rw [execute_of_begins clock hs hend] at h
      have hbegin : g.Leads [] [(start.id, .null)] := by
        intro visit hvisit
        obtain rfl := List.mem_singleton.1 hvisit
        exact .inl ⟨start, (Graph.start?_mem hs).1, rfl⟩
      have hstops := walk_stops (g.keptByVisits_leads clock) [] _ hbegin
      generalize g.walk clock [] [(start.id, .null)] = walk at h hstops
      obtain ⟨htrace, herror⟩ := Run.mk.inj h
      obtain ⟨cause, hcause, rfl⟩ := Option.map_eq_some_iff.1 herror
      subst htrace
      exact hstops.failsBy hcause

end Runs

/--
Every error of a failing run has its reason in the graph, and wraps the next one, down to an error
that is no wrapper. That one has a name of its own, unless a node asked for what arithmetic or the
reader cannot do; then it is just that, and the node is the last that wraps it. What an operation
refuses is wrapped once more, under the name of the operation.
-/
theorem Graph.execute_causes {g : Graph} {clock : Nat → Int} {trace : List TraceEntry}
    {error : RunError} (h : g.execute clock = ⟨trace, some error⟩) :
    g.FailsBy trace (error.outermost :: error.causes) ∧
      error.rootCause.isWrapper = false ∧
      (error.rootCause.isStrain = true ↔ ∃ n ∈ g.nodes, ∃ input s, n.Strains input s ∧
        error.causes = [.node n.id n.label n.type, .strain s]) := by
  have hfails := failsBy_of_execute h
  refine ⟨hfails, ?_⟩
  rw [RunError.rootCause]
  generalize error.outermost = outermost, error.causes = causes at hfails ⊢
  cases hfails with
  | emptyWorkflow | missingStart | missingEnd | cycle | dangling =>
    simp [Cause.innermost, Cause.isWrapper, Cause.isStrain]
  | @node n input _ hn hv hnode =>
    cases hnode with
    | invalidPayload | missingInput | refused =>
      simp [Cause.innermost, Cause.isWrapper, Cause.isStrain]
    | @strained s hstrains =>
      exact ⟨rfl, iff_of_true rfl ⟨n, hn, input, s, hstrains, rfl⟩⟩

/-- A workflow that multiplies 1.5 with an integer. -/
def Graph.product (factor : Int) : Graph where
  nodes := [⟨"a", ⟨0, 0⟩, .start { label := "Start", payload := "1.5" }⟩,
    ⟨"b", ⟨0, 0⟩, .transform
      { label := "Transform", operation := "multiply", operand := .int factor }⟩,
    ⟨"c", ⟨0, 0⟩, .standard .finish⟩]
  edges := [.between "a" "b", .between "b" "c"]

lemma Graph.exists_execute_product {factor : Int} (h : Double.ofInt? factor = none) :
    ∃ trace last e, (Graph.product factor).execute (fun _ => 0) =
      ⟨trace, some (.stopped (.node "b" "Transform" .transform e) last)⟩ ∧
        e.causes = [.strain .overflow] := by
  have hread : Json.read .payload "1.5" =
      .ok (.float (Double.withSign false (Double.ofDecimal 15 (-1)))) := rfl
  generalize Double.withSign false (Double.ofDecimal 15 (-1)) = x at hread
  let a : Node := ⟨"a", ⟨0, 0⟩, .start { label := "Start", payload := "1.5" }⟩
  let d : TransformData := { label := "Transform", operation := "multiply", operand := .int factor }
  let b : Node := ⟨"b", ⟨0, 0⟩, .transform d⟩
  have ha : a.evaluate .null = .ok (.float x) := by
    simp only [a, Node.evaluate, StartData.evaluate, hread]
  have hstrains : b.Strains (.float x) .overflow :=
    .operation rfl (by simp) (.overflow ⟨rfl, rfl⟩ ⟨_, rfl, h⟩)
  obtain ⟨e, hb, hcauses⟩ := Node.evaluate_error_iff.2 (.strained hstrains)
  have hvisits : (Graph.product factor).visitsFrom "a" (.float x) = [("b", .float x)] := rfl
  have hstart : (Graph.product factor).start? = some a := rfl
  rw [Graph.execute_of_begins _ hstart rfl, Graph.walk_visit (n := a) rfl rfl ha, hvisits,
    List.append_nil, Graph.walk_failure rfl rfl hb]
  exact ⟨_, _, e, rfl, hcauses⟩

/-- A product beyond all doubles is not wrapped under the name of the operation. -/
theorem Graph.execute_causes_overflow :
    ∃ trace error, (Graph.product (10 ^ 400)).execute (fun _ => 0) = ⟨trace, some error⟩ ∧
      (Graph.product (10 ^ 400)).FailsBy trace (error.outermost :: error.causes) ∧
      error.causes = [.node "b" "Transform" .transform, .strain .overflow] ∧
      error.rootCause.isWrapper = false ∧
      (error.rootCause.isStrain = true ↔ ∃ n ∈ (Graph.product (10 ^ 400)).nodes, ∃ input s,
        n.Strains input s ∧ error.causes = [.node n.id n.label n.type, .strain s]) := by
  have hfar : Double.ofInt? (10 ^ 400) = none := by decide +kernel
  obtain ⟨trace, last, e, hrun, hcauses⟩ := Graph.exists_execute_product hfar
  obtain ⟨hfails, hroot, hstrain⟩ := Graph.execute_causes hrun
  exact ⟨_, _, hrun, hfails, congrArg _ hcauses, hroot, hstrain⟩

end Workflow
