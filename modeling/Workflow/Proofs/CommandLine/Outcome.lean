import Workflow.CommandLine.Basic
import Workflow.Proofs.Reading.Reasons
import Workflow.Proofs.Storage.Writing
import Workflow.Proofs.Yaml.Plain

/-!
# What becomes of a command

A command that is given a workflow file goes through, or it prints what is wrong, or it ends at once
without a message of its own. This module says which of the three it is, for every file and every
machine: whatever its reader makes of the file, its console refuses, and its stack has no room for.
-/

namespace Workflow.CommandLine

/-- The run of a workflow by a command. -/
def Context.runOf (c : Context) (w : Export) : Run :=
  w.graph.execute fun _ => c.now

/-- What a command that runs a workflow has to print after a run. -/
def Context.tell (c : Context) (run : Run) (json : Bool) : Result :=
  match run.error? with
  | some e => c.reportFailure e run.trace json
  | none => c.reportSuccess run.trace json

/-- What a command that runs a workflow leaves behind after a run. -/
def Context.report (c : Context) (run : Run) (json : Bool) : Result :=
  Machine.standard.print (c.tell run json)

/--
What is wrong for a command that is given a file, as the command says it: with the file, with the
workflow in it, or with its run.
-/
inductive Context.Complaint (c : Context) (m : Machine) (name : CommandName) (file : String)
    (content : ByteArray) : List Printed → Prop where
  /-- The file is no YAML. -/
  | malformed {f : Yaml.Fault} (h : m.yaml content = .error f) (hf : f.isSyntax = true) :
      c.Complaint m name file content [.fault f]
  /-- The file holds something else than a mapping. -/
  | notMapping {d : Document} (h : m.yaml content = .ok d) (hd : ∀ ms, d ≠ .object ms) :
      c.Complaint m name file content
        [.line ("[red]Error: Invalid content in '" ++ Text.escapeMarkup file
          ++ "'. Expected an object, got " ++ d.kind ++ ".[/red]")]
  /-- The mapping is no workflow, for the issues that it has. -/
  | invalid {ms : Members} {issues : List Issue} (h : m.yaml content = .ok (.object ms))
      (hissues : Export.read c.now (.object ms) = .failed issues) :
      c.Complaint m name file content (issues.map issueLine)
  /-- The workflow was run and failed. -/
  | failed {w : Export} {error : RunError} (h : m.load c.now (.file content) = .ok w)
      (hname : name = .run) (herror : (c.runOf w).error? = some error) :
      c.Complaint m name file content
        [.line ("[red]Error:[/red] " ++ Text.escapeMarkup error.message)]
  /-- The workflow was looked through and has problems. -/
  | problematic {w : Export} (h : m.load c.now (.file content) = .ok w)
      (hname : name = .validate) (hproblems : w.graph.problems ≠ []) :
      c.Complaint m name file content
        (w.graph.problems.map fun p => .line ("  [red]• " ++ Text.escapeMarkup p.message ++ "[/]"))

/-- Why a command that is given a file ends at once, its console aside. -/
inductive Context.Halts (c : Context) (m : Machine) (name : CommandName) (json : Bool)
    (content : ByteArray) : Crash → Prop where
  /-- The bytes of the file are no text, or a part of the text is too deep or has no value. -/
  | noDocument {f : Yaml.Fault} (h : m.yaml content = .error f) (hf : f.isSyntax = false) :
      c.Halts m name json content (.noDocument f)
  /-- The trace should be printed as JSON, but is no JSON document. -/
  | unfit {w : Export} {f : DumpFault} (h : m.load c.now (.file content) = .ok w)
      (hname : name = .run) (hjson : json = true) (hdone : (c.runOf w).error? = none)
      (hf : (c.runOf w).trace.mapM TraceEntry.dump = .error f) :
      c.Halts m name json content (.unfit f)
  /-- The trace should be printed, but an integer in it has too many digits. -/
  | longTrace {w : Export} (h : m.load c.now (.file content) = .ok w) (hname : name = .run)
      (hlong : isUnprintable (c.runOf w).trace = true)
      (hdone : (c.runOf w).error? = none → json = true →
        ∃ entries, (c.runOf w).trace.mapM TraceEntry.dump = .ok entries)
      (hfailed : (c.runOf w).error? ≠ none → json = false) :
      c.Halts m name json content .unprintable
  /-- The tree should be drawn, but a place in it cannot be, the first such one. -/
  | undrawn {w : Export} {before after : List (Nat × Option Node)} {place : Nat × Option Node}
      {crash : Crash} (h : m.load c.now (.file content) = .ok w) (hname : name = .tree)
      (hplaces : w.graph.places = before ++ place :: after)
      (hbefore : ∀ earlier ∈ before, m.placeCrash? earlier = none)
      (hcrash : m.placeCrash? place = some crash) : c.Halts m name json content crash

/-- Why a command that is given a file and has something to print ends at once. -/
inductive Context.Breaks (c : Context) (m : Machine) (name : CommandName) (json : Bool)
    (content : ByteArray) (printed : List Printed) : Crash → Prop where
  /-- The console prints everything, but the command ends by itself. -/
  | halts {crash : Crash} (hprints : ∀ p ∈ printed, m.prints p = true)
      (h : c.Halts m name json content crash) : c.Breaks m name json content printed crash
  /-- The console does not print something, and nothing before it kept it from being printed. -/
  | refused {before after : List Printed} {p : Printed} (hprinted : printed = before ++ p :: after)
      (hbefore : ∀ earlier ∈ before, m.prints earlier = true) (hp : m.prints p = false) :
      c.Breaks m name json content printed (.refused p)

/--
A command went through, or printed what was wrong, or ended at once as it should. No file was
touched.
-/
structure Context.Accounts (c : Context) (m : Machine) (name : CommandName) (file : String)
    (content : ByteArray) (ends : Crash → Prop) (result : Result) : Prop where
  files : result.files = c.files
  crash : ∀ crash, result.crash? = some crash ↔ ends crash
  status : result.crash? = none →
    (result.status = 0 ∧ ∀ lines, ¬c.Complaint m name file content lines) ∨
      (result.status = 1 ∧ ∃ lines, c.Complaint m name file content lines ∧ lines ≠ [] ∧
        lines.Sublist result.printed)

namespace Context

variable {c : Context} {m : Machine} {name : CommandName} {file : String} {json : Bool}
  {content : ByteArray} {w : Export} {result : Result} {crash : Crash} {lines : List Printed}
  {ends : Crash → Prop}

/-! ### Results -/

lemma accounts_of_crash (hfiles : result.files = c.files) (hcrash : result.crash? = some crash)
    (h : ends crash) (honly : ∀ other, ends other → other = crash) :
    c.Accounts m name file content ends result where
  files := hfiles
  crash other := by
    rw [hcrash, Option.some.injEq]
    exact ⟨fun heq => heq ▸ h, fun hother => (honly other hother).symm⟩
  status hnone := by cases hcrash.symm.trans hnone

lemma crash_iff_of_none (hcrash : result.crash? = none) (hnot : ∀ crash, ¬ends crash)
    (crash : Crash) : result.crash? = some crash ↔ ends crash := by
  rw [hcrash]
  exact ⟨nofun, fun h => absurd h (hnot crash)⟩

lemma accounts_of_complaint (hfiles : result.files = c.files) (hcrash : result.crash? = none)
    (hstatus : result.status = 1) (hnot : ∀ crash, ¬ends crash)
    (h : c.Complaint m name file content lines) (hne : lines ≠ [])
    (hprinted : lines.Sublist result.printed) : c.Accounts m name file content ends result where
  files := hfiles
  crash := crash_iff_of_none hcrash hnot
  status _ := .inr ⟨hstatus, lines, h, hne, hprinted⟩

lemma accounts_of_success (hfiles : result.files = c.files) (hcrash : result.crash? = none)
    (hstatus : result.status = 0) (hnot : ∀ crash, ¬ends crash)
    (h : ∀ lines, ¬c.Complaint m name file content lines) :
    c.Accounts m name file content ends result where
  files := hfiles
  crash := crash_iff_of_none hcrash hnot
  status _ := .inl ⟨hstatus, h⟩

/-- A command without a complaint ends at once if there is an integer too long to print. -/
lemma accounts_of_printing {long : Prop} [Decidable long] (hfiles : result.files = c.files)
    (hcrash : result.crash? = none) (hstatus : result.status = 0)
    (h : ∀ lines, ¬c.Complaint m name file content lines)
    (hhalts : ∀ crash, ends crash ↔ long ∧ crash = .unprintable) :
    c.Accounts m name file content ends (if long then c.crashing .unprintable else result) := by
  split_ifs with hlong
  · exact accounts_of_crash rfl rfl ((hhalts _).2 ⟨hlong, rfl⟩) fun other hother =>
      ((hhalts other).1 hother).2
  · exact accounts_of_success hfiles hcrash hstatus
      (fun crash hcrash => hlong ((hhalts crash).1 hcrash).1) h

/-! ### Files without a workflow -/

lemma load_of_error {f : Yaml.Fault} (h : m.yaml content = .error f) :
    m.load c.now (.file content) = .error (.unreadable f) := by
  rw [Machine.load, h]
  rfl

lemma load_of_other {d : Document} (h : m.yaml content = .ok d) (hd : ∀ ms, d ≠ .object ms) :
    m.load c.now (.file content) = .error (.notMapping d.kind) := by
  rw [Machine.load, h]
  cases d with
  | object ms => exact absurd rfl (hd ms)
  | _ => rfl

lemma load_of_mapping {ms : Members} (h : m.yaml content = .ok (.object ms)) :
    m.load c.now (.file content)
      = (Export.read c.now (.object ms)).toExcept.mapError .invalid := by
  rw [Machine.load, h]
  rfl

/-- Without a workflow a command ends at once only if there is no document either. -/
lemma Halts.of_error {e : LoadError} (h : c.Halts m name json content crash)
    (hload : m.load c.now (.file content) = .error e) :
    ∃ f, m.yaml content = .error f ∧ f.isSyntax = false ∧ crash = .noDocument f := by
  cases h with
  | noDocument hread hf => exact ⟨_, hread, hf, rfl⟩
  | unfit hother | longTrace hother | undrawn hother => cases hload.symm.trans hother

lemma not_halts_of_document {d : Document} {e : LoadError} (h : m.yaml content = .ok d)
    (hload : m.load c.now (.file content) = .error e) (crash : Crash) :
    ¬c.Halts m name json content crash := by
  intro hcrash
  obtain ⟨f, hf, -⟩ := hcrash.of_error hload
  cases h.symm.trans hf

lemma accounts_of_unreadable {f : Yaml.Fault} (h : m.yaml content = .error f) :
    c.Accounts m name file content (c.Halts m name json content)
      (c.refuse file (.unreadable f)) := by
  have hload : m.load c.now (.file content) = .error (.unreadable f) := load_of_error h
  have honly : ∀ other, c.Halts m name json content other →
      f.isSyntax = false ∧ other = .noDocument f := by
    intro other hother
    obtain ⟨f', hf', hne, rfl⟩ := hother.of_error hload
    cases h.symm.trans hf'
    exact ⟨hne, rfl⟩
  rw [refuse]
  split_ifs with hf
  · refine accounts_of_complaint rfl rfl rfl (fun other hother => ?_) (.malformed h hf)
      (List.cons_ne_nil _ _) (List.sublist_cons_self _ _)
    cases hf.symm.trans (honly other hother).1
  · exact accounts_of_crash rfl rfl (.noDocument h (by simpa using hf)) fun other hother =>
      (honly other hother).2

lemma accounts_of_notMapping {d : Document} (h : m.yaml content = .ok d)
    (hd : ∀ ms, d ≠ .object ms) :
    c.Accounts m name file content (c.Halts m name json content)
      (c.refuse file (.notMapping d.kind)) :=
  accounts_of_complaint rfl rfl rfl (not_halts_of_document h (load_of_other h hd))
    (.notMapping h hd) (List.cons_ne_nil _ _) (.refl _)

lemma accounts_of_invalid {ms : Members} {issues : List Issue}
    (h : m.yaml content = .ok (.object ms))
    (hissues : Export.read c.now (.object ms) = .failed issues) :
    c.Accounts m name file content (c.Halts m name json content)
      (c.refuse file (.invalid issues)) := by
  have hload : m.load c.now (.file content) = .error (.invalid issues) := by
    rw [load_of_mapping h, hissues]
    rfl
  have hne : issues ≠ [] := by
    rintro rfl
    exact Export.hasReason_read c.now (.object ms) hissues
  exact accounts_of_complaint rfl rfl rfl (not_halts_of_document h hload) (.invalid h hissues)
    (by simpa using hne) (List.sublist_cons_self _ _)

/-! ### Files with a workflow -/

/-- A file with a workflow holds a document, and a command has to go on with it to complain. -/
lemma complaint_iff_of_ok (hload : m.load c.now (.file content) = .ok w) :
    c.Complaint m name file content lines ↔
      (name = .run ∧ ∃ error, (c.runOf w).error? = some error ∧
        lines = [.line ("[red]Error:[/red] " ++ Text.escapeMarkup error.message)]) ∨
      (name = .validate ∧ w.graph.problems ≠ [] ∧ lines = w.graph.problems.map fun p =>
        .line ("  [red]• " ++ Text.escapeMarkup p.message ++ "[/]")) := by
  constructor
  · intro h
    cases h with
    | malformed h _ => cases hload.symm.trans (load_of_error h)
    | notMapping h hd => cases hload.symm.trans (load_of_other h hd)
    | invalid h hissues =>
      rw [load_of_mapping h, hissues] at hload
      cases hload
    | failed hother hname herror =>
      cases hload.symm.trans hother
      exact .inl ⟨hname, _, herror, rfl⟩
    | problematic hother hname hproblems =>
      cases hload.symm.trans hother
      exact .inr ⟨hname, hproblems, rfl⟩
  · rintro (⟨hname, error, herror, rfl⟩ | ⟨hname, hproblems, rfl⟩)
    · exact .failed hload hname herror
    · exact .problematic hload hname hproblems

lemma halts_iff_of_ok (hload : m.load c.now (.file content) = .ok w) :
    c.Halts m name json content crash ↔
      (name = .run ∧ json = true ∧ (c.runOf w).error? = none ∧
        ∃ f, (c.runOf w).trace.mapM TraceEntry.dump = .error f ∧ crash = .unfit f) ∨
      (name = .run ∧ isUnprintable (c.runOf w).trace = true ∧
        ((c.runOf w).error? = none → json = true →
          ∃ entries, (c.runOf w).trace.mapM TraceEntry.dump = .ok entries) ∧
        ((c.runOf w).error? ≠ none → json = false) ∧ crash = .unprintable) ∨
      (name = .tree ∧ w.graph.places.findSome? m.placeCrash? = some crash) := by
  constructor
  · intro h
    cases h with
    | noDocument h => cases hload.symm.trans (load_of_error h)
    | unfit hother hname hjson hdone hf =>
      cases hload.symm.trans hother
      exact .inl ⟨hname, hjson, hdone, _, hf, rfl⟩
    | longTrace hother hname hlong hdone hfailed =>
      cases hload.symm.trans hother
      exact .inr (.inl ⟨hname, hlong, hdone, hfailed, rfl⟩)
    | undrawn hother hname hplaces hbefore hcrash =>
      cases hload.symm.trans hother
      exact .inr (.inr ⟨hname,
        List.findSome?_eq_some_iff.2 ⟨_, _, _, hplaces, hcrash, hbefore⟩⟩)
  · rintro (⟨hname, hjson, hdone, f, hf, rfl⟩ | ⟨hname, hlong, hdone, hfailed, rfl⟩ |
      ⟨hname, hcrash⟩)
    · exact .unfit hload hname hjson hdone hf
    · exact .longTrace hload hname hlong hdone hfailed
    · obtain ⟨before, place, after, hplaces, hplace, hbefore⟩ :=
        List.findSome?_eq_some_iff.1 hcrash
      exact .undrawn hload hname hplaces hbefore hplace

lemma accounts_validate (hload : m.load c.now (.file content) = .ok w) :
    c.Accounts m .validate file content (c.Halts m .validate json content) (c.validate w) := by
  have hnot : ∀ crash, ¬c.Halts m .validate json content crash := by
    simp [halts_iff_of_ok hload]
  rw [validate]
  cases hproblems : w.graph.problems with
  | nil =>
    refine accounts_of_success rfl rfl rfl hnot fun lines => ?_
    simp [complaint_iff_of_ok hload, hproblems]
  | cons p ps =>
    have hne : w.graph.problems ≠ [] := by simp [hproblems]
    refine accounts_of_complaint rfl rfl rfl hnot (.problematic hload rfl hne)
      (by simp [hproblems]) ?_
    rw [hproblems]
    exact List.Sublist.trans (List.sublist_cons_self _ _) (List.sublist_append_right _ _)

lemma accounts_tree (hload : m.load c.now (.file content) = .ok w) :
    c.Accounts m .tree file content (c.Halts m .tree json content) (c.showTree m file w) := by
  have hhalts : ∀ crash, c.Halts m .tree json content crash ↔
      w.graph.places.findSome? m.placeCrash? = some crash := by
    simp [halts_iff_of_ok hload]
  rw [showTree]
  cases hcrash : w.graph.places.findSome? m.placeCrash? with
  | some crash =>
    exact accounts_of_crash rfl rfl ((hhalts crash).2 hcrash) fun other hother =>
      Option.some.inj (((hhalts other).1 hother).symm.trans hcrash)
  | none =>
    refine accounts_of_success rfl rfl rfl (fun crash h => ?_) (by simp [complaint_iff_of_ok hload])
    cases hcrash.symm.trans ((hhalts crash).1 h)

lemma accounts_run_of_failure {error : RunError}
    (hload : m.load c.now (.file content) = .ok w)
    (herror : (c.runOf w).error? = some error) :
    c.Accounts m .run file content (c.Halts m .run json content)
      (c.reportFailure error (c.runOf w).trace json) := by
  have hhalts : ∀ crash, c.Halts m .run json content crash ↔
      isUnprintable (c.runOf w).trace = true ∧ json = false ∧ crash = .unprintable := by
    simp [halts_iff_of_ok hload, herror]
  have hcomplaint := (Complaint.failed hload rfl herror : c.Complaint m .run file content _)
  rw [reportFailure]
  split_ifs with hshort hlong
  · refine accounts_of_complaint rfl rfl rfl (fun crash hcrash => ?_) hcomplaint
      (List.cons_ne_nil _ _) (.refl _)
    obtain ⟨hlong, hjson, -⟩ := (hhalts crash).1 hcrash
    -- an empty trace holds no integer, and JSON was not asked for
    cases htrace : (c.runOf w).trace <;> simp [htrace, hjson, isUnprintable] at hshort hlong
  · obtain ⟨-, hjson⟩ : (c.runOf w).trace ≠ [] ∧ json = false := by simpa using hshort
    exact accounts_of_crash rfl rfl ((hhalts _).2 ⟨hlong, hjson, rfl⟩) fun other hother =>
      ((hhalts other).1 hother).2.2
  · exact accounts_of_complaint rfl rfl rfl (fun crash hcrash => hlong ((hhalts crash).1 hcrash).1)
      hcomplaint (List.cons_ne_nil _ _) (List.cons_sublist_cons.2 (List.nil_sublist _))

lemma accounts_run_of_success (hload : m.load c.now (.file content) = .ok w)
    (hdone : (c.runOf w).error? = none) :
    c.Accounts m .run file content (c.Halts m .run json content)
      (c.reportSuccess (c.runOf w).trace json) := by
  have hnone : ∀ lines, ¬c.Complaint m .run file content lines := by
    simp [complaint_iff_of_ok hload, hdone]
  cases json with
  | false =>
    rw [reportSuccess, if_neg Bool.false_ne_true]
    exact accounts_of_printing rfl rfl rfl hnone (by simp [halts_iff_of_ok hload, hdone])
  | true =>
    rw [reportSuccess, if_pos rfl]
    cases hdump : (c.runOf w).trace.mapM TraceEntry.dump with
    | error f =>
      have hhalts : ∀ crash, c.Halts m .run true content crash ↔ crash = .unfit f := by
        simp [halts_iff_of_ok hload, hdone, hdump]
      exact accounts_of_crash rfl rfl ((hhalts _).2 rfl) fun other => (hhalts other).1
    | ok entries =>
      exact accounts_of_printing rfl rfl rfl hnone (by simp [halts_iff_of_ok hload, hdone, hdump])

lemma accounts_run (hload : m.load c.now (.file content) = .ok w) :
    c.Accounts m .run file content (c.Halts m .run json content) (c.run w json) := by
  have hrun : c.run w json = c.tell (c.runOf w) json := rfl
  rw [hrun, tell]
  cases herror : (c.runOf w).error? with
  | some error => exact accounts_run_of_failure hload herror
  | none => exact accounts_run_of_success hload herror

/-! ### The console -/

/-- Not everything is printed where something is refused. -/
lemma not_prints_of_refused {printed before after : List Printed} {p : Printed}
    (hprinted : printed = before ++ p :: after) (hp : m.prints p = false) :
    ¬∀ p ∈ printed, m.prints p = true := by
  intro hprints
  have hmem : p ∈ printed := hprinted ▸ List.mem_append_cons_self
  simp [hprints p hmem] at hp

/-- On a console a command comes to the same, unless something is not printed. -/
lemma Accounts.print {tried : Result}
    (h : c.Accounts m name file content (c.Halts m name json content) tried) :
    c.Accounts m name file content (c.Breaks m name json content tried.printed)
      (m.print tried) := by
  rw [Machine.print]
  cases hfind : tried.printed.find? fun p => !m.prints p with
  | none =>
    have hprints : ∀ p ∈ tried.printed, m.prints p = true := by simpa using hfind
    refine ⟨h.files, fun crash => (h.crash crash).trans ⟨.halts hprints, fun hbreaks => ?_⟩,
      h.status⟩
    cases hbreaks with
    | halts _ hhalts => exact hhalts
    | refused hprinted _ hp => exact absurd hprints (not_prints_of_refused hprinted hp)
  | some p =>
    obtain ⟨hp, before, after, hprinted, hbefore⟩ := List.find?_eq_some_iff_append.1 hfind
    simp only [Bool.not_eq_true'] at hp
    simp only [Bool.not_not] at hbefore
    refine accounts_of_crash h.files rfl (.refused hprinted hbefore hp) fun other hother => ?_
    cases hother with
    | halts hprints _ => exact absurd hprints (not_prints_of_refused hprinted hp)
    | @refused before' after' p' hprinted' hbefore' hp' =>
      -- both are the first thing that is not printed
      have hfind' : tried.printed.find? (fun p => !m.prints p) = some p' := by
        rw [List.find?_eq_some_iff_append]
        exact ⟨by simp [hp'], before', after', hprinted', by simpa using hbefore'⟩
      rw [Option.some.inj (hfind.symm.trans hfind')]

/-! ### Commands that are given a file -/

lemma attempt_of_error {e : LoadError} (hname : name.takesFile = true)
    (hnul : file.contains '\x00' = false) (hfile : c.files.findText? file = some (.file content))
    (hload : m.load c.now (.file content) = .error e) :
    c.attempt m (.command name file json) = .ok (c.refuse file e) := by
  cases name with
  | init | version => cases hname
  | run | tree | validate =>
    simp only [attempt, hnul, hfile, hload, Bool.false_eq_true, if_false]

lemma accounts_attempt_of_ok (hname : name.takesFile = true) (hnul : file.contains '\x00' = false)
    (hfile : c.files.findText? file = some (.file content))
    (hload : m.load c.now (.file content) = .ok w) :
    ∃ tried, c.attempt m (.command name file json) = .ok tried ∧
      c.Accounts m name file content (c.Halts m name json content) tried := by
  cases name with
  | init | version => cases hname
  | run =>
    refine ⟨c.run w json, ?_, accounts_run hload⟩
    simp only [attempt, hnul, hfile, hload, Bool.false_eq_true, if_false]
  | tree =>
    refine ⟨c.showTree m file w, ?_, accounts_tree hload⟩
    simp only [attempt, hnul, hfile, hload, Bool.false_eq_true, if_false]
  | validate =>
    refine ⟨c.validate w, ?_, accounts_validate hload⟩
    simp only [attempt, hnul, hfile, hload, Bool.false_eq_true, if_false]

lemma accounts_attempt (hname : name.takesFile = true) (hnul : file.contains '\x00' = false)
    (hfile : c.files.findText? file = some (.file content)) :
    ∃ tried, c.attempt m (.command name file json) = .ok tried ∧
      c.Accounts m name file content (c.Halts m name json content) tried := by
  cases hread : m.yaml content with
  | error f =>
    exact ⟨_, attempt_of_error hname hnul hfile (load_of_error hread), accounts_of_unreadable hread⟩
  | ok d =>
    by_cases hd : ∀ ms, d ≠ .object ms
    · exact ⟨_, attempt_of_error hname hnul hfile (load_of_other hread hd),
        accounts_of_notMapping hread hd⟩
    · obtain ⟨ms, rfl⟩ : ∃ ms, d = .object ms := by simpa using hd
      have hload := load_of_mapping (c := c) hread
      cases hexport : Export.read c.now (.object ms) with
      | failed issues =>
        rw [hexport] at hload
        exact ⟨_, attempt_of_error hname hnul hfile hload, accounts_of_invalid hread hexport⟩
      | ok w =>
        rw [hexport] at hload
        exact accounts_attempt_of_ok hname hnul hfile hload

/--
A command that is given a file goes through and complains of nothing, or ends with status one and
has printed what is wrong, whatever is in the file and whatever it is carried out with. Otherwise it
ends at once, for one of five reasons: the file's bytes are no text, or a part of the text is nested
too deep or has no value, such as a date that is not in the calendar; an integer is to be printed
that has too many digits; a trace is to be printed as JSON that is nested too deep, or has a broken
name in it; a tree is too deep for the stack; and the console does not print something that the
command has to print. In no case a file is touched.
-/
theorem perform_accounts (m : Machine) (hname : name.takesFile = true)
    (hnul : file.contains '\x00' = false)
    (hfile : c.files.findText? file = some (.file content)) (json : Bool) :
    ∃ tried result, c.attempt m (.command name file json) = .ok tried ∧
      c.performOn m (.command name file json) = .ok result ∧
      c.Accounts m name file content (c.Breaks m name json content tried.printed) result := by
  obtain ⟨tried, htried, haccounts⟩ := accounts_attempt hname hnul hfile
  refine ⟨tried, m.print tried, htried, ?_, haccounts.print⟩
  rw [performOn, htried]
  rfl

/-- A directory in which a file has one byte, which is no character. -/
def besideNoise : Context where
  files := { entries := [(["w"], .file ⟨#[0xff]⟩)] }
  directory := ⟨"/", ["home"]⟩
  now := 0

lemma findText?_besideNoise : besideNoise.files.findText? "w" = some (.file ⟨#[0xff]⟩) := by
  have hparts : "w".splitOn "/" = ["w"] := @Yaml.splitOnAux_of_not_mem '/' ['w'] (by decide) []
  have hpath : FilePath.parse "w" = ⟨"", ["w"]⟩ := by
    have hanchor : FilePath.anchorOf "w" = "" := by decide +kernel
    rw [FilePath.parse, hparts, hanchor]
    decide +kernel
  have hfault : FilePath.fault? ⟨"", ["w"]⟩ = none :=
    FilePath.fault?_name (by decide +kernel) (by decide +kernel)
  have hshort : isLongName "w" = false := by decide +kernel
  have hloc : besideNoise.files.locate ⟨"", ["w"]⟩ = .ok ["w"] := by
    rw [Files.locate, hfault]
    simp [Files.walk, Files.origin, FilePath.isAbsolute, Files.entry?, besideNoise, hshort,
      Files.step]
  have hends : ("w".endsWith "/" || "w".endsWith "/.") = false := by decide +kernel
  have hfound : besideNoise.files.find? ⟨"", ["w"]⟩ = some (.file ⟨#[0xff]⟩) := by
    rw [Files.find?, hloc]
    rfl
  rw [Files.findText?, hpath, hfound]
  simp only [hends, Bool.false_eq_true, if_false]

lemma read_noise : Yaml.read ⟨#[0xff]⟩ = .error (.undecodable ⟨0, [0xff], .invalidStart⟩) := by
  cbv

/-- The byte is noticed, and the command that looks through the file ends at once. -/
theorem perform_accounts_besideNoise :
    ∃ result f, besideNoise.perform (.command .validate "w" false) = .ok result ∧
      result.crash? = some (.noDocument (.undecodable f)) := by
  have hnul : "w".contains '\x00' = false := by simp
  obtain ⟨tried, result, htried, hresult, haccounts⟩ :=
    @perform_accounts besideNoise .validate "w" ⟨#[0xff]⟩ .standard rfl hnul findText?_besideNoise
      false
  -- the command has nothing to print, so that its console has no say
  have hnone : tried.printed = [] := by
    have hload : Machine.standard.load besideNoise.now (.file ⟨#[0xff]⟩)
        = .error (.unreadable (.undecodable ⟨0, [0xff], .invalidStart⟩)) := load_of_error read_noise
    have hattempt : besideNoise.attempt .standard (.command .validate "w" false)
        = .ok (besideNoise.refuse "w" (.unreadable _)) :=
      attempt_of_error rfl hnul findText?_besideNoise hload
    rw [← Except.ok.inj (hattempt.symm.trans htried)]
    rfl
  exact ⟨result, _, hresult, (haccounts.crash _).2
    (.halts (by simp [hnone]) (.noDocument read_noise rfl))⟩

end Context

end Workflow.CommandLine
