import Mathlib.Tactic
import Workflow.Proofs.Editor.Delivery

/-!
# What a write leaves behind

A file that was written is found again at its path. An editor that could write a workflow has its
text in its file, and nothing else of it has changed.
-/

namespace Workflow

namespace Files

variable {f : Files} {p : FilePath} {loc other : List String} {entry : FileEntry}

lemma lookup_filter_of_ne (h : other ≠ loc) (entries : List (List String × FileEntry)) :
    (entries.filter fun e => e.1 ≠ loc).lookup other = entries.lookup other := by
  induction entries with
  | nil => rfl
  | cons first entries ih =>
    obtain ⟨place, found⟩ := first
    by_cases hplace : place = loc
    · have hother : (other == place) = false := beq_eq_false_iff_ne.2 (hplace ▸ h)
      rw [List.filter_cons_of_neg (by simp [hplace]), ih, List.lookup_cons, hother]
    · rw [List.filter_cons_of_pos (by simp [hplace]), List.lookup_cons, List.lookup_cons, ih]

/-! ### One place -/

lemma entry?_put_self (h : f.entry? loc ≠ some .directory) :
    Files.entry? (f.put loc entry) loc = some entry := by
  have hplace : loc.isPrefixOf f.working = false := by
    by_contra hworking
    rw [Bool.not_eq_false] at hworking
    exact h (by rw [ entry?, if_pos hworking])
  simp [ entry?, put, hplace]

lemma entry?_put_of_ne (h : other ≠ loc) :
    Files.entry? (f.put loc entry) other = f.entry? other := by
  have hother : (other == loc) = false := beq_eq_false_iff_ne.2 h
  rw [ entry?, put, List.lookup_cons, hother]
  dsimp only
  rw [lookup_filter_of_ne h, entry?]

/-- A way leads by directories only, so that it is the same with another file at some place. -/
lemma walk_put {start last : List String} {parts : List String}
    (hloc : f.entry? loc ≠ some .directory) (h : f.walk start parts = .ok last) :
    (f.put loc entry).walk start parts = .ok last := by
  induction parts generalizing start with
  | nil => exact h
  | cons part rest ih =>
    rw [walk] at h ⊢
    by_cases hstart : start = loc
    · subst hstart
      cases hentry : f.entry? start with
      | none => simp [hentry] at h
      | some found =>
        cases found with
        | file content => simp [hentry] at h
        | directory => exact absurd hentry hloc
    · rw [ entry?_put_of_ne hstart]
      cases hentry : f.entry? start with
      | none => simp [hentry] at h
      | some found =>
        cases found with
        | file content => simp [hentry] at h
        | directory =>
          simp only [hentry] at h ⊢
          split_ifs at h ⊢
          exact ih h

/-! ### Writing -/

lemma locate_put (hloc : f.entry? loc ≠ some .directory) (h : f.locate p = .ok loc) :
    (f.put loc entry).locate p = .ok loc := by
  rw [locate] at h ⊢
  cases hfault : p.fault? with
  | some fault => simp [hfault] at h
  | none =>
    rw [hfault] at h
    exact walk_put hloc h

/-- A file that was written is found at its path. -/
lemma find?_of_writeThere {f' : Files} {content : ByteArray}
    (h : f.writeThere p content = .ok f') : f'.find? p = some (.file content) := by
  rw [writeThere] at h
  cases hloc : f.locate p with
  | error fault => simp [hloc, bind, Except.bind] at h
  | ok loc =>
    simp only [hloc, bind, Except.bind] at h
    have hput : f.entry? loc ≠ some .directory ∧ f.put loc (.file content) = f' := by
      cases hentry : f.entry? loc with
      | none => simpa [hentry] using h
      | some found =>
        cases found with
        | file before => simpa [hentry] using h
        | directory => simp [hentry] at h
    obtain ⟨hentry, rfl⟩ := hput
    rw [find?, locate_put hentry hloc]
    exact entry?_put_self hentry

end Files

/-- A name that is no longer than a path may be is a path by itself. -/
lemma FilePath.fault?_name {name : String} (hnul : '\x00' ∉ name.toList)
    (hsize : (Text.toUtf8 name).size < pathBytes) : FilePath.fault? ⟨"", [name]⟩ = none := by
  have htext : FilePath.text ⟨"", [name]⟩ = name := by simp [text, isAbsolute]
  rw [fault?, htext, if_neg (by simpa using hnul), if_neg (by omega)]

namespace Editor

variable {e : Editor} {w : Export}

lemma refused_answer_ne (fault : PathFault) : (e.refused fault).answer ≠ .ok true := by
  rw [refused]
  split_ifs <;> simp [fail, done]

/-- A workflow that could be written stands in the editor's file. -/
lemma exists_of_write (h : (e.write w).answer = .ok true) :
    ∃ text, w.fileText = .ok text ∧
      (e.write w).editor.files.find? e.config.storage.path = some (.file (Text.toUtf8 text)) := by
  rw [write] at h ⊢
  generalize e.files.makeDirectory e.config.storage.path.parent true = made at h ⊢
  rcases made with ⟨files, _ | ⟨place, fault⟩⟩
  · cases htext : w.fileText with
    | error reason =>
      rw [htext] at h
      cases h
    | ok text =>
      rw [htext] at h
      dsimp only at h ⊢
      cases hwritten : files.writeThere e.config.storage.path (Text.toUtf8 text) with
      | error fault =>
        rw [hwritten] at h
        exact absurd h (refused_answer_ne _)
      | ok files => exact ⟨text, rfl, Files.find?_of_writeThere hwritten⟩
  · exact absurd h (refused_answer_ne _)

lemma refused_answer_congr {x : Editor} (hconfig : x.config = e.config) (fault : PathFault) :
    (x.refused fault).answer = (e.refused fault).answer := by
  rw [refused, refused, hconfig]
  split_ifs <;> rfl

/-- What comes of a write depends on the configuration and the files only. -/
lemma write_congr {x : Editor} (hconfig : x.config = e.config) (hfiles : x.files = e.files) :
    (x.write w).answer = (e.write w).answer ∧
      (x.write w).editor.files = (e.write w).editor.files := by
  rw [write, write, hfiles]
  simp only [hconfig]
  rcases e.files.makeDirectory e.config.storage.path.parent true with ⟨files, _ | ⟨place, fault⟩⟩
  · cases w.fileText with
    | error reason => exact ⟨rfl, rfl⟩
    | ok text =>
      dsimp only
      cases files.writeThere e.config.storage.path (Text.toUtf8 text) with
      | error fault =>
        dsimp only
        constructor
        · apply refused_answer_congr
          rfl
        · simp only [refused_editor]
      | ok files => exact ⟨rfl, rfl⟩
  · dsimp only
    constructor
    · apply refused_answer_congr
      rfl
    · simp only [refused_editor]

/-- A file in the working directory can be written if its name is one and no directory has it. -/
lemma write_here {name text : String} (hpath : e.config.storage.path = ⟨"", [name]⟩)
    (hfault : FilePath.fault? ⟨"", [name]⟩ = none) (hlong : isLongName name = false)
    (hup : name ≠ "..")
    (hfree : e.files.entry? (e.files.working ++ [name]) ≠ some .directory)
    (htext : w.fileText = .ok text) :
    e.write w = { e with
      files := e.files.put (e.files.working ++ [name]) (.file (Text.toUtf8 text)) }.done true := by
  have hhere : FilePath.fault? ⟨"", []⟩ = none := by
    have hsize : (Text.toUtf8 ".").size = 1 := by decide +kernel
    simp [FilePath.fault?, FilePath.text, FilePath.isAbsolute, hsize, pathBytes]
  have hshort : isLongName "" = false := by decide +kernel
  have hworking : e.files.entry? e.files.working = some .directory := by
    simp [ Files.entry?]
  have hmade : e.files.makeDirectory ⟨"", []⟩ true = (e.files, none) := by
    have hone : e.files.makeOne ⟨"", []⟩ = .error .occupied := by
      simp [Files.makeOne, hhere, Files.origin, FilePath.isAbsolute, FilePath.parent, Files.walk,
        hworking, bind, Except.bind, FilePath.name, hshort]
    rw [Files.makeDirectory]
    simp [hone, Files.isDirectory, Files.find?, Files.locate, hhere, Files.origin,
      FilePath.isAbsolute, Files.walk, hworking]
  have hlocate : e.files.locate ⟨"", [name]⟩ = .ok (e.files.working ++ [name]) := by
    simp [Files.locate, hfault, Files.origin, FilePath.isAbsolute, Files.walk, hworking, hlong,
      Files.step, hup]
  have hwritten : e.files.writeThere ⟨"", [name]⟩ (Text.toUtf8 text) =
      .ok (e.files.put (e.files.working ++ [name]) (.file (Text.toUtf8 text))) := by
    simp only [Files.writeThere, hlocate, bind, Except.bind]
  rw [write, hpath]
  simp only [FilePath.parent, List.dropLast_singleton, hmade, htext, hwritten]

end Editor

end Workflow
