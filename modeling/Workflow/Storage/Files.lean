import Workflow.Text.Quoted

/-!
# Files

A small tree of files and directories. Paths are lists of names; a path is taken from the working
directory unless it is absolute.
-/

namespace Workflow

/-- A path, without empty and `.` parts. -/
structure FilePath where
  /-- The slashes that an absolute path begins with. -/
  anchor : String := ""
  parts : List String
deriving DecidableEq

namespace FilePath

/-- The slashes that make a path absolute. Two of them are kept apart from one; more are not. -/
def anchorOf (s : String) : String :=
  match (s.toList.takeWhile (· = '/')).length with
  | 0 => ""
  | 2 => "//"
  | _ => "/"

/-- The path written by a text. -/
def parse (s : String) : FilePath where
  anchor := anchorOf s
  parts := (s.splitOn "/").filter fun part => part ≠ "" && part ≠ "."

/-- Whether a path begins at the root. -/
def isAbsolute (p : FilePath) : Bool :=
  p.anchor ≠ ""

/-- The path as text; the empty relative path is a dot. -/
def text (p : FilePath) : String :=
  let joined := "/".intercalate p.parts
  if !p.isAbsolute && p.parts.isEmpty then "." else p.anchor ++ joined

/-- A path seen from a directory: an absolute one is left as it is. -/
def under (directory p : FilePath) : FilePath :=
  if p.isAbsolute then p else { directory with parts := directory.parts ++ p.parts }

/-- The path of the directory in which the last part stands. -/
def parent (p : FilePath) : FilePath :=
  { p with parts := p.parts.dropLast }

/-- The last part, or nothing for an empty path. -/
def name (p : FilePath) : String :=
  p.parts.getLast?.getD ""

end FilePath

/-- What stands at a place of the tree. -/
inductive FileEntry where
  | directory
  | file (content : ByteArray)

/-- The entries of a tree under their places, which are counted from its root. -/
structure Files where
  /-- The place of the working directory. -/
  working : List String := []
  entries : List (List String × FileEntry) := []

/-- Why a path leads nowhere, or nothing can be done there. -/
inductive PathFault where
  /-- There is a NUL in the path. -/
  | nul
  /-- The path, or a name in it, has too many bytes. -/
  | tooLong
  /-- A directory on the way is missing. -/
  | missing
  /-- A file stands where a directory should. -/
  | notDirectory
  /-- Something stands where a directory is to be made. -/
  | occupied
  /-- A directory stands where a file should. -/
  | isDirectory
deriving DecidableEq

/-- The sentence for a fault of a path. -/
def PathFault.message (path : String) : PathFault → String
  | nul => "embedded null byte"
  | tooLong => "[Errno 36] File name too long: " ++ Text.quoted path
  | missing => "[Errno 2] No such file or directory: " ++ Text.quoted path
  | notDirectory => "[Errno 20] Not a directory: " ++ Text.quoted path
  | occupied => "[Errno 17] File exists: " ++ Text.quoted path
  | isDirectory => "[Errno 21] Is a directory: " ++ Text.quoted path

/-- A path has fewer bytes than this. -/
def pathBytes : Nat := 4096

/-- A name has no more bytes than this. -/
def nameBytes : Nat := 255

/-- Whether a name has too many bytes. -/
def isLongName (name : String) : Bool :=
  nameBytes < (Text.toUtf8 name).size

/-- What is wrong with a path by itself, if anything is. -/
def FilePath.fault? (p : FilePath) : Option PathFault :=
  if p.text.contains '\x00' then some .nul
  else if pathBytes ≤ (Text.toUtf8 p.text).size then some .tooLong
  else none

namespace Files

/-- The place that a name leads to from another place: `..` goes back by one part. -/
def step (loc : List String) (part : String) : List String :=
  if part = ".." then loc.dropLast else loc ++ [part]

/-- The place at which a path begins. -/
def origin (f : Files) (p : FilePath) : List String :=
  if p.isAbsolute then [] else f.working

/-- What stands at a place. The root and the way to the working directory are directories. -/
def entry? (f : Files) (loc : List String) : Option FileEntry :=
  if loc.isPrefixOf f.working then some .directory else f.entries.lookup loc

/-- Puts an entry at a place. -/
def put (f : Files) (loc : List String) (entry : FileEntry) : Files :=
  { f with entries := (loc, entry) :: f.entries.filter fun e => e.1 ≠ loc }

/-- The place that some names lead to from another place, by way of directories. -/
def walk (f : Files) (loc : List String) : List String → Except PathFault (List String)
  | [] => .ok loc
  | part :: rest =>
    match f.entry? loc with
    | none => .error .missing
    | some (.file _) => .error .notDirectory
    | some .directory =>
      if isLongName part then .error .tooLong else f.walk (step loc part) rest

/-- The place that a path leads to. -/
def locate (f : Files) (p : FilePath) : Except PathFault (List String) :=
  match p.fault? with
  | some fault => .error fault
  | none => f.walk (f.origin p) p.parts

/-- What stands at a path. -/
def find? (f : Files) (p : FilePath) : Option FileEntry :=
  match f.locate p with
  | .ok loc => f.entry? loc
  | .error _ => none

/-- Whether a directory stands at a path. -/
def isDirectory (f : Files) (p : FilePath) : Bool :=
  match f.find? p with
  | some .directory => true
  | _ => false

/-- Makes a directory where nothing is, inside one that is there. -/
def makeOne (f : Files) (p : FilePath) : Except PathFault Files :=
  match p.fault? with
  | some fault => .error fault
  | none => do
    let loc ← f.walk (f.origin p) p.parent.parts
    match f.entry? loc with
    | none => .error .missing
    | some (.file _) => .error .notDirectory
    | some .directory =>
      if isLongName p.name then .error .tooLong
      else if p.parts.isEmpty || p.name = ".." || (f.entry? (step loc p.name)).isSome then
        .error .occupied
      else .ok (f.put (step loc p.name) .directory)

/--
Makes a directory and, as far as they are missing, those on the way to it. It may be there already
if that is said. What was made is left behind even if a path turns out to be unusable, which is
given then.
-/
def makeDirectory (f : Files) (p : FilePath) (mayExist : Bool) :
    Files × Option (FilePath × PathFault) :=
  let settled (f : Files) (made : Except PathFault Files) : Files × Option (FilePath × PathFault) :=
    match made with
    | .ok f => (f, none)
    | .error fault => if mayExist && f.isDirectory p then (f, none) else (f, some (p, fault))
  if p.parts.isEmpty then settled f (f.makeOne p)
  else
    match f.makeOne p with
    | .error .missing =>
      match f.makeDirectory p.parent true with
      | (f, none) => settled f (f.makeOne p)
      | refused => refused
    | made => settled f made
termination_by p.parts.length
decreasing_by
  have : 0 < p.parts.length := List.length_pos_iff.mpr (by simpa using ‹¬p.parts.isEmpty = true›)
  simp only [FilePath.parent, List.length_dropLast]
  omega

/-- Writes a file into a directory that is there. -/
def writeThere (f : Files) (p : FilePath) (content : ByteArray) : Except PathFault Files := do
  let loc ← f.locate p
  match f.entry? loc with
  | some .directory => .error .isDirectory
  | _ => .ok (f.put loc (.file content))

/-- Writes a file and makes the directories on the way. -/
def write (f : Files) (p : FilePath) (content : ByteArray) : Except PathFault Files :=
  match f.makeDirectory p.parent true with
  | (_, some (_, fault)) => .error fault
  | (f, none) => f.writeThere p content

/--
What stands at the path written by a text. An empty text leads nowhere, a last slash to no file.
-/
def findText? (f : Files) (s : String) : Option FileEntry :=
  match f.find? (.parse s) with
  | some (.file content) =>
    if s.endsWith "/" || s.endsWith "/." then none else some (.file content)
  | entry => if s.isEmpty then none else entry

/-- Removes a file that may be missing. -/
def remove (f : Files) (p : FilePath) : Except PathFault Files :=
  match f.locate p with
  | .ok loc =>
    match f.entry? loc with
    | some .directory => .error .isDirectory
    | _ => .ok { f with entries := f.entries.filter fun e => e.1 ≠ loc }
  | .error .missing => .ok f
  | .error fault => .error fault

end Files

end Workflow
