import Workflow.Yaml.Basic

/-!
# Sources

A file is not read as a whole but piece by piece, as its tokens are made. Its bytes come in blocks,
and of the characters in them so many are handed out that they make up a piece. What is wrong with
a block or with a piece is only noticed when it is its turn, so that a fault before it comes first.
-/

namespace Workflow.Yaml

/-- What can be read of a text. -/
structure Source where
  chars : List Char
  /-- What is wrong with what comes after the characters, if they are not all of the text. -/
  wall? : Option Fault := none

/-- How many bytes a block has at least, unless the file ends. -/
def blockSize : Nat := 8192

/-- How many characters make up a piece. -/
def pieceSize : Nat := 4096

/-! ### Blocks -/

/--
Characters with their line breaks unified, each with the number of bytes after which it is known. A
carriage return is only known when the next character is: the two may be one line break.
-/
def known (before : Nat) : List Char → List (Char × Nat)
  | [] => []
  | '\r' :: '\n' :: rest => ('\n', before + 2) :: known (before + 2) rest
  | '\r' :: c :: rest => ('\n', before + 1 + c.utf8Size) :: known (before + 1) (c :: rest)
  | c :: rest =>
    (if c = '\r' then ('\n', before + 2) else (c, before + c.utf8Size))
      :: known (before + c.utf8Size) rest

/-- A file that is being read. -/
structure Supply where
  /-- The characters that have not been handed out, each with the bytes after which it is known. -/
  rest : List (Char × Nat)
  /-- How many bytes the file has. -/
  size : Nat
  /-- What is wrong with the bytes after the characters, if anything is. -/
  error? : Option Text.Utf8Error
  /-- How many bytes have been read. -/
  bytes : Nat := 0
  /-- How many bytes and characters the last block had. -/
  last : Nat × Nat := (0, 0)

namespace Supply

/-- The characters that are known but have not been handed out. -/
def ready (s : Supply) : List Char :=
  (s.rest.takeWhile (·.2 ≤ s.bytes)).map (·.1)

/-- How many bytes are read at once in search of so many characters, to judge by the last block. -/
def nextSize (s : Supply) (missing : Nat) : Nat :=
  max blockSize (missing * s.last.1 / max 1 s.last.2)

/-- Reads the next block in search of so many characters, unless the file has ended. -/
def readBlock (s : Supply) (missing : Nat) : Except Text.Utf8Error Supply :=
  let bytes := min s.size (s.bytes + s.nextSize missing)
  let s' := { s with bytes := bytes }
  match s.error? with
  | some e =>
    if e.noticedAt < bytes || s.bytes = s.size then .error e
    else .ok { s' with last := (bytes - s.bytes, s'.ready.length - s.ready.length) }
  | none => .ok { s' with last := (bytes - s.bytes, s'.ready.length - s.ready.length) }

/-- Hands out a piece; less than a whole one at the end. `fuel` bounds the number of blocks. -/
def nextPiece : Nat → Supply → Except Text.Utf8Error (List Char × Supply)
  | 0, s => .ok ([], s)
  | fuel + 1, s =>
    let found := s.ready.length
    if pieceSize ≤ found then
      .ok (s.ready.take pieceSize, { s with rest := s.rest.drop pieceSize })
    else do
      let s' ← s.readBlock (pieceSize - found)
      if s.bytes = s.size then .ok (s.rest.map (·.1), { s with rest := [] }) else nextPiece fuel s'

/-- The pieces of a file up to an error. `fuel` bounds their number. -/
def pieces : Nat → Supply → List (List Char) × Option Text.Utf8Error
  | 0, _ => ([], none)
  | fuel + 1, s =>
    match nextPiece (s.size + 2) s with
    | .error e => ([], some e)
    | .ok ([], _) => ([], none)
    | .ok (piece, s) =>
      let (others, error?) := pieces fuel s
      (piece :: others, error?)

end Supply

/-! ### Pieces -/

namespace Source

/-- The pieces as they are looked at: at first two of them together, which have to be there. -/
def looks (error? : Option Text.Utf8Error) : List (List Char) → List (List Char)
  | first :: second :: others => (first ++ second) :: others
  | pieces => if error?.isSome then [] else pieces

/-- The source of pieces that end with an error or with the file. -/
def ofPieces (pieces : List (List Char)) (error? : Option Text.Utf8Error) : Source :=
  let looks := looks error? pieces
  let good := looks.takeWhile fun cs => cs.all isAllowed
  if good.length = looks.length then ⟨good.flatten, error?.map .undecodable⟩
  else ⟨good.flatten, some .malformed⟩

/-- The source of the bytes of a file. -/
def ofBytes (bytes : ByteArray) : Source :=
  let error? :=
    match Text.decodeUtf8 bytes with
    | .ok _ => none
    | .error e => some e
  let cs := (Text.decodablePart bytes).toList
  let supply : Supply := { rest := known 0 cs, size := bytes.size, error? := error? }
  let (pieces, error?) := supply.pieces (cs.length + 1)
  ofPieces pieces error?

end Source

end Workflow.Yaml
