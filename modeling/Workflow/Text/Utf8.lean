/-!
# UTF-8

Bytes are read as text strictly. The first byte sequence that is no character is an error, which
says where it is and what is wrong with it.
-/

namespace Workflow.Text

/-- What is wrong with a byte sequence. -/
inductive Utf8Reason where
  | invalidStart
  | invalidContinuation
  /-- The sequence stands for a surrogate, which is no character. -/
  | surrogate
  | unexpectedEnd
deriving DecidableEq

/-- A byte sequence that is no character: its place, its bytes and what is wrong with it. -/
structure Utf8Error where
  position : Nat
  bytes : List Nat
  reason : Utf8Reason
deriving DecidableEq

/-- Two lower case hexadecimal digits. -/
def byteText (n : Nat) : String :=
  String.ofList [Nat.digitChar (n / 16 % 16), Nat.digitChar (n % 16)]

/-- The sentence for an error. -/
def Utf8Error.message (e : Utf8Error) : String :=
  let reason :=
    match e.reason with
    | .invalidStart => "invalid start byte"
    | .invalidContinuation | .surrogate => "invalid continuation byte"
    | .unexpectedEnd => "unexpected end of data"
  let place :=
    match e.bytes with
    | [b] => "byte 0x" ++ byteText b ++ " in position " ++ toString e.position
    | bytes =>
      "bytes in position " ++ toString e.position ++ "-"
        ++ toString (e.position + bytes.length - 1)
  "'utf-8' codec can't decode " ++ place ++ ": " ++ reason

/-- Whether a byte continues a character. -/
def isContinuation (b : Nat) : Bool :=
  0x80 ≤ b && b < 0xc0

/-- How many bytes follow the first byte of a character, and the bounds of the second one. -/
def sequenceShape (first : Nat) : Option (Nat × Nat × Nat) :=
  if first < 0x80 then some (0, 0x80, 0xc0)
  else if first < 0xc2 then none
  else if first < 0xe0 then some (1, 0x80, 0xc0)
  else if first = 0xe0 then some (2, 0xa0, 0xc0)
  else if first = 0xed then some (2, 0x80, 0xa0)
  else if first < 0xf0 then some (2, 0x80, 0xc0)
  else if first = 0xf0 then some (3, 0x90, 0xc0)
  else if first < 0xf4 then some (3, 0x80, 0xc0)
  else if first = 0xf4 then some (3, 0x80, 0x90)
  else none

/-- How many of the next bytes continue a character whose next byte lies between two bounds. -/
def continuing (low high : Nat) : Nat → List Nat → Nat
  | 0, _ => 0
  | _, [] => 0
  | count + 1, b :: bs =>
    if low ≤ b ∧ b < high then continuing 0x80 0xc0 count bs + 1 else 0

/-- The code point of a character's bytes. -/
def codePoint (first : Nat) (others : List Nat) : Nat :=
  let lead :=
    match others.length with
    | 0 => first
    | 1 => first % 32
    | 2 => first % 16
    | _ => first % 8
  others.foldl (fun n b => 64 * n + b % 64) lead

/-- What is wrong with a sequence in which the given byte does not continue the first. -/
def refusal (first next : Nat) : Utf8Reason :=
  if first = 0xed && isContinuation next then .surrogate else .invalidContinuation

/-- Reads bytes from the given position on; `fuel` bounds the number of characters. -/
def decodeFrom : Nat → Nat → List Char → List Nat → Except Utf8Error String
  | _, _, before, [] => .ok (String.ofList before.reverse)
  | 0, _, before, _ :: _ => .ok (String.ofList before.reverse)
  | fuel + 1, position, before, first :: rest =>
    match sequenceShape first with
    | none => .error ⟨position, [first], .invalidStart⟩
    | some (count, low, high) =>
      let found := continuing low high count rest
      if found = count then
        decodeFrom fuel (position + count + 1)
          (Char.ofNat (codePoint first (rest.take count)) :: before) (rest.drop count)
      else
        match rest.drop found with
        | [] => .error ⟨position, first :: rest, .unexpectedEnd⟩
        | next :: _ =>
          let reason := if found = 0 then refusal first next else .invalidContinuation
          .error ⟨position, first :: rest.take found, reason⟩

/-- Reads bytes as text. -/
def decodeUtf8 (bytes : ByteArray) : Except Utf8Error String :=
  let codes := bytes.toList.map UInt8.toNat
  decodeFrom codes.length 0 [] codes

/-- The text of bytes up to the first sequence that is no character. -/
def decodablePart (bytes : ByteArray) : String :=
  match decodeUtf8 bytes with
  | .ok s => s
  | .error e => (decodeUtf8 (bytes.extract 0 e.position)).toOption.getD ""

/-- The place of the byte at which an error is noticed. A surrogate is only known as a whole. -/
def Utf8Error.noticedAt (e : Utf8Error) : Nat :=
  match e.reason with
  | .invalidStart => e.position
  | .invalidContinuation | .unexpectedEnd => e.position + e.bytes.length
  | .surrogate => e.position + 2

end Workflow.Text
