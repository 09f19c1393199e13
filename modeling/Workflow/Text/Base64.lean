/-!
# Base 64

Bytes written with 64 characters, six bits each. Other characters are passed over, and so is a sign
for missing bits where none are missing.
-/

namespace Workflow.Text

/-- The six bits of a character. -/
def sixBits? (c : Char) : Option Nat :=
  if 'A' ≤ c ∧ c ≤ 'Z' then some (c.toNat - 'A'.toNat)
  else if 'a' ≤ c ∧ c ≤ 'z' then some (c.toNat - 'a'.toNat + 26)
  else if '0' ≤ c ∧ c ≤ '9' then some (c.toNat - '0'.toNat + 52)
  else if c = '+' then some 62
  else if c = '/' then some 63
  else none

/--
The bytes of a text whose characters so far make up whole groups of four, but for the last `place`
ones. These leave the bits `carry`, and `pads` signs for missing bits follow them.
-/
def bytesAfter (place carry pads : Nat) : List Char → Option (List UInt8)
  | [] => if place = 0 then some [] else none
  | c :: rest =>
    if c = '=' then
      if 2 ≤ place && 4 ≤ place + pads + 1 then some []
      else bytesAfter place carry (if 2 ≤ place then pads + 1 else pads) rest
    else
      match sixBits? c, place with
      | none, _ => bytesAfter place carry pads rest
      | some n, 0 => bytesAfter 1 n 0 rest
      | some n, 1 => (bytesAfter 2 (n % 16) 0 rest).map (UInt8.ofNat (4 * carry + n / 16) :: ·)
      | some n, 2 => (bytesAfter 3 (n % 4) 0 rest).map (UInt8.ofNat (16 * carry + n / 4) :: ·)
      | some n, _ => (bytesAfter 0 0 0 rest).map (UInt8.ofNat (64 * carry + n) :: ·)

/-- The bytes that a text to the base of 64 stands for, if it is complete. -/
def decodeBase64? (cs : List Char) : Option (List UInt8) :=
  bytesAfter 0 0 0 cs

end Workflow.Text
