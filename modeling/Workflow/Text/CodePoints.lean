/-!
# Sets of code points

A large set of code points is given by its boundaries: the code points at which, read upwards, one
enters or leaves it.
-/

namespace Workflow.Text

/-- How many of an ascending list of boundaries are at most `n`. -/
def boundariesUpTo (n : Nat) : List Nat → Nat
  | [] => 0
  | b :: bs => if b ≤ n then boundariesUpTo n bs + 1 else 0

/-- Membership of `n` in the set with the given ascending boundaries. -/
def within (boundaries : List Nat) (n : Nat) : Bool :=
  boundariesUpTo n boundaries % 2 = 1

end Workflow.Text
