import Workflow.Number.Double

/-!
# A manual clock

Time that moves only when it is told to. The clock counts milliseconds, and takes a delay to the
nearest one. Calls are due at set times; as the clock advances, those that fall due are delivered,
the earliest first, and of two with one time the one that was scheduled first. A call after a delay
without end never falls due, so that the clock need not hold it.
-/

namespace Workflow

/-- A delay: some milliseconds, or one without end. -/
inductive Delay where
  | finite (milliseconds : Int)
  | endless
deriving DecidableEq

/-- A number of seconds as a delay. A time that is infinitely far back has passed already. -/
def Delay.ofSeconds (seconds : Float) : Delay :=
  match Double.nearestInt (seconds * 1000) with
  | .ok milliseconds => .finite milliseconds
  | .error _ => if seconds < 0 then .finite 0 else .endless

/-- A call that is due at some time. -/
structure Call (κ : Type) where
  due : Int
  owner : κ
  generation : Nat
deriving DecidableEq

/-- A clock with the calls that it will deliver, in the order in which they were scheduled. -/
structure Clock (κ : Type) where
  now : Int := 0
  calls : List (Call κ) := []

namespace Clock

variable {κ : Type} [DecidableEq κ]

/-- Schedules a call of the given generation after a delay. -/
def schedule (c : Clock κ) (delay : Delay) (owner : κ) (generation : Nat) : Clock κ :=
  match delay with
  | .finite milliseconds =>
    { c with calls := c.calls ++ [⟨c.now + milliseconds, owner, generation⟩] }
  | .endless => c

/-- Withdraws the calls of an owner that carry the given generation. -/
def withdraw (c : Clock κ) (owner : κ) (generation : Nat) : Clock κ :=
  { c with calls := c.calls.filter fun call => call.owner ≠ owner || call.generation ≠ generation }

/-- The calls due by the given time, in the order of their delivery. -/
def dueBy (c : Clock κ) (time : Int) : List (Call κ) :=
  (c.calls.filter fun call => call.due ≤ time).mergeSort fun a b => a.due ≤ b.due

/-- The clock at the time of a call that is being delivered. -/
def deliver (c : Clock κ) (call : Call κ) : Clock κ :=
  { c.withdraw call.owner call.generation with now := call.due }

end Clock

end Workflow
