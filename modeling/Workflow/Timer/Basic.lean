/-!
# Single-shot timers

A timer has at most one call to come. A scheduler may deliver a call late, twice, or after it was
cancelled; a call therefore carries the generation of its start, and the timer drops every call of
another generation.
-/

namespace Workflow

/-- A single-shot timer. -/
structure Timer where
  /-- How often the timer was started or cancelled. -/
  generation : Nat := 0
  /-- Whether a call is to come. -/
  pending : Bool := false
deriving DecidableEq

namespace Timer

/-- Gives up the call to come. -/
def cancel (t : Timer) : Timer :=
  { generation := t.generation + 1, pending := false }

/-- Gives up the call to come and awaits a new one, which carries the new generation. -/
def start (t : Timer) : Timer :=
  { t.cancel with pending := true }

/-- Whether a call of the given generation is the one to come. -/
def expects (t : Timer) (generation : Nat) : Bool :=
  t.pending && t.generation = generation

/-- Takes a call, after which none is to come; a stale call is dropped. -/
def deliver (t : Timer) (generation : Nat) : Timer :=
  if t.expects generation then { t with pending := false } else t

end Timer

end Workflow
