import Workflow.Timer.Basic
import Workflow.Timer.Clock

/-!
# A timer on a clock

A single-shot timer with its clock and the times at which its calls came through. A clock that does
not let calls be withdrawn delivers the cancelled ones too; the timer drops them.
-/

namespace Workflow

/-- A timer on a manual clock. -/
structure TimerRun where
  delay : Delay
  /-- Whether the clock delivers cancelled calls too. -/
  keepsCancelled : Bool := false
  timer : Timer := {}
  clock : Clock Unit := {}
  /-- The times at which a call came through, the earliest first. -/
  fired : List Int := []

namespace TimerRun

/-- Takes the call to come off the clock, if the clock allows it. -/
def withdraw (r : TimerRun) : TimerRun :=
  if r.keepsCancelled then r
  else { r with clock := r.clock.withdraw () r.timer.generation }

/-- Cancels the timer; also says whether a call was to come. -/
def cancel (r : TimerRun) : TimerRun × Bool :=
  ({ r.withdraw with timer := r.timer.cancel }, r.timer.pending)

/-- Starts the timer anew. -/
def start (r : TimerRun) : TimerRun :=
  let timer := r.timer.start
  { r.withdraw with
    timer := timer
    clock := r.withdraw.clock.schedule r.delay () timer.generation }

/-- Takes a call from the clock. -/
def deliver (r : TimerRun) (call : Call Unit) : TimerRun :=
  let clock := r.clock.deliver call
  { r with
    clock := clock
    timer := r.timer.deliver call.generation
    fired := if r.timer.expects call.generation then r.fired ++ [clock.now] else r.fired }

/-- Advances the clock. -/
def advance (r : TimerRun) (time : Int) : TimerRun :=
  let target := r.clock.now + time
  let r' := (r.clock.dueBy target).foldl deliver r
  { r' with clock := { r'.clock with now := target } }

end TimerRun

end Workflow
