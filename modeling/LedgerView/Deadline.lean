import LedgerView.Error
/-!
# Deadlines

Time is counted in milliseconds from the start. A request must be done by the earlier of the
caller's deadline and the end of its own budget; a store call that would take longer is cut off
then. A call that does not wait is never cut off, even when the deadline has passed, and no call
waits for more than thirty years.
-/

namespace LedgerView

/-- Thirty years: how far ahead the deadline of a request is that has neither a deadline nor a
budget, and the longest time that a call waits. -/
def farFutureMs : Nat := 30 * 365 * 86400 * 1000

/-- The caller's part in a request. -/
inductive RequestContext where
  | background
  /-- So many milliseconds from the start of the request; `none` for an unbounded time. -/
  | timeout (ms : Option Nat)
  /-- At this time. -/
  | deadline (ms : Nat)
  deriving DecidableEq, Repr

namespace RequestContext

/-- The caller's deadline for a request that starts now. -/
def deadline? (context : RequestContext) (now : Nat) : Option Nat :=
  match context with
  | background => none
  | timeout ms? => ms?.map (now + ·)
  | deadline ms => some ms

end RequestContext

/-- The deadline of a request that starts now, given the caller's and the budget. -/
def requestDeadline (now : Nat) (callers? budget? : Option Nat) : Nat :=
  match callers?, budget? with
  | some callers, some budget => min callers (now + budget)
  | some callers, none => callers
  | none, some budget => now + budget
  | none, none => now + farFutureMs

/-- When a call that waits is over if nothing cuts it off. -/
def endOfWait (now waiting : Nat) : Nat :=
  now + min waiting farFutureMs

/-- When a call that waits is over, unless it is cut off before. -/
def completion? (deadline now waiting : Nat) : Option Nat :=
  if waiting = 0 ∨ endOfWait now waiting ≤ deadline then some (endOfWait now waiting) else none

/-- When a call is cut off. -/
def cutOff (deadline now : Nat) : Nat :=
  max now deadline

/-- The result of a call under a deadline, and when the caller has it. -/
def callWithin {α : Type} (deadline now waiting : Nat) (operation : String)
    (result : Except StoreError α) : Except StoreError α × Nat :=
  match completion? deadline now waiting with
  | some clock => (result, clock)
  | none => (.error (.unavailable (.timeout operation)), cutOff deadline now)

end LedgerView
