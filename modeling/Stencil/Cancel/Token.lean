/-!
# Cancellation

A piece of work is settled once: it completes, or it is cancelled for a reason.  A token keeps how
the work stands, and in a slot of its own the reason for which it was cancelled.  The first to settle
the work wins, and whatever comes later changes nothing.
-/
namespace Stencil

/-- How a piece of work stands. -/
inductive WorkState where
  | pending
  | completed
  | cancelled
  deriving Repr, DecidableEq

/-- The token of a piece of work that may be cancelled. -/
structure CancelToken where
  state : WorkState := .pending
  /-- Why the work was cancelled. -/
  slot : Option String := none
  deriving Repr, DecidableEq

/-- What settles a piece of work. -/
inductive Settlement where
  | cancel (reason : String)
  | complete
  deriving Repr, DecidableEq

namespace CancelToken

/-- The token of work that has just begun. -/
def pending : CancelToken := {}

/-- Whether the work has completed or was cancelled. -/
def isSettled (t : CancelToken) : Bool :=
  t.state != .pending

/-- Whether the work was cancelled. -/
def isCancelled (t : CancelToken) : Bool :=
  t.state == .cancelled

/-- Why the work was cancelled, if it was. -/
def reason? (t : CancelToken) : Option String :=
  t.slot

/-- Puts the work into a state if it stands as expected; answers whether it did. -/
def exchange (t : CancelToken) (expected next : WorkState) : Bool × CancelToken :=
  if t.state = expected then (true, { t with state := next }) else (false, t)

/-- Cancels pending work; answers whether it was pending.  The winner puts its reason into the
slot. -/
def cancel (t : CancelToken) (reason : String) : Bool × CancelToken :=
  let (won, t) := t.exchange .pending .cancelled
  (won, if won then { t with slot := some reason } else t)

/-- Completes pending work; answers whether it was pending. -/
def complete (t : CancelToken) : Bool × CancelToken :=
  t.exchange .pending .completed

/-- Cancels or completes pending work; answers whether it was pending. -/
def settle (t : CancelToken) : Settlement → Bool × CancelToken
  | .cancel reason => t.cancel reason
  | .complete => t.complete

/-- The text of a token for inspection. -/
def inspected (t : CancelToken) : String :=
  "CancelToken \x7b cancelled: " ++ toString t.isCancelled ++ ", settled: " ++ toString t.isSettled
    ++ " \x7d"

end CancelToken

end Stencil
