/-!
# Limits of evaluations

The ceilings under which scripts run, and the budget of one evaluation.  Time is counted in ticks:
the evaluator makes one for every statement, loop turn and call, and looks at the budget at every
sixty-fourth.
-/
namespace Stencil.Script

/-- Bounds on the arguments of helpers. -/
structure ArgumentLimits where
  /-- Containers that an argument may nest. -/
  depth : Nat := 32
  /-- Values that the arguments may hold together. -/
  nodes : Nat := 10000
  deriving Repr, DecidableEq

/-- Ceilings of an evaluation. -/
structure Limits where
  /-- Calls that may be nested, the program itself counted. -/
  callDepth : Nat := 64
  /-- Bytes of one string. -/
  stringLength : Nat := 1024 * 1024
  /-- Items of one array. -/
  arrayLength : Nat := 100000
  /-- Arrays, objects and functions that a value may nest. -/
  valueDepth : Nat := 256
  /-- Bytes of all strings and slots that one evaluation makes. -/
  allocation : Nat := 64 * 1024 * 1024
  arguments : ArgumentLimits := {}
  deriving Repr, DecidableEq

/-- The time that one evaluation may take. -/
structure Budget where
  /-- The time in milliseconds. -/
  limit : Nat
  /-- How much of it had passed when the evaluation started. -/
  spent : Nat := 0
  /-- Why the evaluation was cancelled before it started, if it was. -/
  cancelled : Option String := none
  deriving Repr, DecidableEq

/-- How many ticks pass between two looks at the budget. -/
def pollInterval : Nat := 64

/-- Ticks that count as one millisecond. -/
def ticksPerMilli : Nat := 1000

/-- The tick from which on the time is over. -/
def Budget.expiry (b : Budget) : Nat :=
  (b.limit - b.spent) * ticksPerMilli

/-- A number of ticks that no evaluation reaches: the first look at the budget at or after its
expiry comes before. -/
def Budget.ceiling (b : Budget) : Nat :=
  b.expiry + pollInterval + 1

end Stencil.Script
