import NextStop.Engine.Report
import NextStop.Engine.Sweep

/-!
# Replays

A replay feeds recorded reports to an engine on a clock of its own. The clock follows the
reports, and every polling interval of that time there is a sweep. The first sweep is due one
interval after the first report; before each report come the sweeps that are due by then, and
after the last report one more.

The time of the next sweep stops at the end of the 64-bit range. A report at that very time is
never passed by a sweep, so the sweeps before it have no end; the replay of such a report has no
result.
-/

namespace NextStop

namespace Replay

/-- What a replay counts. -/
structure Summary where
  reports : Nat
  matched : Nat
  rejected : Nat
  predictions : Nat
  stopEvents : Nat
  timeouts : Nat
  /-- Whether a check found the queue of records too full. -/
  backedUp : Bool
  deriving DecidableEq

def Summary.zero : Summary := ⟨0, 0, 0, 0, 0, 0, false⟩

/-- A replay under way. -/
structure State (α : Type) where
  engine : Engine α
  clock : Int
  summary : Summary

variable {α : Type} [Scalar α]

/-- Moves the clock forward, never backward. -/
def advance (s : State α) (time : Int) : State α := { s with clock := max s.clock time }

/-- A sweep at a time. -/
def sweepAt (s : State α) (time : Int) : State α :=
  let s := advance s time
  let (events, engine) := s.engine.sweep s.clock
  { s with
    engine
    summary := { s.summary with timeouts := s.summary.timeouts + events.length } }

/-- A check of the queue of records. -/
def checkQueue (s : State α) : State α :=
  let engine := s.engine.checkQueue
  { s with
    engine
    summary := { s.summary with backedUp := s.summary.backedUp || engine.alarm.active } }

/-- A number of sweeps from a time on, an interval apart, each with a check of the queue. -/
def sweeps (interval : Int) : Nat → Int → State α → State α
  | 0, _, s => s
  | n + 1, time, s => sweeps interval n (Time.later time interval) (checkQueue (sweepAt s time))

/-- The time of the sweep after a number of sweeps. -/
def afterSweeps (interval : Int) : Nat → Int → Int
  | 0, time => time
  | n + 1, time => afterSweeps interval n (Time.later time interval)

/-- The number of sweeps due by a time, the first one at `next`; none if they have no end. -/
def dueSweeps? (interval next time : Int) : Option Nat :=
  if time < next then some 0
  else if time < Time.latest ∧ 0 < interval then some (((time - next) / interval).toNat + 1)
  else none

/-- Takes a report. -/
def takeReport (s : State α) (m : MatchedReport α) : State α :=
  let s := advance s m.report.time
  let (result, engine) := s.engine.take s.clock m
  let c := { s.summary with
    reports := s.summary.reports + 1
    matched := s.summary.matched + (if m.placement.isSome then 1 else 0) }
  let c := match result with
    | .ok o => { c with
        predictions := c.predictions + o.predictions
        stopEvents := c.stopEvents + o.stopEvents.length }
    | .error _ => { c with rejected := c.rejected + 1 }
  { s with engine, summary := c }

/-- Takes reports, each after the sweeps that are due by its time, and gives the time of the
sweep after the last report. -/
def takeAll? (interval : Int) :
    List (MatchedReport α) → Int → State α → Option (Int × State α)
  | [], next, s => some (next, s)
  | m :: rest, next, s =>
    match dueSweeps? interval next m.report.time with
    | none => none
    | some n =>
      takeAll? interval rest (afterSweeps interval n next)
        (takeReport (sweeps interval n next s) m)

/-- Replays reports to an engine, the clock being at a time. -/
def run? (engine : Engine α) (clock : Int) (reports : List (MatchedReport α)) :
    Option (State α) :=
  let s : State α := ⟨engine, clock, .zero⟩
  match reports with
  | [] => some s
  | m :: _ =>
    let interval := engine.settings.sweepInterval
    (takeAll? interval reports (Time.later m.report.time interval) s).map fun (next, s) =>
      sweepAt s next

end Replay

end NextStop
