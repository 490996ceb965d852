import NextStop.StopEvent

/-!
# Event logs

The events of one trip run, or of one stop on one day, ordered by time; events of equal times
keep the order in which they were added. The log is kept with the newest event first, so that
adding events as they happen takes constant time, and so does finding a recent one.
-/

namespace NextStop

/-- Events ordered by time. -/
structure EventLog where
  /-- The events, newest first. -/
  newestFirst : List StopEvent
  deriving DecidableEq

namespace EventLog

/-- The log without events. -/
def empty : EventLog := ⟨[]⟩

/-- The events, oldest first. -/
def toList (l : EventLog) : List StopEvent := l.newestFirst.reverse

def size (l : EventLog) : Nat := l.newestFirst.length

def isEmpty (l : EventLog) : Bool := l.newestFirst.isEmpty

/-- Puts an event into a list that is newest first, behind the events that are later. -/
def insert (e : StopEvent) : List StopEvent → List StopEvent
  | [] => [e]
  | d :: rest => if d.time ≤ e.time then e :: d :: rest else d :: insert e rest

/-- Adds an event after those that are not later. -/
def push (l : EventLog) (e : StopEvent) : EventLog := ⟨insert e l.newestFirst⟩

/-- The newest event that satisfies a test. -/
def latest? (l : EventLog) (p : StopEvent → Bool) : Option StopEvent := l.newestFirst.find? p

/-- The departure from the stop before that of an event, the last one not later than the event.
The first stop has no stop before it. -/
def previousDeparture? (l : EventLog) (e : StopEvent) : Option StopEvent :=
  if e.index = 0 then none
  else l.latest? fun d => d.time ≤ e.time && d.isDepartureAt (e.index - 1)

/-- The arrival at the stop of an event, the last one not later than the event. -/
def matchingArrival? (l : EventLog) (e : StopEvent) : Option StopEvent :=
  l.latest? fun a => a.time ≤ e.time && a.isArrivalAt e.index

end EventLog

end NextStop
