import NextStop.StopEvent
import NextStop.Prediction

/-!
# Records

Everything that the program puts on record. Under pressure records are given up by rank: the
events that statistics are built from survive longest, estimates that can be made again go
first.
-/

namespace NextStop

/-- How long a record survives under pressure; the highest rank survives longest. -/
abbrev Rank := Fin 6

/-- What is put on record. -/
inductive Record (α : Type) where
  | stopEvent (e : StopEvent)
  | status (e : StatusEvent)
  | headway (h : Headway)
  | position (p : PathPosition α)
  | prediction (p : Prediction)
  | pathEstimate (p : PathEstimate)
  deriving DecidableEq

namespace Record

variable {α : Type}

/-- The rank of a record. -/
def rank : Record α → Rank
  | stopEvent _ => 5
  | status _ => 4
  | headway _ => 3
  | position _ => 2
  | prediction _ => 1
  | pathEstimate _ => 0

/-- The name of the kind of a record, which is also the name of its file. -/
def kind : Record α → String
  | stopEvent _ => "arrival_departures"
  | status _ => "vehicle_events"
  | headway _ => "headways"
  | position _ => "matches"
  | prediction _ => "predictions"
  | pathEstimate _ => "prediction_for_stop_paths"

/-- The event of an arrival or departure record. -/
def stopEvent? : Record α → Option StopEvent
  | stopEvent e => some e
  | _ => none

/-- The event of a status record. -/
def status? : Record α → Option StatusEvent
  | status e => some e
  | _ => none

end Record

end NextStop
