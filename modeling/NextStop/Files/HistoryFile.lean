import NextStop.Files.FileError
import NextStop.Statistics.Basic
import NextStop.StopEvent

/-!
# The file of arrivals and departures

The history for a warm start is read from a table of stop events, in the form in which records
of them are written.
-/

namespace NextStop

namespace HistoryFile

/-- The columns of the table. -/
def columns : List String :=
  ["vehicle_id", "trip_id", "route_id", "direction_id", "block_id", "stop_id",
    "stop_path_index", "time_ms", "is_arrival", "service_date", "trip_start_time_secs",
    "frequency_based", "scheduled_time_ms"]

/-- The event of a row. -/
def event? (c : Cells) : Option StopEvent := do
  let vehicle ← c.required "vehicle_id" Cells.text
  let trip ← c.required "trip_id" Cells.text
  let route ← c.required "route_id" Cells.text
  let direction ← c.optional "direction_id" Cells.text
  let block ← c.required "block_id" Cells.text
  let stop ← c.required "stop_id" Cells.text
  let index ← c.required "stop_path_index" Cells.index
  let time ← c.required "time_ms" Cells.integer
  let isArrival ← c.required "is_arrival" Cells.truth
  let serviceDate ← c.required "service_date" Cells.date
  let tripStart ← c.required "trip_start_time_secs" Cells.seconds
  let frequencyBased ← c.flag "frequency_based" Cells.truth
  let scheduled ← c.optional "scheduled_time_ms" Cells.integer
  return {
    vehicle, trip, route, direction, block, stop, index, time
    kind := .ofIsArrival isArrival
    serviceDate, tripStart, frequencyBased, scheduled }

/-- The events of a history file; without a file there are none. -/
def read (t : FileTree) (file : String) : Except FileError (List StopEvent) :=
  if (t.entry? file).isNone then .ok []
  else t.readTable file columns event?

/-- The events of a history file with times from `first` on and before `past`. -/
def query (t : FileTree) (file : String) (first past : Int) :
    Except FileError (List StopEvent) :=
  (read t file).map (Statistics.window first past)

end HistoryFile

end NextStop
