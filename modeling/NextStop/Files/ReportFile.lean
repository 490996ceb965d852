import NextStop.Files.FileError
import NextStop.Placement

/-!
# The file of reports

A replay reads its reports from a table. A row places the vehicle if it has a trip, a service
day and a stop path; what else belongs to a placement may be left open.
-/

namespace NextStop

namespace ReportFile

/-- The columns of the table. -/
def columns : List String :=
  ["vehicle_id", "time_ms", "lat", "lon", "trip_id", "block_id", "service_day_start_ms",
    "stop_path_index", "distance_along_path_m", "stop_path_length_m", "schedule_based",
    "ignore_because_in_consist"]

/-- The placement of a row with the given trip, service day and stop path. -/
def placement? (trip : Option TripId) (serviceDay : Option Int) (index : Option Nat)
    (block : Option BlockId) (along length : Option Float) : Option (Placement Float) := do
  return {
    trip := ← trip
    serviceDay := ← serviceDay
    index := ← index
    block := block.getD ""
    along := along.getD 0
    length := length.getD 0 }

/-- The report of a row. -/
def report? (c : Cells) : Option (MatchedReport Float) := do
  let vehicle ← c.required "vehicle_id" Cells.text
  let time ← c.required "time_ms" Cells.integer
  let lat ← c.required "lat" Cells.double
  let lon ← c.required "lon" Cells.double
  let trip ← c.droppable "trip_id" Cells.text
  let block ← c.droppable "block_id" Cells.text
  let serviceDay ← c.droppable "service_day_start_ms" Cells.integer
  let index ← c.droppable "stop_path_index" Cells.index
  let along ← c.droppable "distance_along_path_m" Cells.double
  let length ← c.droppable "stop_path_length_m" Cells.double
  let scheduleBased ← c.flag "schedule_based" Cells.truth
  let inConsist ← c.flag "ignore_because_in_consist" Cells.truth
  return {
    report := { vehicle, time, lat, lon, inConsist }
    placement := placement? trip serviceDay index block along length
    scheduleBased }

/-- Reports ordered by time; those of one time keep their order. -/
def sorted (reports : List (MatchedReport Float)) : List (MatchedReport Float) :=
  reports.mergeSort fun a b => a.report.time ≤ b.report.time

/-- The reports of a file, ordered by time. -/
def read (t : FileTree) (file : String) : Except FileError (List (MatchedReport Float)) :=
  (t.readTable file columns report?).map sorted

end ReportFile

end NextStop
