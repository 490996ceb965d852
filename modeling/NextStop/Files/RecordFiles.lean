import NextStop.Files.FileTree
import NextStop.Records.Record
import NextStop.Text.Csv
import NextStop.Text.DateText
import NextStop.Text.Decimal

/-!
# Files of records

Records are written to a folder, into one table for each kind. A new file gets the names of its
columns first; rows are only ever added at the end.
-/

namespace NextStop

namespace Record

/-! ## Rows -/

/-- The columns of the table of a record's kind. -/
def columns {α : Type} : Record α → List String
  | stopEvent _ => ["vehicle_id", "trip_id", "route_id", "direction_id", "block_id", "stop_id",
      "stop_path_index", "time_ms", "is_arrival", "service_date", "trip_start_time_secs",
      "frequency_based", "scheduled_time_ms"]
  | status _ => ["vehicle_id", "time_ms", "kind", "description"]
  | headway _ => ["vehicle_id", "other_vehicle_id", "route_id", "trip_id", "stop_id",
      "headway_ms", "creation_time_ms"]
  | position _ => ["vehicle_id", "time_ms", "trip_id", "block_id", "stop_path_index",
      "distance_along_path_m"]
  | prediction _ => ["vehicle_id", "route_id", "trip_id", "stop_id", "stop_path_index",
      "predicted_time_ms", "avl_time_ms", "creation_time_ms", "is_arrival", "schedule_based"]
  | pathEstimate _ => ["vehicle_id", "creation_time_ms", "prediction_time_ms", "trip_id",
      "stop_path_index", "algorithm", "travel_time", "scheduled"]

/-- A flag as text. -/
def truthText (b : Bool) : String := if b then "true" else "false"

/-- The texts of a record's row, one for each column. -/
def texts : Record Float → List String
  | stopEvent e => [e.vehicle, e.trip, e.route, e.direction.getD "", e.block, e.stop,
      toString e.index, toString e.time, truthText e.kind.isArrival, e.serviceDate.write,
      toString e.tripStart, truthText e.frequencyBased,
      (e.scheduled.map fun t => toString t).getD ""]
  | status e => [e.vehicle, toString e.time, e.kind.label, e.description]
  | headway h => [h.vehicle, h.ahead, h.route, h.trip, h.stop, toString h.gap, toString h.time]
  | position p => [p.vehicle, toString p.time, p.trip, p.block, toString p.index,
      Decimal.write p.along]
  | prediction p => [p.vehicle, p.route, p.trip, p.stop, toString p.index, toString p.time,
      toString p.reportTime, toString p.created, truthText p.kind.isArrival,
      truthText p.scheduleBased]
  | pathEstimate p => [p.vehicle, toString p.created, toString p.value, p.trip,
      toString p.index, p.method.label, truthText p.quantity.isTravel, truthText p.scheduled]

/-- The name of the file of a record's kind. -/
def fileName {α : Type} (r : Record α) : String := r.kind ++ ".csv"

/-- The names of all files of records. -/
def fileNames : List String :=
  ["arrival_departures.csv", "vehicle_events.csv", "headways.csv", "matches.csv",
    "predictions.csv", "prediction_for_stop_paths.csv"]

theorem fileName_mem_fileNames {α : Type} (r : Record α) : r.fileName ∈ fileNames := by
  cases r <;> simp [fileName, kind, fileNames]

end Record

namespace Disk

/-! ## Writing -/

/-- Adds records of one kind to their file in a folder, and tells whether it is possible. -/
def addRecords (d : Disk) (folder : String) : List (Record Float) → Bool × Disk
  | [] => (true, d)
  | r :: rest =>
    let path := Path.join folder r.fileName
    let rows := (r :: rest).map Record.texts
    let rows := if (d.tree.entry? path).isSome then rows else r.columns :: rows
    d.change (.append path (Csv.write rows))

/-- Writes the records of a batch whose ranks are in a list, rank by rank. A file that cannot be
written ends it, and what comes after is lost. -/
def writeRanks (d : Disk) (folder : String) (batch : List (Record Float)) : List Rank → Disk
  | [] => d
  | rank :: rest =>
    match d.addRecords folder (batch.filter fun r => r.rank == rank) with
    | (true, d) => d.writeRanks folder batch rest
    | (false, d) => d

/-- Writes a batch of records to a folder, the highest rank first. -/
def writeBatch (d : Disk) (folder : String) (batch : List (Record Float)) : Disk :=
  d.writeRanks folder batch (List.finRange 6).reverse

/-- Writes batches in their order. -/
def writeBatches (d : Disk) (folder : String) (batches : List (List (Record Float))) : Disk :=
  batches.foldl (fun d batch => d.writeBatch folder batch) d

end Disk

end NextStop
