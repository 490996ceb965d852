import NextStop.Files.FileError
import NextStop.Schedule.Timetable

/-!
# The folder of a timetable

A timetable is read from a folder with a table of trips, one of stop paths, and possibly one of
the dates on which services run. The rows of stop paths may come in any order: they belong to
the trip that they name, and their index orders them. A trip without stop paths is left out, and
of several rows for one trip the first one counts.
-/

namespace NextStop

/-- A row of the table of stop paths. -/
structure StopPathRow where
  trip : TripId
  index : Nat
  stopPath : StopPath Float

/-- A row of the table of dates. -/
structure ServiceDateRow where
  service : ServiceId
  date : Date

namespace ScheduleFolder

/-! ## Rows -/

def tripColumns : List String :=
  ["trip_id", "route_id", "direction_id", "block_id", "service_id", "frequency_based",
    "start_time_secs"]

/-- The trip of a row, still without its stop paths. -/
def trip? (c : Cells) : Option (Trip Float) := do
  let id ← c.required "trip_id" Cells.text
  let route ← c.required "route_id" Cells.text
  let direction ← c.optional "direction_id" Cells.text
  let block ← c.required "block_id" Cells.text
  let service ← c.required "service_id" Cells.text
  let frequencyBased ← c.flag "frequency_based" Cells.truth
  let start ← c.required "start_time_secs" Cells.seconds
  return { id, route, direction, block, service, frequencyBased, start, stopPaths := [] }

def stopPathColumns : List String :=
  ["trip_id", "stop_path_index", "stop_id", "travel_time_ms", "dwell_time_ms",
    "scheduled_time_secs", "wait_stop", "stop_radius_m"]

def stopPathRow? (c : Cells) : Option StopPathRow := do
  let trip ← c.required "trip_id" Cells.text
  let index ← c.required "stop_path_index" Cells.index
  let stop ← c.required "stop_id" Cells.text
  let travel ← c.required "travel_time_ms" Cells.integer
  let dwell ← c.required "dwell_time_ms" Cells.integer
  let scheduled ← c.required "scheduled_time_secs" Cells.seconds
  let waitStop ← c.flag "wait_stop" Cells.truth
  let radius ← c.optional "stop_radius_m" Cells.double
  return { trip, index, stopPath := { stop, travel, dwell, scheduled, waitStop, radius } }

def serviceDateColumns : List String := ["service_id", "date"]

def serviceDateRow? (c : Cells) : Option ServiceDateRow := do
  let service ← c.required "service_id" Cells.text
  let date ← c.required "date" Cells.date
  return { service, date }

/-! ## The timetable of rows -/

/-- The rows of stop paths by their trips, in the order of the table. -/
def byTrip (rows : List StopPathRow) : Std.TreeMap TripId (List StopPathRow) :=
  rows.foldr (fun row m => m.alter row.trip fun found => some (row :: found.getD [])) ∅

theorem byTrip_getD (rows : List StopPathRow) (trip : TripId) :
    ((byTrip rows)[trip]?).getD [] = rows.filter fun row => row.trip == trip := by
  induction rows with
  | nil => simp [byTrip]
  | cons row rows ih =>
    rw [byTrip, List.foldr_cons, ← byTrip, Std.TreeMap.getElem?_alter]
    by_cases h : row.trip = trip
    · simp [h, ← ih]
    · simp [h, ih]

/-- Stop paths in the order of their indices; those of one index keep their order. -/
def inOrder (rows : List StopPathRow) : List (StopPath Float) :=
  (rows.mergeSort fun a b => a.index ≤ b.index).map StopPathRow.stopPath

/-- Adds a trip with its stop paths, unless it has none or is there already. -/
def addTrip (paths : Std.TreeMap TripId (List StopPathRow)) (tt : Timetable Float)
    (trip : Trip Float) : Timetable Float :=
  match inOrder ((paths[trip.id]?).getD []) with
  | [] => tt
  | p :: ps =>
    if (tt.trip? trip.id).isSome then tt else tt.addTrip { trip with stopPaths := p :: ps }

/-- The timetable of rows. -/
def ofRows (trips : List (Trip Float)) (paths : List StopPathRow)
    (dates : List ServiceDateRow) : Timetable Float :=
  let tt := trips.foldl (addTrip (byTrip paths)) .empty
  dates.foldl (fun tt row => tt.addServiceDate row.service row.date) tt

/-! ## Reading -/

/-- The table of dates, which may be missing. -/
def readDates (t : FileTree) (folder : String) : Except FileError (List ServiceDateRow) :=
  let file := Path.join folder "calendar_dates.csv"
  if (t.entry? file).isNone then .ok []
  else t.readTable file serviceDateColumns serviceDateRow?

/-- The timetable in a folder. -/
def read (t : FileTree) (folder : String) : Except FileError (Timetable Float) := do
  let trips ← t.readTable (Path.join folder "trips.csv") tripColumns trip?
  let paths ← t.readTable (Path.join folder "stop_paths.csv") stopPathColumns stopPathRow?
  let dates ← readDates t folder
  return ofRows trips paths dates

end ScheduleFolder

end NextStop
