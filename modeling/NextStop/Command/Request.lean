import NextStop.Command.Help
import NextStop.Command.SettingsFlags
import NextStop.Files.RecordFiles

/-!
# Requests

What can be asked for on the command line: a replay of recorded reports, or a look at the
statistics that a history gives. The first argument names the command, the flags follow.
-/

namespace NextStop

/-- What a replay needs to know. -/
structure ReplayOptions where
  /-- The folder of the timetable. -/
  schedule : String
  /-- The file of reports. -/
  reports : String
  /-- The file of arrivals and departures for a warm start. -/
  history : Option String
  /-- The folder that the records are written to. -/
  output : String
  settings : Settings Float

/-- What a look at the statistics needs to know. -/
structure InspectOptions where
  /-- The file of arrivals and departures. -/
  history : String
  /-- The time to look from, if it is not the present. -/
  time : Option Int
  settings : Settings Float

/-- What is asked for. -/
inductive Request where
  | replay (options : ReplayOptions)
  | inspect (options : InspectOptions)

namespace ReplayOptions

/-- The options of a replay for which no flag is given. -/
def standard : ReplayOptions := ⟨"", "", none, "output", .standard⟩

/-- The flags that a replay needs. -/
def needed : List String := ["schedule-dir", "reports"]

def about : String := "Replay matched AVL reports on a virtual clock and write the results as CSV"

def flags : List (Flag ReplayOptions) := [
  ⟨"schedule-dir", none, none,
    "Directory holding trips.csv, stop_paths.csv and calendar_dates.csv",
    .path ⟨(·.schedule), fun s o => { o with schedule := s }⟩⟩,
  ⟨"reports", none, none, "CSV of matched AVL reports",
    .path ⟨(·.reports), fun s o => { o with reports := s }⟩⟩,
  ⟨"history", none, none, "Arrival/departure history CSV used to warm the caches",
    .path ⟨(·.history.getD ""), fun s o => { o with history := some s }⟩⟩,
  ⟨"output-dir", some 'o', none, "Directory to write one CSV per record kind",
    .path ⟨(·.output), fun s o => { o with output := s }⟩⟩] ++
  Settings.flags.map (Flag.within ⟨(·.settings), fun s o => { o with settings := s }⟩)

/-- The files that a replay reads. -/
def inputs (o : ReplayOptions) : List String :=
  ["trips.csv", "stop_paths.csv", "calendar_dates.csv"].map (Path.join o.schedule) ++
    o.reports :: o.history.toList

end ReplayOptions

namespace InspectOptions

/-- The options of a look at the statistics for which no flag is given. -/
def standard : InspectOptions := ⟨"", none, .standard⟩

/-- The flags that a look at the statistics needs. -/
def needed : List String := ["history"]

def about : String := "Warm the caches from history and print cache key counts as JSON"

def flags : List (Flag InspectOptions) := [
  ⟨"history", none, none, "Arrival/departure history CSV",
    .path ⟨(·.history), fun s o => { o with history := s }⟩⟩,
  ⟨"at-ms", none, none, "Evaluate as of this epoch time in ms instead of now",
    .time ⟨(·.time), fun n o => { o with time := n }⟩⟩] ++
  Settings.flags.map (Flag.within ⟨(·.settings), fun s o => { o with settings := s }⟩)

end InspectOptions

namespace Request

/-- What the command that gives help is for. -/
def aboutHelp : String := "Print this message or the help of the given subcommand(s)"

def about : String := "Real-time vehicle state and arrival prediction engine"

/-- The commands, with what they are for. -/
def commands : List (String × String) :=
  [("replay", ReplayOptions.about), ("inspect", InspectOptions.about),
    ("help", aboutHelp)]

/-- The request on a command line. -/
def parse (environment : String → Option String) : List String → Except Refusal Request
  | [] => .error .nothing
  | "replay" :: rest =>
    (Flag.parse ReplayOptions.flags ReplayOptions.needed environment .standard rest).map replay
  | "inspect" :: rest =>
    (Flag.parse InspectOptions.flags InspectOptions.needed environment .standard rest).map inspect
  | ["help"] => .error (.help true)
  | ["help", name] =>
    .error (if commands.any (·.1 == name) then .help true else .unknownCommand)
  | "help" :: _ => .error .unknownCommand
  | argument :: _ =>
    match Flag.meetArgument ([] : List (Flag Unit)) argument ⟨(), [], none⟩ with
    | .error r => .error r
    | .ok _ => .error .unknownCommand

/-- The help that a command line asks for: on the command that it names, or on all. -/
def markedHelp (full : Bool) (environment : String → Option String) : List String → String
  | "replay" :: _ | "help" :: "replay" :: _ =>
    Help.ofCommand full environment "replay" ReplayOptions.about ReplayOptions.needed
      ReplayOptions.standard ReplayOptions.flags
  | "inspect" :: _ | "help" :: "inspect" :: _ =>
    Help.ofCommand full environment "inspect" InspectOptions.about InspectOptions.needed
      InspectOptions.standard InspectOptions.flags
  | "help" :: "help" :: _ => Help.ofHelp aboutHelp
  | _ => Help.ofProgram about commands

/-- The help that a command line asks for, as it is printed. -/
def help (full : Bool) (environment : String → Option String) (arguments : List String) :
    String :=
  Help.display environment (markedHelp full environment arguments)

/-- The files that a request reads. -/
def inputs : Request → List String
  | replay o => o.inputs
  | inspect o => [o.history]

/-- The files that a request adds to. -/
def outputs : Request → List String
  | replay o => Record.fileNames.map (Path.join o.output)
  | inspect _ => []

end Request

end NextStop
