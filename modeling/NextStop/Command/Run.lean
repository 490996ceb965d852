import NextStop.Command.Answer
import NextStop.Command.EnvironmentFile
import NextStop.Command.Request
import NextStop.Files.HistoryFile
import NextStop.Files.LogFile
import NextStop.Files.ReportFile
import NextStop.Files.ScheduleFolder
import NextStop.Records.Writer

/-!
# Running requests

The whole program as a function: from the files, the variables of the environment, the present
time and the command line to what is printed, the exit status and the changes to the files.
-/

namespace NextStop

/-- Why a request could not be carried out. -/
inductive RunError where
  | file (e : FileError)
  /-- The folder for the records cannot be made. -/
  | folder (path : String)
  /-- A report at the end of time, which the sweeps before it never reach. -/
  | endless

def RunError.message : RunError → String
  | file e => e.message
  | folder path => "creating " ++ path
  | endless => "a report at the end of time"

/-- Work on a disk that may fail; what was changed before stays. -/
abbrev Work := ExceptT RunError (StateM Disk)

namespace Work

/-- The result of reading files. -/
def read {β : Type} (f : FileTree → Except FileError β) : Work β := do
  match f (← get).tree with
  | .ok b => return b
  | .error e => throw (.file e)

/-- Makes a folder. -/
def makeFolder (path : String) : Work Unit := do
  let (made, d) := (← get).change (.makeFolders path)
  set d
  unless made do throw (.folder path)

/-- An engine after a warm start from a history file, if there is one. -/
def warmUp (e : Engine Float) (now : Int) (history : Option String) : Work (Engine Float) :=
  match history with
  | none => return e
  | some file => do return e.warmUp now (← read fun t => HistoryFile.read t file)

end Work

namespace ReplayOptions

/-- The records that wait at the end of a replay, in batches. -/
def batches (e : Engine Float) : List (List (Record Float)) :=
  match e.journal with
  | .queued q => (Writer.start.round true q).2.batches
  | .kept records => [records.toList]

/-- Carries out a replay. The clock starts at the first report. -/
def run (o : ReplayOptions) : Work Json := do
  let timetable ← Work.read fun t => ScheduleFolder.read t o.schedule
  let reports ← Work.read fun t => ReportFile.read t o.reports
  let now := (reports.head?.map fun m => m.report.time).getD 0
  Work.makeFolder o.output
  let engine := Engine.start o.settings timetable (.queued (.empty o.settings.queueCapacity))
  let engine ← Work.warmUp engine now o.history
  match Replay.run? engine now reports with
  | none => throw .endless
  | some s =>
    modify fun d => d.writeBatches o.output (batches s.engine)
    return s.summary.toJson

end ReplayOptions

namespace InspectOptions

/-- Carries out a look at the statistics. -/
def run (o : InspectOptions) (present : Int) : Work Json := do
  let now := o.time.getD present
  let engine ← Work.warmUp (Engine.start o.settings .empty (.kept #[])) now (some o.history)
  return (engine.statistics.keyCounts now).toJson

end InspectOptions

def Request.run (present : Int) : Request → Work Json
  | replay o => o.run
  | inspect o => o.run present

/-- What a run of the program comes to. -/
structure RunResult where
  status : Nat
  output : String
  /-- What is told about a failure. -/
  complaint : String
  disk : Disk

namespace RunResult

/-- The outcome of a run that cannot start. -/
def ofBreakdown (d : Disk) (complaint : String) : RunResult := ⟨101, "", complaint ++ "\n", d⟩

/-- The outcome of a refused command line. Help is an answer, all else a failure. -/
def ofRefusal (d : Disk) (environment : String → Option String) (arguments : List String) :
    Refusal → RunResult
  | .help full => ⟨0, Request.help full environment arguments, "", d⟩
  | .nothing => ⟨2, "", Request.help true environment [], d⟩
  | r => ⟨2, "", "error: " ++ r.message ++ "\n", d⟩

/-- The outcome of a request. -/
def ofWork (d : Disk) (w : Work Json) : RunResult :=
  match w.run.run d with
  | (.ok answer, disk) => ⟨0, answer.indented 0 ++ "\n", "", disk⟩
  | (.error e, disk) => ⟨1, "", "Error: " ++ e.message ++ "\n", disk⟩

end RunResult

/-- The variable that may tell with how many workers the program runs. Its answers do not depend
on their number. -/
def workersVariable : String := "TOKIO_WORKER_THREADS"

/-- The numbers of workers with which the program can start. A table of more does not fit into any
memory. -/
def workers : Number.Range := ⟨1, 1152921504606846975⟩

/-- Whether the program can start with the workers that the environment asks for. -/
def canStart (set : EnvironmentFile.Variables) : Bool :=
  match set.lookup workersVariable with
  | none => true
  | some s => (workers.read? 10 s.toList).isSome

/-- The name of the file of variables. -/
def variablesFile : String := ".env"

/-- The variables of the environment with those of the file. -/
def allVariables (t : FileTree) (set : EnvironmentFile.Variables) :
    Except EnvironmentFile.Failure EnvironmentFile.Variables :=
  match t.file? variablesFile with
  | some content => EnvironmentFile.load set content
  | none => .ok set

/-- Runs the program, after its workers have been set up: sets the variables, opens the log, and
only then reads the command line. -/
def runWithWorkers (t : FileTree) (set : EnvironmentFile.Variables) (present : Int)
    (arguments : List String) : RunResult :=
  match allVariables t set with
  | .error failure => RunResult.ofBreakdown (.ofTree t) ("setting " ++ failure.name)
  | .ok all =>
    let environment (name : String) : Option String := all.lookup name
    let log := LogFile.ofEnvironment environment
    match log.start present (.ofTree t) with
    | (false, d) => RunResult.ofBreakdown d ("opening the log " ++ log.name)
    | (true, d) =>
      match Request.parse environment arguments with
      | .error r => RunResult.ofRefusal d environment arguments r
      | .ok request => RunResult.ofWork d (request.run present)

/-- Runs the program. -/
def run (t : FileTree) (set : EnvironmentFile.Variables) (present : Int)
    (arguments : List String) : RunResult :=
  if canStart set then runWithWorkers t set present arguments
  else RunResult.ofBreakdown (.ofTree t) ("reading " ++ workersVariable)

end NextStop
