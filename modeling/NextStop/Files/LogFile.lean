import NextStop.Files.FileTree
import NextStop.ServiceDay
import NextStop.Text.DateText

/-!
# The log file

Before anything else a run opens its log, to which it tells what it is doing. There is a file for
each day, whose name ends in the date. A variable of the environment may say where the files are
and how their names start. What is told there is not a part of the answers of this library, so
here the file is only made if it is missing; a run that cannot open it ends at once.
-/

namespace NextStop

/-- Where the log files are and how their names start. -/
structure LogFile where
  folder : String
  name : String

namespace LogFile

/-- The variable that tells where the log files are. -/
def variableName : String := "LOG_FILE_PATH"

/-- The log files of a run that is not told where they are. -/
def standard : LogFile := ⟨"logs", "transit_predictor.log"⟩

/-- The log files of a path. A part that the path lacks is the standard one; a path back lacks a
name, and one to the root or to nothing lacks both. -/
def ofPath (path : String) : LogFile :=
  let names := (Path.names path).filter fun name => name ≠ "" ∧ name ≠ "."
  match names.getLast? with
  | none =>
    if path = "" ∨ Path.isAbsolute path then standard else { standard with folder := "" }
  | some last =>
    let way := "/".intercalate names.dropLast
    { folder := if Path.isAbsolute path then "/" ++ way else way
      name := if last = ".." then standard.name else last }

/-- The log files that the environment asks for. -/
def ofEnvironment (environment : String → Option String) : LogFile :=
  match environment variableName with
  | some path => ofPath path
  | none => standard

/-- The log file of a day. -/
def path (log : LogFile) (day : Date) : String :=
  Path.join log.folder (log.name ++ "." ++ day.write)

/-- Makes the log file of the present day, and tells whether it is there now. -/
def start (log : LogFile) (present : Int) (d : Disk) : Bool × Disk :=
  let (_, d) := d.change (.makeFolders log.folder)
  d.change (.append (log.path (ServiceDay.dateOf present 0)) "")

end LogFile

end NextStop
