import Footprint.CommandLine.Arguments
import Footprint.CommandLine.Failure
import Footprint.CommandLine.Report
import Footprint.Host.Directories

/-!
# The program

A run reads its arguments, measures the trace, writes the report if one is asked
for, and prints the footprint. The report is written before anything is printed,
and nothing is written or printed when an earlier step fails.
-/

namespace Footprint

/-- The path that stands for standard input. -/
def standardInputPath : String := "-"

/-- What a run leaves behind apart from files. -/
structure Outcome where
  /-- The exit code. -/
  code : UInt8
  /-- The text printed as the result. -/
  output : String
  /-- The text printed about errors. -/
  errors : String
  deriving DecidableEq, Repr

namespace Outcome

/-- The run succeeded and printed a result. -/
def success (output : String) : Outcome := ⟨0, output, ""⟩

/-- The run failed. -/
def failure (f : Failure) : Outcome := ⟨1, "", f.render⟩

/-- The arguments were refused. -/
def refusal (r : Arguments.Refusal) : Outcome := ⟨2, "", s!"error: {r.message}\n"⟩

end Outcome

namespace Program

/-- The name and the version of the program. -/
def version : String := "wss 0.1.0\n"

/-- The description of the program. -/
def help : String :=
  String.intercalate "\n" [
    "Working-set size of a block I/O trace",
    "",
    "Usage: wss [OPTIONS] <TRACE> <FORMAT> [CACHE_MODE]",
    "",
    "Arguments:",
    "  <TRACE>       Trace file to read (`-` for standard input)",
    "  <FORMAT>      Trace format: `fiu` or `msr`",
    "  [CACHE_MODE]  Cache mode; only `dm-cache` changes anything (64 KiB cache blocks)",
    "",
    "Options:",
    "      --duration <DURATION>  Only measure the first part of the trace, e.g. `12h` or `2d`",
    "      --report <REPORT>      Also write a JSON run report to this path",
    "  -h, --help                 Print help",
    "  -V, --version              Print version",
    ""]

variable {m : Type → Type} [Monad m]

/-- Open a trace, or standard input for its path. -/
def openSource (host : Host m) (path : String) : m (Except OpenFault Content) := do
  if path = standardInputPath then
    return .ok (← host.standardInput)
  else
    return (← host.openFile path).mapError (OpenFault.mk path)

/-- The failure of a measurement of the trace at a path. -/
def failureOf (path : String) : MeasurementFault → Failure
  | .reading e => .reading path e
  | .overflow e => .expanding path e

/-- Measure the trace that the settings name. -/
def measurement (host : Host m) (s : Settings) : m (Except Failure Measurement) := do
  match ← openSource host s.trace with
  | .error e => return .error (.opening s.trace e.cause)
  | .ok content =>
    let measured := Measurement.run s.format s.mode s.hours content
    match measured.fault with
    | some fault => return .error (failureOf s.trace fault)
    | none => return .ok measured

/-- The report of a measurement. -/
def reportOf (s : Settings) (measured : Measurement) : Report :=
  { trace := s.trace, format := s.format, mode := s.mode, hours := s.hours,
    stats := measured.stats, totals := measured.totals }

/-- Make the directory of a report, unless it is the current one. -/
def makeParent (host : Host m) (path : String) : m (Except Failure Unit) := do
  match Path.parent? path with
  | none => return .ok ()
  | some directory =>
    if directory.isEmpty then return .ok ()
    else return (← host.makeDirectories directory).mapError (.reportDirectory path directory)

/-- Write a report. -/
def saveReport (host : Host m) (path : String) (report : Report) : m (Except Failure Unit) := do
  match ← makeParent host path with
  | .error e => return .error e
  | .ok () => return (← host.writeFile path report.render).mapError (.report path)

/-- Write the report of a measurement if the settings ask for one. -/
def saveReport? (host : Host m) (s : Settings) (measured : Measurement) :
    m (Except Failure Unit) :=
  match s.report with
  | none => return .ok ()
  | some path => saveReport host path (reportOf s measured)

/-- Measure and report as the settings say. -/
def perform (host : Host m) (s : Settings) : m Outcome := do
  match ← measurement host s with
  | .error e => return .failure e
  | .ok measured =>
    match ← saveReport? host s measured with
    | .error e => return .failure e
    | .ok () => return .success (toString measured.totals.footprint ++ "\n")

/-- Do what the arguments ask for. -/
def run (host : Host m) (arguments : List String) : m Outcome :=
  match Arguments.parse arguments with
  | .measure s => perform host s
  | .version => return .success version
  | .help => return .success help
  | .refuse r => return .refusal r

end Program

end Footprint
