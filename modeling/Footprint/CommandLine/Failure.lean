import Footprint.Host
import Footprint.Measurement

/-!
# Failures

A failed run is described by what was being done and by the causes, the
outermost first. A single cause is indented; several causes are numbered. Lines
after the first of a cause are indented as far as its text.
-/

namespace Footprint

/-- The trace could not be opened. -/
structure OpenFault where
  /-- The path of the trace. -/
  path : String
  /-- Why it could not be opened. -/
  cause : HostError
  deriving DecidableEq, Repr

/-- The fault in words. -/
def OpenFault.message (e : OpenFault) : String :=
  s!"cannot open trace {e.path}: {e.cause.message}"

/-- Why a run failed; every failure has the path that it is about. -/
inductive Failure where
  /-- The trace could not be opened. -/
  | opening (path : String) (cause : HostError)
  /-- The reading of the trace ended with a fault. -/
  | reading (path : String) (fault : ReadingFault)
  /-- The units of an access cannot all be addressed. -/
  | expanding (path : String) (overflow : Access.Overflow)
  /-- The directory of the report could not be made. -/
  | reportDirectory (path directory : String) (cause : HostError)
  /-- The report could not be created. -/
  | report (path : String) (cause : HostError)
  deriving DecidableEq, Repr

namespace Failure

/-- What was being done. -/
def context : Failure → String
  | .opening path _ => s!"opening trace {path}"
  | .reading path _ => s!"reading trace {path}"
  | .expanding path _ => s!"expanding access in {path}"
  | .reportDirectory path _ _ => s!"writing run report to {path}"
  | .report path _ => s!"writing run report to {path}"

/-- The causes, the outermost first. -/
def causes : Failure → List String
  | .opening path cause => [OpenFault.message ⟨path, cause⟩, cause.message]
  | .reading _ (.entry e) => [e.message]
  | .reading _ (.content e) => [e.message, e.reason]
  | .expanding _ e => [e.message]
  | .reportDirectory _ directory cause => [s!"creating parent directory {directory}", cause.message]
  | .report path cause => [s!"create {path}", cause.message]

/-- A text with more space at the beginning of every line but the first. -/
def indentRest (space : String) (text : String) : String :=
  String.join (text.toList.map fun c => if c = '\n' then "\n" ++ space else c.toString)

/-- One of several causes. -/
def numbered (cause : String × Nat) : String :=
  let number := toString cause.2
  "".pushn ' ' (5 - number.length) ++ number ++ ": " ++ indentRest "       " cause.1 ++ "\n"

/-- The causes below their heading. -/
def renderCauses : List String → String
  | [cause] => "    " ++ indentRest "    " cause ++ "\n"
  | causes => String.join (causes.zipIdx.map numbered)

/-- The description of a failure. -/
def render (f : Failure) : String :=
  s!"Error: {f.context}\n\nCaused by:\n" ++ renderCauses f.causes

end Failure

end Footprint
