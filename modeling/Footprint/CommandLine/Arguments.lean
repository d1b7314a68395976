import Footprint.Format
import Footprint.Trace.Duration

/-!
# Arguments

The values of a command line are the trace, its format, a cache mode and any
number of values that are ignored, in this order. Options may stand before and
between the first three, and after the cache mode as long as nothing has been
ignored; the first ignored value takes everything after it along. Two dashes
make everything after them a value. An argument that looks like an option but is
none is refused while the trace or the format is still to come, and is a value
from then on. Letters behind one dash are read from left to right, and one that
is an option ends the reading, so while the trace or the format is still to come
the first letter alone decides; from then on letters that are not all options
are a value. Faults are found from left to right, so the first one decides.
-/

namespace Footprint

/-- What is to be measured, and how. -/
structure Settings where
  /-- The path of the trace. -/
  trace : String
  /-- The format of the trace. -/
  format : Format
  /-- The cache mode as given. -/
  cacheMode : Option String
  /-- The hours to which the measurement is limited. -/
  hours : Option UInt64
  /-- The path of the report. -/
  report : Option String
  deriving DecidableEq, Repr

/-- The mode that the settings choose. -/
def Settings.mode (s : Settings) : CacheMode :=
  .ofArgument s.cacheMode

namespace Arguments

/-- The options that take a value. -/
inductive Choice where
  /-- The limit of the measurement. -/
  | duration
  /-- The path of the report. -/
  | report
  deriving DecidableEq, Repr

/-- The name of an option. -/
def Choice.name : Choice → String
  | duration => "--duration"
  | report => "--report"

/-- Why a command line is refused. -/
inductive Refusal where
  /-- An option of this name does not exist. -/
  | unknown (argument : String)
  /-- The option has no value. -/
  | noValue (choice : Choice)
  /-- The option is given again. -/
  | repeated (choice : Choice)
  /-- The option takes no value. -/
  | unwantedValue (argument : String)
  /-- The value of the option or of the trace is empty. -/
  | empty (name : String)
  /-- The format does not exist. -/
  | format (e : Format.Unknown)
  /-- The duration is none. -/
  | duration (e : Duration.Invalid)
  /-- The trace or the format is missing. -/
  | missing (name : String)
  deriving DecidableEq, Repr

/-- The refusal in words. -/
def Refusal.message : Refusal → String
  | unknown argument => s!"unexpected argument '{argument}' found"
  | noValue choice => s!"a value is required for '{choice.name}' but none was supplied"
  | repeated choice => s!"the argument '{choice.name}' cannot be used multiple times"
  | unwantedValue argument => s!"unexpected value in '{argument}'"
  | empty name => s!"a value is required for '{name}' but an empty one was supplied"
  | format e => e.message
  | duration e => e.message
  | missing name => s!"the argument '{name}' was not provided"

/-- What a command line asks for. -/
inductive Request where
  /-- Measure a trace. -/
  | measure (settings : Settings)
  /-- Print the version. -/
  | version
  /-- Print a description of the program. -/
  | help
  /-- Nothing, because it is refused. -/
  | refuse (refusal : Refusal)
  deriving DecidableEq, Repr

/-- The options that ask for a text instead of a measurement. -/
inductive Question where
  /-- The option that asks for the version. -/
  | version
  /-- The option that asks for the description. -/
  | help
  deriving DecidableEq, Repr

/-- What the option asks for. -/
def Question.request : Question → Request
  | version => .version
  | help => .help

/-- The option of a letter. -/
def Question.ofLetter? : Char → Option Question
  | 'V' => some .version
  | 'h' => some .help
  | _ => none

/-- What an argument is when it is read on its own. -/
inductive Shape where
  /-- A value. -/
  | plain
  /-- Two dashes. -/
  | separator
  /-- An option that takes a value, with the value if it is attached. -/
  | choice (choice : Choice) (value : Option String)
  /-- An option that asks for a text, by its name or as the first of several letters. -/
  | question (question : Question)
  /-- Letters of which the first asks for a text and a later one is no option. -/
  | mixed (question : Question)
  /-- An option without values with a value attached. -/
  | unwantedValue
  /-- It looks like an option but is none. -/
  | unknown
  deriving DecidableEq, Repr

/-- The option of a long name and its attached value. -/
def longShape (name : List Char) (value : Option String) : Shape :=
  match String.ofList name, value with
  | "duration", value => .choice .duration value
  | "report", value => .choice .report value
  | "version", none => .question .version
  | "help", none => .question .help
  | "version", some _ => .unwantedValue
  | "help", some _ => .unwantedValue
  | _, _ => .unknown

/-- The option of the first letter, and whether the other letters are options too. -/
def shortShape (first : Char) (others : List Char) : Shape :=
  match Question.ofLetter? first with
  | none => .unknown
  | some question =>
    if others.all fun c => (Question.ofLetter? c).isSome then .question question
    else .mixed question

/-- The shape of an argument; a single dash is a value. -/
def shape (argument : String) : Shape :=
  match argument.toList with
  | ['-', '-'] => .separator
  | '-' :: '-' :: rest =>
    let name := rest.takeWhile (· ≠ '=')
    match rest.dropWhile (· ≠ '=') with
    | [] => longShape name none
    | _ :: value => longShape name (some (String.ofList value))
  | '-' :: first :: others => shortShape first others
  | _ => .plain

/-- What has been gathered from the arguments so far. -/
structure Draft where
  /-- The path of the trace. -/
  trace : Option String
  /-- The format of the trace. -/
  format : Option Format
  /-- The cache mode. -/
  cacheMode : Option String
  /-- The hours to which the measurement is limited. -/
  hours : Option UInt64
  /-- The path of the report. -/
  report : Option String
  deriving DecidableEq, Repr

namespace Draft

/-- Nothing has been gathered. -/
def empty : Draft := ⟨none, none, none, none, none⟩

/-- The trace and the format are there, so that anything may be a value. -/
def takesAnything (d : Draft) : Bool :=
  d.format.isSome

/-- The cache mode is there too, so that the next value is ignored. -/
def isFull (d : Draft) : Bool :=
  d.cacheMode.isSome

/-- Take a value as the trace, the format or the cache mode, whichever comes next. -/
def place (d : Draft) (value : String) : Except Refusal Draft :=
  match d.trace, d.format with
  | none, _ => if value.isEmpty then .error (.empty "TRACE") else .ok { d with trace := value }
  | some _, none =>
    match Format.ofName value with
    | .ok f => .ok { d with format := f }
    | .error e => .error (.format e)
  | some _, some _ => .ok { d with cacheMode := value }

/-- Take the value of an option. -/
def choose (d : Draft) (value : String) : Choice → Except Refusal Draft
  | .duration =>
    match Duration.hours value with
    | .error e => .error (.duration e)
    | .ok hours => if d.hours.isSome then .error (.repeated .duration) else .ok { d with hours }
  | .report =>
    if value.isEmpty then .error (.empty "--report")
    else if d.report.isSome then .error (.repeated .report)
    else .ok { d with report := value }

/-- The request of a finished draft. -/
def finish (d : Draft) : Request :=
  match d.trace, d.format with
  | none, _ => .refuse (.missing "TRACE")
  | some _, none => .refuse (.missing "FORMAT")
  | some trace, some format =>
    .measure { trace, format, cacheMode := d.cacheMode, hours := d.hours, report := d.report }

end Draft

/-- What the next argument can be. -/
inductive Phase where
  /-- An option or a value. -/
  | anything
  /-- The value of an option. -/
  | valueOf (choice : Choice)
  /-- A value, whatever it looks like. -/
  | valuesOnly
  /-- Nothing that matters. -/
  | ignored
  deriving DecidableEq, Repr

/-- Arguments being read. -/
structure Scan where
  /-- What has been gathered. -/
  draft : Draft
  /-- What comes next. -/
  phase : Phase
  deriving DecidableEq, Repr

namespace Scan

/-- No argument has been read. -/
def start : Scan := ⟨.empty, .anything⟩

/-- Take a value and stay in the phase, unless the value is ignored. -/
def value (s : Scan) (value : String) : Except Request Scan :=
  if s.draft.isFull then .ok { s with phase := .ignored }
  else match s.draft.place value with
    | .ok draft => .ok { s with draft }
    | .error e => .error (.refuse e)

/-- Take the value of an option. -/
def choose (s : Scan) (value : String) (choice : Choice) : Except Request Scan :=
  match s.draft.choose value choice with
  | .ok draft => .ok ⟨draft, .anything⟩
  | .error e => .error (.refuse e)

/-- Take an argument that may be an option. -/
def argument (s : Scan) (argument : String) : Except Request Scan :=
  match shape argument with
  | .plain => s.value argument
  | .unknown =>
    if s.draft.takesAnything then s.value argument else .error (.refuse (.unknown argument))
  | .separator => .ok { s with phase := .valuesOnly }
  | .question question => .error question.request
  | .mixed question =>
    if s.draft.takesAnything then s.value argument else .error question.request
  | .unwantedValue => .error (.refuse (.unwantedValue argument))
  | .choice choice none => .ok { s with phase := .valueOf choice }
  | .choice choice (some value) => s.choose value choice

/-- Take an argument after an option that needs a value. -/
def valueOf (s : Scan) (choice : Choice) (argument : String) : Except Request Scan :=
  match shape argument with
  | .plain => s.choose argument choice
  | .unknown =>
    if s.draft.takesAnything then s.choose argument choice
    else .error (.refuse (.unknown argument))
  | .mixed _ =>
    if s.draft.takesAnything then s.choose argument choice
    else .error (.refuse (.noValue choice))
  | _ => .error (.refuse (.noValue choice))

/-- Take one argument; a request that needs no further argument ends the scan. -/
def step (s : Scan) (argument : String) : Except Request Scan :=
  match s.phase with
  | .anything => s.argument argument
  | .valueOf choice => s.valueOf choice argument
  | .valuesOnly => s.value argument
  | .ignored => .ok s

/-- The request at the end of the arguments. -/
def finish (s : Scan) : Request :=
  match s.phase with
  | .valueOf choice => .refuse (.noValue choice)
  | _ => s.draft.finish

end Scan

/-- What the arguments of a command line ask for. -/
def parse (arguments : List String) : Request :=
  match arguments.foldlM Scan.step Scan.start with
  | .ok s => s.finish
  | .error request => request

/-- Once an argument has been ignored, no further argument matters. -/
theorem foldlM_step_ignored {s : Scan} (h : s.phase = .ignored) (arguments : List String) :
    arguments.foldlM Scan.step s = .ok s := by
  induction arguments with
  | nil => rfl
  | cons a rest ih =>
    rw [List.foldlM_cons, Scan.step, h]
    exact ih

end Arguments

end Footprint
