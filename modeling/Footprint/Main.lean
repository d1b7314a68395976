import Footprint.CommandLine.Program

/-!
# The command line

The program runs on the files and the standard input of the machine. Refusals of
the machine are known by the numbers of its errors.
-/

namespace Footprint.Machine

/-- The refusal that an error of the machine stands for. -/
def refusalOf (e : IO.Error) : HostError :=
  match e with
  | .noFileOrDirectory .. => .notFound
  | .alreadyExists .. => .alreadyExists
  | .inappropriateType _ 20 _ => .notDirectory
  | .inappropriateType _ 21 _ => .isDirectory
  | .invalidArgument _ 36 _ => .nameTooLong
  | e => .other (toString e)

/-- Everything that can be read from a stream, and the failure that ended it. -/
partial def readAll (stream : IO.FS.Stream) (bytes : ByteArray) : IO Content := do
  match ← (stream.read 65536).toBaseIO with
  | .ok more => if more.isEmpty then return ⟨bytes.toList, none⟩ else readAll stream (bytes ++ more)
  | .error e => return ⟨bytes.toList, some (refusalOf e).message⟩

/-- An action of the machine with its refusal. -/
def attempt {α : Type} (path : String) (action : IO α) : IO (Except HostError α) := do
  if path.contains '\x00' then return .error .nulInName
  match ← action.toBaseIO with
  | .ok a => return .ok a
  | .error e => return .error (refusalOf e)

/-- The machine as a host. -/
def host : Host IO where
  standardInput := do readAll (← IO.getStdin) .empty
  openFile := fun path => attempt path do
    readAll (.ofHandle (← IO.FS.Handle.mk path .read)) .empty
  isDirectory := fun path => do
    let first ← attempt path do (← IO.FS.Handle.mk path .read).read 1
    return first matches .error .isDirectory
  makeDirectory := fun path => attempt path (IO.FS.createDir path)
  writeFile := fun path text => attempt path (IO.FS.writeFile path text)

end Footprint.Machine

/-- Run the program on the machine. -/
def main (arguments : List String) : IO UInt32 := do
  let outcome ← Footprint.Program.run Footprint.Machine.host arguments
  (← IO.getStdout).putStr outcome.output
  (← IO.getStderr).putStr outcome.errors
  return outcome.code.toUInt32
