import Footprint.Trace.Source

/-!
# Hosts

The program meets the outside world in five places: standard input, opening a
file to read, asking for a directory, making one and writing a file. A host
supplies these actions in a monad of its own; everything else is decided without
it.
-/

namespace Footprint

/-- Why the outside world refused an action. -/
inductive HostError where
  /-- A step of the path does not exist. -/
  | notFound
  /-- The path exists already. -/
  | alreadyExists
  /-- A step of the path is not a directory. -/
  | notDirectory
  /-- The path is a directory. -/
  | isDirectory
  /-- The path or a step of it is too long. -/
  | nameTooLong
  /-- The path holds the null character. -/
  | nulInName
  /-- Another reason, in the words of the host. -/
  | other (reason : String)
  deriving DecidableEq, Repr

/-- The refusal in words, with the number of the system error if there is one. -/
def HostError.message : HostError → String
  | notFound => "No such file or directory (os error 2)"
  | alreadyExists => "File exists (os error 17)"
  | notDirectory => "Not a directory (os error 20)"
  | isDirectory => "Is a directory (os error 21)"
  | nameTooLong => "File name too long (os error 36)"
  | nulInName => "file name contained an unexpected NUL byte"
  | other reason => reason

/-- The actions by which the program meets the outside world. -/
structure Host (m : Type → Type) where
  /-- All of standard input. -/
  standardInput : m Content
  /-- Open the file at a path and read it; a failure after opening is part of the content. -/
  openFile : String → m (Except HostError Content)
  /-- Whether a path leads to a directory. -/
  isDirectory : String → m Bool
  /-- Make the directory at a path; the one above it must exist. -/
  makeDirectory : String → m (Except HostError Unit)
  /-- Create or replace the file at a path with the given text. -/
  writeFile : String → String → m (Except HostError Unit)

end Footprint
