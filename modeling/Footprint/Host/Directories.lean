import Footprint.Host
import Footprint.Host.Path

/-!
# Making directories

A directory is made together with those above it that are missing. The search
goes up from the path to the first directory that exists or can be made, and the
missing ones are then made from there down. Anything but a missing step stops
the search, also a file that stands where a directory is needed.
-/

namespace Footprint.Host

variable {m : Type → Type} [Monad m]

/-- Make a directory, or find that it exists. -/
def ensureDirectory (host : Host m) (path : String) : m (Except HostError Unit) := do
  match ← host.makeDirectory path with
  | .error .alreadyExists =>
    if ← host.isDirectory path then return .ok () else return .error .alreadyExists
  | result => return result

/-- Go up to the first directory that exists or can be made; give those that are missing below. -/
def climb (host : Host m) : List String → m (Except HostError (List String))
  | [] => return .ok []
  | path :: above => do
    match ← host.ensureDirectory path with
    | .ok () => return .ok []
    | .error .notFound => return (← host.climb above).map (path :: ·)
    | .error e => return .error e

/-- Make directories one after the other, and stop at the first that cannot be made. -/
def makeEach (host : Host m) : List String → m (Except HostError Unit)
  | [] => return .ok ()
  | path :: rest => do
    match ← host.ensureDirectory path with
    | .ok () => host.makeEach rest
    | .error e => return .error e

/-- Make the directory at a path and those above it that are missing. -/
def makeDirectories (host : Host m) (path : String) : m (Except HostError Unit) := do
  match ← host.climb (Path.ancestors path) with
  | .ok missing => host.makeEach missing.reverse
  | .error e => return .error e

end Footprint.Host
