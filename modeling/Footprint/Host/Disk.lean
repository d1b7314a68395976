import Footprint.Host
import Footprint.Host.Path

/-!
# Disks

A disk holds directories and files in a tree, and paths that do not start at the
root start at the current directory. A path is walked step by step: every step
but the last must be a directory, a single dot stays in place and two dots go
up. A path that ends in a dot, in two dots or at the root is a directory
whatever it is used for; one that ends in a slash can only be a directory.
-/

namespace Footprint

/-- What stands at a place of a disk. -/
inductive Node where
  /-- A directory. -/
  | directory
  /-- A file with its bytes. -/
  | file (bytes : List UInt8)
  deriving DecidableEq, Repr

/-- The names that lead from the root to a place, the last one first. -/
abbrev Place := List String

/-- A tree of directories and files. -/
structure Disk where
  /-- What stands at the places other than the root. -/
  nodes : List (Place × Node)
  /-- The current directory. -/
  current : Place
  deriving Repr

namespace Disk

/-- The bytes that a whole path may have at most. -/
def pathLimit : Nat := 4095

/-- The bytes that one name may have at most. -/
def nameLimit : Nat := 255

/-- What stands at a place; the root is a directory. -/
def find? (d : Disk) (place : Place) : Option Node :=
  if place = [] then some .directory else d.nodes.lookup place

/-- The disk with something else at a place. -/
def put (d : Disk) (place : Place) (node : Node) : Disk :=
  { d with nodes := (place, node) :: d.nodes.filter (·.1 ≠ place) }

/-- What stands under a name in the directory at a place. -/
def child? (d : Disk) (place : Place) (name : String) : Except HostError (Option Node) :=
  if nameLimit < name.utf8ByteSize then .error .nameTooLong else .ok (d.find? (name :: place))

/-- Take one step from a directory to a directory. -/
def enter (d : Disk) (place : Place) (name : String) : Except HostError Place :=
  if name = "." then .ok place
  else if name = ".." then .ok place.tail
  else do
    match ← d.child? place name with
    | none => .error .notFound
    | some (.file _) => .error .notDirectory
    | some .directory => .ok (name :: place)

/-- Where a path leads. -/
inductive Target where
  /-- To a directory that exists. -/
  | directory (place : Place)
  /-- To a name in a directory that exists, with or without a slash after it. -/
  | named (place : Place) (name : String) (slash : Bool)
  deriving DecidableEq, Repr

/-- Walk along the names of a path. -/
def walk (d : Disk) (slash : Bool) : Place → List String → Except HostError Target
  | place, [] => .ok (.directory place)
  | place, [name] =>
    if name = "." ∨ name = ".." then (d.enter place name).map .directory
    else .ok (.named place name slash)
  | place, name :: rest => do d.walk slash (← d.enter place name) rest

/-- Where a path leads, if it leads anywhere. -/
def target (d : Disk) (path : String) : Except HostError Target :=
  if path.toList.contains '\x00' then .error .nulInName
  else if path.isEmpty then .error .notFound
  else if pathLimit < path.utf8ByteSize then .error .nameTooLong
  else d.walk (Path.endsInSlash path) (if Path.isAbsolute path then [] else d.current)
    (Path.names path)

/-- What stands at the end of a path. -/
def node (d : Disk) (path : String) : Except HostError Node := do
  match ← d.target path with
  | .directory _ => return .directory
  | .named place name slash =>
    match ← d.child? place name with
    | none => .error .notFound
    | some (.file bytes) => if slash then .error .notDirectory else return .file bytes
    | some .directory => return .directory

/-- The path leads to a directory. -/
def isDirectory (d : Disk) (path : String) : Bool :=
  match d.node path with
  | .ok .directory => true
  | _ => false

/-- Open a file to read; a directory can be opened, but reading it fails. -/
def openFile (d : Disk) (path : String) : Except HostError Content := do
  match ← d.node path with
  | .file bytes => return ⟨bytes, none⟩
  | .directory => return ⟨[], some HostError.isDirectory.message⟩

/-- Make one directory. -/
def makeDirectory (d : Disk) (path : String) : Except HostError Disk := do
  match ← d.target path with
  | .directory _ => .error .alreadyExists
  | .named place name _ =>
    match ← d.child? place name with
    | none => return d.put (name :: place) .directory
    | some _ => .error .alreadyExists

/-- Create or replace a file. -/
def writeFile (d : Disk) (path : String) (bytes : List UInt8) : Except HostError Disk := do
  match ← d.target path with
  | .directory _ => .error .isDirectory
  | .named place name slash =>
    if slash then .error .isDirectory
    else match ← d.child? place name with
      | some .directory => .error .isDirectory
      | _ => return d.put (name :: place) (.file bytes)

end Disk

/-- A disk together with standard input. -/
structure World where
  /-- The disk. -/
  disk : Disk
  /-- What standard input delivers. -/
  input : Content

/-- The host that works on a world. -/
def World.host : Host (StateM World) where
  standardInput := fun w => (w.input, w)
  openFile := fun path w => (w.disk.openFile path, w)
  isDirectory := fun path w => (w.disk.isDirectory path, w)
  makeDirectory := fun path w =>
    match w.disk.makeDirectory path with
    | .ok disk => (.ok (), { w with disk })
    | .error e => (.error e, w)
  writeFile := fun path text w =>
    match w.disk.writeFile path text.toUTF8.toList with
    | .ok disk => (.ok (), { w with disk })
    | .error e => (.error e, w)

end Footprint
