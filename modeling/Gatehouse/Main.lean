import Gatehouse.Session
import Std.Time.DateTime.Timestamp

/-!
# The program

What this file fixes:

* `Program.survey`: the part of the machine's disk that a run looks at, as a `Disk`, with what the
  system denies there;
* `Program.stamp`: a random identity and the present time;
* `main`: the run of the program's arguments. What a run prints, how it ends and which events it
  reports is decided by `Session.run`; here files are read, text is printed, and the events are
  appended to the audit file.
-/

namespace Gatehouse.Program

/-! ## 1. Reading the disk -/

/-- What stands at a path. What is closed is there and cannot be read; what is hidden lies in a
    folder that cannot be gone through. -/
inductive Found where
  | nothing
  | folder
  | file (bytes : List UInt8)
  | closedFolder
  | closedFile
  | hidden

/-- What stands at a path that cannot be read. Only what is not hidden has a path of its own, and
    only a folder has itself as a component. -/
def lookClosed (path : String) : IO Found := do
  try
    let _ ← IO.FS.realPath path
  catch _ => return .hidden
  try
    let _ ← IO.FS.readBinFile (path ++ "/.")
    return .closedFolder
  catch
    | .permissionDenied _ _ _ => return .closedFolder
    | _ => return .closedFile

/-- What stands at a path of the machine's disk. The system answers a read from a folder with the
    error number 21. -/
def look (path : String) : IO Found := do
  try
    return .file (← IO.FS.readBinFile path).toList
  catch
    | .inappropriateType _ 21 _ => return .folder
    | .inappropriateType _ _ _ => return .nothing
    | .noFileOrDirectory _ _ _ => return .nothing
    | .invalidArgument _ _ _ => return .nothing
    | .permissionDenied _ _ _ => lookClosed path
    | e => throw e

/-- A disk with what stands at one place of the machine's disk. -/
def note (disk : Disk) (place : Place) : IO Disk := do
  match ← look (Text.joinWith "/" place) with
  | .nothing => return disk
  | .folder => return disk.addFolder place
  | .file bytes => return disk.put place bytes
  | .closedFolder => return (disk.addFolder place).deny place .read
  | .closedFile => return (disk.put place []).deny place .read
  | .hidden => return disk.deny place.dropLast .search

/-- A disk with what stands on the way to the end of a path, and there. A folder on the way may be
    one that is still to be created. -/
def observe (disk : Disk) (path : String) : IO Disk :=
  ((FilePath.beginnings path).map Disk.placeOf).foldlM note disk

/-- The files that a command names. -/
def filesOf : Command → List String
  | .validate => []
  | .check request => [request]
  | .explain _ request => [request]

/-- The part of the disk that a run looks at, and the path of its audit file if it has one. The
    settings tell which files these are. -/
def survey (args : List String) : IO (Disk × Option String) := do
  match CommandLine.parse args with
  | .error _ => return (.empty, none)
  | .ok line =>
      let disk ← observe .empty line.config
      match Session.settings disk line with
      | .error _ => return (disk, none)
      | .ok s =>
          let audit := s.logging.auditPath
          let disk ← (s.policyFile :: audit :: filesOf line.command).foldlM observe disk
          return (disk, some audit)

/-! ## 2. Writing the audit trail -/

/-- A random identity and the present time. -/
def stamp : IO Session.Stamp := do
  let bytes ← IO.getRandomBytes 16
  let now ← Std.Time.Timestamp.now
  let nanos := now.toNanosecondsSinceUnixEpoch.val.toNat
  let second := 1000000000
  return ((Uuid.ofBytes? bytes.toList).getD .zero, .ofEpoch (nanos / second) (nanos % second))

/-- The last place on the way to the end of a path where something stands. -/
def lastHeld (disk : Disk) (path : String) : Place :=
  let held := ((FilePath.beginnings path).map Disk.placeOf).filter disk.has
  held.getLast?.getD (Disk.origin path)

/-- Creates the file at a path and the folders it is in, as far as that can be done: the disk, with
    what the system denies there. -/
def prepare (disk : Disk) (path : String) : IO Disk := do
  try
    match FilePath.folders path with
    | [] => pure ()
    | folder :: _ => IO.FS.createDirAll folder
    let _ ← IO.FS.Handle.mk path .append
    return disk
  catch
    | .permissionDenied _ _ _ => return disk.deny (lastHeld disk path) .write
    | _ => return disk

/-- Appends text to the file at a path, in a folder that is there. -/
def appendText (path text : String) : IO Unit := do
  let file ← IO.FS.Handle.mk path .append
  file.putStr text
  file.flush

/-! ## 3. Runs -/

/-- A run on the machine's disk, and its exit code. -/
def run (args : List String) : IO UInt32 := do
  let (surveyed, audit) ← survey args
  let disk ← match audit with
    | some path => prepare surveyed path
    | none => pure surveyed
  let ending := Session.run disk args
  match audit, ending.trail with
  | some path, some (_, events) =>
      let stamps ← events.mapM fun _ => stamp
      appendText path (Session.trailText stamps events)
  | _, _ => pure ()
  IO.print ending.out
  IO.eprint ending.err
  return UInt32.ofNat ending.exit

end Gatehouse.Program

/-- The program. A failure of the machine's disk that no run foresees ends it with exit code 1. -/
def main (args : List String) : IO UInt32 := do
  try
    Gatehouse.Program.run args
  catch e =>
    IO.eprintln ("Error: " ++ toString e)
    return 1
