import Gatehouse.FilePath

/-!
# Files and folders

What this file fixes:

* `Disk`: the files and folders below the working folder, each named by its components, and what
  else has been named by paths that leave it. Files hold bytes. A run may be denied to read or to
  write a file, to create something in a folder, or to go through it;
* `Disk.read`: the text of a file, whose bytes may be those of no text;
* `Disk.openForAppending`: the place where text is appended, which is created if there is nothing,
  together with the folders it is in. Folders that were created stay, even if the file cannot be
  opened then;
* `DiskError`: why a path cannot be followed, with the system's wording and number.
-/

namespace Gatehouse

/-- Why a path cannot be followed, or what stands at its end cannot be read or written. -/
inductive DiskError where
  | notFound
  | denied
  | exists
  | notFolder
  | isFolder
  | nameTooLong
  | nulInName
  | notText
  deriving DecidableEq, Repr

/-- The wording of a disk error. -/
def DiskError.message : DiskError → String
  | .notFound => "No such file or directory (os error 2)"
  | .denied => "Permission denied (os error 13)"
  | .exists => "File exists (os error 17)"
  | .notFolder => "Not a directory (os error 20)"
  | .isFolder => "Is a directory (os error 21)"
  | .nameTooLong => "File name too long (os error 36)"
  | .nulInName => "file name contained an unexpected NUL byte"
  | .notText => "stream did not contain valid UTF-8"

/-- The components of a place below the working folder. A place elsewhere starts with the root, or
    with the steps that lead up to a folder around the working one. -/
abbrev Place := List String

/-- What a run may be denied: to read a file or a folder, to write a file or to create something
    in a folder, and to go through a folder. -/
inductive Access where
  | read
  | write
  | search
  deriving DecidableEq, Repr

/-- Files with their bytes, and folders. The working folder itself has no components. -/
structure Disk where
  files : List (Place × List UInt8)
  folders : List Place
  denied : List (Place × Access)
  deriving DecidableEq, Repr

namespace Disk

/-- A disk without files. -/
def empty : Disk := ⟨[], [], []⟩

/-- The place of the root. -/
def root : Place := ["/"]

/-- The place is the working folder or a folder around it, which are there without being noted. -/
def isAround (p : Place) : Bool := p == root || p.all (· == "..")

/-- There is a folder at a place. -/
def hasFolder (d : Disk) (p : Place) : Bool := isAround p || d.folders.contains p

/-- There is a file at a place. -/
def hasFile (d : Disk) (p : Place) : Bool := (d.files.lookup p).isSome

/-- The run is denied something at a place. -/
def denies (d : Disk) (p : Place) (a : Access) : Bool := d.denied.contains (p, a)

/-- Denies something at a place. -/
def deny (d : Disk) (p : Place) (a : Access) : Disk := { d with denied := d.denied ++ [(p, a)] }

/-- Adds the folder at a place. -/
def addFolder (d : Disk) (p : Place) : Disk :=
  if d.hasFolder p then d else { d with folders := d.folders ++ [p] }

/-- Adds the folders that a place is in. -/
def addFoldersOf (d : Disk) (p : Place) : Disk :=
  (List.range p.length).foldl (fun d n => d.addFolder (p.take n)) d

/-- Gives the file at a place its bytes. -/
def put (d : Disk) (p : Place) (bytes : List UInt8) : Disk :=
  if d.hasFile p then
    { d with files := d.files.map fun f => if f.1 = p then (p, bytes) else f }
  else { d with files := d.files ++ [(p, bytes)] }

/-- The disk of some named texts and the folders they are in, where nothing is denied. -/
def ofFiles (files : List (String × String)) : Disk :=
  files.foldl (fun d f =>
    let p := FilePath.parts f.1
    (d.addFoldersOf p).put p (Text.bytes f.2.toList)) empty

/-! ## 1. Following a path -/

/-- The place where a path starts. -/
def origin (path : String) : Place := if FilePath.isAbsolute path then root else []

/-- The steps of a path: its components, and an empty one where the path ends in a slash, since
    there must be a folder then. -/
def steps (path : String) : List String :=
  let fields := FilePath.fields path
  (fields.filter (· != "")) ++ (if fields.getLast? == some "" then [""] else [])

/-- One step from a folder. The root is the folder around itself. -/
def step (here : Place) (s : String) : Place :=
  if s = "" ∨ s = "." then here
  else if s = ".." then
    if here = root then here else if isAround here then here ++ [s] else here.dropLast
  else here ++ [s]

/-- The place that a path names, whatever stands on the way. -/
def placeOf (path : String) : Place := (steps path).foldl step (origin path)

/-- The greatest number of bytes of a component. -/
def maxName : Nat := 255

/-- The number of bytes that no path has. -/
def pathLimit : Nat := 4096

/-- One step from a place, which must be a folder. A step that has a name goes through it. -/
def enter (d : Disk) (here : Place) (s : String) : Except DiskError Place :=
  if d.hasFolder here then
    if s ≠ "" ∧ d.denies here .search then .error .denied
    else if maxName < Text.byteLength s.toList then .error .nameTooLong
    else .ok (step here s)
  else if d.hasFile here then .error .notFolder
  else .error .notFound

/-- The place that steps lead to from a place; every place that is left must be a folder. -/
def walk (d : Disk) (here : Place) : List String → Except DiskError Place
  | [] => .ok here
  | s :: rest =>
      match d.enter here s with
      | .error e => .error e
      | .ok next => walk d next rest

/-- The text of a path can be the name of anything. -/
def checkPath (path : String) : Except DiskError Unit :=
  if path.toList.contains '\x00' then .error .nulInName
  else if path.isEmpty then .error .notFound
  else if pathLimit ≤ Text.byteLength path.toList then .error .nameTooLong
  else .ok ()

/-- The place that a path leads to. -/
def locate (d : Disk) (path : String) : Except DiskError Place :=
  match checkPath path with
  | .error e => .error e
  | .ok () => d.walk (origin path) (steps path)

/-- The place of a file to append to. A path that ends in a slash leads to no file, whatever its
    last component names. -/
def locateFile (d : Disk) (path : String) : Except DiskError Place :=
  if (FilePath.fields path).getLast? = some "" then
    match checkPath path with
    | .error e => .error e
    | .ok () =>
        match d.walk (origin path) ((steps path).dropLast.dropLast ++ ["."]) with
        | .error e => .error e
        | .ok _ => .error .isFolder
  else d.locate path

/-- There is something at a place. -/
def has (d : Disk) (p : Place) : Bool := d.hasFolder p || d.hasFile p

/-- There is something at the end of a path. -/
def holds (d : Disk) (path : String) : Bool :=
  match d.locate path with
  | .ok p => d.has p
  | .error _ => false

/-- There is a folder at the end of a path. -/
def holdsFolder (d : Disk) (path : String) : Bool :=
  match d.locate path with
  | .ok p => d.hasFolder p
  | .error _ => false

/-! ## 2. Reading -/

/-- The bytes of the file at a path. -/
def readBytes (d : Disk) (path : String) : Except DiskError (List UInt8) :=
  match d.locate path with
  | .error e => .error e
  | .ok p =>
      if d.has p ∧ d.denies p .read then .error .denied
      else if d.hasFolder p then .error .isFolder
      else match d.files.lookup p with
        | some bytes => .ok bytes
        | none => .error .notFound

/-- The text of the file at a path. -/
def read (d : Disk) (path : String) : Except DiskError String :=
  match d.readBytes path with
  | .error e => .error e
  | .ok bytes =>
      match Text.ofBytes? bytes with
      | some text => .ok text
      | none => .error .notText

/-! ## 3. Appending -/

/-- Why a file could not be opened for appending. -/
inductive OpenError where
  | createFolder (e : DiskError)
  | openFile (e : DiskError)
  deriving DecidableEq, Repr

/-- The wording of an error on opening. -/
def OpenError.message : OpenError → String
  | .createFolder e => "failed to create parent directories: " ++ e.message
  | .openFile e => "failed to open audit log file: " ++ e.message

/-- Creates the folder at the end of a path, where there must be nothing. -/
def makeFolder (d : Disk) (path : String) : Except DiskError Disk :=
  match d.locate path with
  | .error e => .error e
  | .ok p =>
      if d.has p then .error .exists
      else if d.denies p.dropLast .write then .error .denied
      else .ok (d.addFolder p)

/-- Creates the folder at the end of a path, unless there is one. -/
def ensureFolder (d : Disk) (path : String) : Except DiskError Disk :=
  match d.makeFolder path with
  | .ok d => .ok d
  | .error e => if d.holdsFolder path then .ok d else .error e

/-- Creates the folder of the first path, unless there is one. If it has nowhere to be, the folders
    of the paths behind are created before; those that were created stay. -/
def makeFolders (d : Disk) : List String → Except DiskError Unit × Disk
  | [] => (.ok (), d)
  | path :: around =>
      match d.ensureFolder path with
      | .ok d => (.ok (), d)
      | .error .notFound =>
          match makeFolders d around with
          | (.error e, d) => (.error e, d)
          | (.ok (), d) =>
              match d.ensureFolder path with
              | .ok d => (.ok (), d)
              | .error e => (.error e, d)
      | .error e => (.error e, d)

/-- Opens the file at the end of a path for appending, in a folder that is there: its place, and
    the disk after that. -/
def openFile (d : Disk) (path : String) : Except DiskError Place × Disk :=
  match d.locateFile path with
  | .error e => (.error e, d)
  | .ok p =>
      if d.hasFolder p then (.error .isFolder, d)
      else if d.denies (if d.hasFile p then p else p.dropLast) .write then (.error .denied, d)
      else if d.hasFile p then (.ok p, d)
      else (.ok p, d.put p [])

/-- Opens the file at the end of a path for appending: its place, and the disk after that. -/
def openForAppending (d : Disk) (path : String) : Except OpenError Place × Disk :=
  match d.makeFolders (FilePath.folders path) with
  | (.error e, d) => (.error (.createFolder e), d)
  | (.ok (), d) =>
      let opened := d.openFile path
      (opened.1.mapError .openFile, opened.2)

/-- Appends text to the file at a place, whatever its bytes. -/
def append (d : Disk) (p : Place) (text : String) : Disk :=
  d.put p ((d.files.lookup p).getD [] ++ Text.bytes text.toList)

end Disk

end Gatehouse
