import Gatehouse.Text

/-!
# File paths

What this file fixes:

* `FilePath.parts`: the components of a path, without the empty ones and those that stay in place;
* `FilePath.extension?`: what follows the last dot of the last component, if anything comes before
  that dot;
* `FilePath.folders`: the paths that a path goes on from, one for each component but the last.
-/

namespace Gatehouse.FilePath

/-- The texts between the slashes of a path. -/
def fields (path : String) : List String := (Text.splitOn '/' path.toList).map String.ofList

/-- The components of a path that lead somewhere. -/
def parts (path : String) : List String := (fields path).filter fun s => s != "" && s != "."

/-- The name at the end of a path. -/
def fileName? (path : String) : Option String :=
  match (parts path).getLast? with
  | none => none
  | some s => if s = ".." then none else some s

/-- The characters after the last dot of a name, if any come before it. -/
def extensionOf? (name : List Char) : Option (List Char) :=
  let after := (name.reverse.takeWhile (· != '.')).reverse
  let before := (name.reverse.dropWhile (· != '.')).drop 1
  if before.isEmpty then none else some after

/-- The extension of the name at the end of a path. -/
def extension? (path : String) : Option String :=
  (fileName? path).bind fun s => (extensionOf? s.toList).map String.ofList

/-- A path starts at the root. -/
def isAbsolute (path : String) : Bool := path.toList.head? == some '/'

/-- The paths that start with `lead`, go on with some of the fields, and end with a component. -/
def beginningsFrom (lead : String) : List String → List String
  | [] => []
  | s :: rest =>
      let path := lead ++ "/" ++ s
      if s = "" ∨ s = "." then beginningsFrom path rest else path :: beginningsFrom path rest

/-- The beginnings of a path that end with a component, the shortest first. A dot at the start is a
    component too. -/
def beginnings (path : String) : List String :=
  match fields path with
  | [] => []
  | lead :: rest => (if lead = "" then [] else [lead]) ++ beginningsFrom lead rest

/-- The paths of the folders that the end of a path is in, the innermost first; neither the root
    nor the working folder is among them unless it is named. -/
def folders (path : String) : List String := (beginnings path).dropLast.reverse

end Gatehouse.FilePath
