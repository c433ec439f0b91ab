import Gatehouse.Bundle.Admission
import Gatehouse.Disk
import Gatehouse.Format
import Gatehouse.Request

/-!
# Loading bundles and requests

What this file fixes:

* `Bundle.load`, `RequestFile.load`: the bundle or the request of a text;
* `Bundle.loadFile`, `RequestFile.loadFile`: the same of a file;
* `LoadError`: why there is none, with the wordings from the outermost cause to the innermost.
-/

namespace Gatehouse

/-- Why a bundle or a request cannot be had from a text. -/
inductive TextError where
  | unreadable (f : Format)
  | rejected (f : BundleFault)
  deriving DecidableEq, Repr

/-- The kinds of files that are loaded. -/
inductive FileKind where
  | bundle
  | request
  deriving DecidableEq, Repr

/-- Why a bundle or a request cannot be had from a file. -/
inductive LoadError where
  | unreadableFile (kind : FileKind) (path : String) (e : DiskError)
  | unreadableText (kind : FileKind) (path : String) (e : TextError)
  deriving DecidableEq, Repr

namespace TextError

/-- The wordings of an error of a text that is no document of its type, or of a refused bundle. -/
def chain : TextError → List String
  | .unreadable f => [f.name ++ " deserialization failed"]
  | .rejected f => f.chain

end TextError

namespace LoadError

/-- The outermost wording. -/
def message : LoadError → String
  | .unreadableFile .bundle path _ => "failed to read policy file: " ++ path
  | .unreadableFile .request path _ => "failed to read request file: " ++ path
  | .unreadableText .bundle path _ => "failed to load policy file: " ++ path
  | .unreadableText .request path _ => "failed to parse request file: " ++ path

/-- All wordings, the outermost first. -/
def chain (e : LoadError) : List String :=
  match e with
  | .unreadableFile _ _ cause => [e.message, cause.message]
  | .unreadableText .request _ (.unreadable _) => [e.message]
  | .unreadableText _ _ cause => e.message :: cause.chain

end LoadError

/-- The bundle of a text, read and admitted. -/
def Bundle.load (f : Format) (text : String) (limits : Limits) : Except TextError Bundle :=
  match (f.read? Bundle.scope text).bind Bundle.read? with
  | none => .error (.unreadable f)
  | some b => (b.accepted limits).mapError .rejected

/-- The request of a text. -/
def RequestFile.load (f : Format) (text : String) : Except TextError RequestFile :=
  match (f.read? .whole text).bind RequestFile.read? with
  | none => .error (.unreadable f)
  | some r => .ok r

/-- The text of the file at a path, read as its extension says. -/
def loadFile {α : Type} (kind : FileKind) (load : Format → String → Except TextError α)
    (d : Disk) (path : String) : Except LoadError α :=
  match d.read path with
  | .error e => .error (.unreadableFile kind path e)
  | .ok text => (load (.ofPath path) text).mapError (.unreadableText kind path)

/-- The bundle of a file. -/
def Bundle.loadFile (d : Disk) (path : String) (limits : Limits) : Except LoadError Bundle :=
  Gatehouse.loadFile .bundle (fun f text => Bundle.load f text limits) d path

/-- The request of a file. -/
def RequestFile.loadFile (d : Disk) (path : String) : Except LoadError RequestFile :=
  Gatehouse.loadFile .request RequestFile.load d path

end Gatehouse
