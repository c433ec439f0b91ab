import Gatehouse.FilePath
import Gatehouse.Json
import Gatehouse.Yaml

/-!
# Document formats

What this file fixes:

* `Format`: the two formats that bundles and requests are written in;
* `Format.ofPath`: a file is JSON if its extension says so, in any case, and YAML otherwise;
* `Format.read?`: the document of a text, of which only some parts may be looked at.
-/

namespace Gatehouse

/-- The format of a document. -/
inductive Format where
  | json
  | yaml
  deriving DecidableEq, Repr

namespace Format

/-- The format of the file at a path. -/
def ofPath (path : String) : Format :=
  match FilePath.extension? path with
  | some e => if Text.sameIgnoringCase e "json" then .json else .yaml
  | none => .yaml

/-- The name of a format. -/
def name : Format → String
  | .json => "JSON"
  | .yaml => "YAML"

/-- The document of a text, as far as a scope goes. -/
def read? (f : Format) (scope : Doc.Scope) (text : String) : Option Doc :=
  match f with
  | .json => Json.read? text
  | .yaml => Yaml.read? scope text

end Format

end Gatehouse
