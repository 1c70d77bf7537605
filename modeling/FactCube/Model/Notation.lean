import FactCube.Json.Typed
import FactCube.Model.Document
import FactCube.Yaml.Typed

/-!
# The two notations of documents

A model document can be written in JSON or in YAML. A text in either, or the bytes of one, is a
document if it has the shape of one.
-/

namespace FactCube

/-- Why a text is no model document. -/
inductive NotationFault
  | json (fault : JsonFault)
  | yaml
deriving DecidableEq

namespace Document

/-- The document some symbols of JSON stand for. -/
def ofJsonSymbols (s : List Utf8.Symbol) : Except JsonFault Document :=
  (Json.readShape shape s).map ofDatum

/-- The document a JSON text stands for. -/
def ofJson (s : String) : Except JsonFault Document := ofJsonSymbols (s.toList.map some)

/-- The document that bytes of JSON stand for. Only the names and strings that count have to be
UTF-8. -/
def ofJsonBytes (bytes : List UInt8) : Except JsonFault Document :=
  ofJsonSymbols (Utf8.symbols bytes)

/-- The document a YAML text stands for. -/
def ofYaml? (s : String) : Option Document := (Yaml.readShape shape s).map ofDatum

/-- The document that bytes of YAML stand for. All of them have to be UTF-8. -/
def ofYamlBytes? (bytes : List UInt8) : Option Document :=
  (Utf8.decode bytes).bind fun text => ofYaml? (String.ofList text)

end Document

end FactCube
