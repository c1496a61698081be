import ApiBook.Json.Value
import ApiBook.Model.TypeDoc
import ApiBook.Script.Document

/-! # JSON pages

The model as JSON. The detail of a member stands beside its other fields, under a field that names
its kind.
-/

namespace ApiBook

open Json (string array object)

def Origin.toJson : Origin → Json
  | .xml => string "xml"
  | .client => string "client"

def Param.toJson (p : Param) : Json :=
  object [("name", string p.name), ("type_name", string p.typeName),
    ("description", string p.description)]

/-- The fields of a detail behind the one that names its kind. -/
def Detail.jsonFields : Detail → List (Text × Json)
  | .property d => [("default_value", Json.ofOption d)]
  | .event ps => [("params", array (ps.map Param.toJson))]
  | .method ps r => [("params", array (ps.map Param.toJson)), ("returns", Json.ofOption r)]

def Member.toJson (m : Member) : Json :=
  object <|
    ("name", string m.name) :: ("summary", string m.summary) :: ("type_name", string m.typeName) ::
      ("origin", m.origin.toJson) :: ("kind", string m.detail.label) :: m.detail.jsonFields

def TypeDoc.toJson (t : TypeDoc) : Json :=
  object [("full_name", string t.fullName), ("name", string t.name), ("namespace", string t.scope),
    ("summary", string t.summary), ("members", array (t.members.map Member.toJson))]

def TypeDoc.toIndexJson (t : TypeDoc) : Json :=
  object [("name", string t.name), ("full_name", string t.fullName), ("summary", string t.summary)]

def Script.ClassDoc.toJson (c : Script.ClassDoc) : Json :=
  object [("name", string c.name), ("summary", string c.summary)]

def Script.Document.toJson (s : Script.Document) : Json :=
  object [("class", (s.classDoc.map Script.ClassDoc.toJson).getD .null),
    ("members", array (s.members.map Member.toJson))]

namespace Page.JsonPage

def extension : Text := "json"

def typePage (t : TypeDoc) : Text := t.toJson.render

def index (ts : List TypeDoc) : Text := (array (ts.map TypeDoc.toIndexJson)).render

def all (ts : List TypeDoc) : Text := (array (ts.map TypeDoc.toJson)).render

end Page.JsonPage

end ApiBook
