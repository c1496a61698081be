import ApiBook.Page.Json
import ApiBook.Proofs.Json.RoundTrip

/-! # What JSON pages tell

A type is read back from its JSON value, field by field. Every field of the model is there, so JSON
pages lose nothing: the text of a type or of a list of types gives the types back.
-/

namespace ApiBook

namespace Json

def field? (k : Text) : Json → Option Json
  | object fs => fs.lookup k
  | _ => none

def text? : Json → Option Text
  | string s => some s
  | _ => none

/-- A text or the null value. -/
def optionalText? : Json → Option (Option Text)
  | null => some none
  | string s => some (some s)
  | _ => none

def list? {α : Type} (read : Json → Option α) : Json → Option (List α)
  | array js => js.mapM read
  | _ => none

variable {α : Type} {write : α → Json} {read : Json → Option α}

@[simp] theorem optionalText?_ofOption (d : Option Text) : (ofOption d).optionalText? = some d := by
  cases d <;> rfl

theorem list?_map (h : ∀ a, read (write a) = some a) (as : List α) :
    list? read (array (as.map write)) = some as := by
  simp only [list?]
  induction as with
  | nil => rfl
  | cons a as ih => simp [h, ih]

end Json

open Json (text? optionalText? list?)

def Origin.ofText? (s : Text) : Option Origin :=
  if s = "xml" then some .xml else if s = "client" then some .client else none

def Param.ofJson? (j : Json) : Option Param := do
  return {
    name := ← (← j.field? "name").text?
    typeName := ← (← j.field? "type_name").text?
    description := ← (← j.field? "description").text? }

/-- Which fields there are besides those of every member depends on the kind. -/
def Detail.ofJson? (j : Json) : Option Detail := do
  let kind ← (← j.field? "kind").text?
  if kind = "property" then
    return .property (← (← j.field? "default_value").optionalText?)
  else if kind = "event" then
    return .event (← (← j.field? "params").list? Param.ofJson?)
  else if kind = "method" then
    return .method (← (← j.field? "params").list? Param.ofJson?)
      (← (← j.field? "returns").optionalText?)
  else none

def Member.ofJson? (j : Json) : Option Member := do
  return {
    name := ← (← j.field? "name").text?
    summary := ← (← j.field? "summary").text?
    typeName := ← (← j.field? "type_name").text?
    origin := ← Origin.ofText? (← (← j.field? "origin").text?)
    detail := ← Detail.ofJson? j }

def TypeDoc.ofJson? (j : Json) : Option TypeDoc := do
  return {
    fullName := ← (← j.field? "full_name").text?
    name := ← (← j.field? "name").text?
    scope := ← (← j.field? "namespace").text?
    summary := ← (← j.field? "summary").text?
    members := ← (← j.field? "members").list? Member.ofJson? }

/-! ## Every field comes back -/

@[simp] theorem Param.ofJson?_toJson (p : Param) : Param.ofJson? p.toJson = some p := rfl

@[simp] theorem Param.list?_toJson (ps : List Param) :
    list? Param.ofJson? (.array (ps.map Param.toJson)) = some ps :=
  Json.list?_map Param.ofJson?_toJson ps

@[simp] theorem Detail.ofJson?_toJson (m : Member) : Detail.ofJson? m.toJson = some m.detail := by
  obtain ⟨name, summary, typeName, origin, detail⟩ := m
  cases detail with
  | property d =>
    have h : Detail.ofJson? (Member.toJson ⟨name, summary, typeName, origin, .property d⟩) =
        (optionalText? (.ofOption d)).bind fun d => some (.property d) := rfl
    simp [h]
  | event ps =>
    have h : Detail.ofJson? (Member.toJson ⟨name, summary, typeName, origin, .event ps⟩) =
        (list? Param.ofJson? (.array (ps.map Param.toJson))).bind fun ps => some (.event ps) := rfl
    simp [h]
  | method ps r =>
    have h : Detail.ofJson? (Member.toJson ⟨name, summary, typeName, origin, .method ps r⟩) =
        (list? Param.ofJson? (.array (ps.map Param.toJson))).bind fun ps =>
          (optionalText? (.ofOption r)).bind fun r => some (.method ps r) := rfl
    simp [h]

@[simp] theorem Member.ofJson?_toJson (m : Member) : Member.ofJson? m.toJson = some m := by
  have h : Member.ofJson? m.toJson = (Detail.ofJson? m.toJson).bind fun detail =>
      some ⟨m.name, m.summary, m.typeName, m.origin, detail⟩ := by
    obtain ⟨name, summary, typeName, origin, detail⟩ := m
    cases origin <;> rfl
  simp [h]

@[simp] theorem TypeDoc.ofJson?_toJson (t : TypeDoc) : TypeDoc.ofJson? t.toJson = some t := by
  have h : TypeDoc.ofJson? t.toJson =
      (list? Member.ofJson? (.array (t.members.map Member.toJson))).bind fun members =>
        some ⟨t.fullName, t.name, t.scope, t.summary, members⟩ := rfl
  simp [h, Json.list?_map Member.ofJson?_toJson]

namespace Page.JsonPage

def readType? (s : Text) : Option TypeDoc := (Json.read? s).bind TypeDoc.ofJson?

def readAll? (s : Text) : Option (List TypeDoc) := (Json.read? s).bind (list? TypeDoc.ofJson?)

@[simp] theorem readType?_typePage (t : TypeDoc) : readType? (typePage t) = some t := by
  simp [readType?, typePage]

@[simp] theorem readAll?_all (ts : List TypeDoc) : readAll? (all ts) = some ts := by
  simp [readAll?, all, Json.list?_map TypeDoc.ofJson?_toJson]

@[simp] theorem all_inj {ts ts' : List TypeDoc} : all ts = all ts' ↔ ts = ts' := by
  refine ⟨fun h => ?_, congrArg all⟩
  simpa using congrArg readAll? h

@[simp] theorem typePage_inj {t t' : TypeDoc} : typePage t = typePage t' ↔ t = t' := by
  refine ⟨fun h => ?_, congrArg typePage⟩
  simpa using congrArg readType? h

/-- A page of a list of types and a page of one type are JSON texts from which exactly these types
are read, so the pages of other types are other texts. -/
theorem reads_back (ts ts' : List TypeDoc) (t t' : TypeDoc) :
    (Json.WellFormed (all ts) ∧ readAll? (all ts) = some ts ∧ (all ts = all ts' ↔ ts = ts')) ∧
      Json.WellFormed (typePage t) ∧ readType? (typePage t) = some t ∧
        (typePage t = typePage t' ↔ t = t') :=
  ⟨⟨⟨_, Json.writes_render _⟩, readAll?_all ts, all_inj⟩, ⟨_, Json.writes_render _⟩,
    readType?_typePage t, typePage_inj⟩

/-- Other white space, escapes and orders of fields than those of the renderer are read as well. -/
example :
    readType? ("\t\x7b \"name\":\"\\ud83d\\ude00\",\n\"members\" : [], \"summary\":\"\"," ++
        "\"namespace\":\"\\u00E9\\/\", \"full_name\":\"A\"\x7d ") =
      some { fullName := "A", name := "😀", scope := "é/" } := by
  decide +kernel

end Page.JsonPage

end ApiBook
