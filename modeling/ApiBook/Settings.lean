import ApiBook.File.Path
import ApiBook.Toml.Document

/-! # Settings

Settings tell where the XML file and the scripts are, which namespace simple type names belong to,
which types are listed, and which script documents which type. They are read from a TOML document
that holds nothing else. Relative paths start at the directory of the document.
-/

namespace ApiBook

def defaultScope : Text := "AjaxControlToolkit"

structure Settings where
  scope : Text := defaultScope
  xml : Path
  scriptsDir : Path := []
  /-- The listed types by simple name; all of them when empty. -/
  index : List Text := []
  /-- Script names by simple type name, in the order of the type names. -/
  scripts : List (Text × Text) := []
  sorted : scripts.Pairwise (·.1 < ·.1) := by simp
  deriving DecidableEq, Repr

namespace Settings

/-- How the table of scripts is written: not yet, key by key, or in one place. -/
inductive ScriptsForm where
  | unset
  | byKey
  | whole
  deriving DecidableEq, Repr

structure Draft where
  scope : Option Text := none
  xml : Option Path := none
  scriptsDir : Option Path := none
  index : Option (List Text) := none
  scripts : List (Text × Text) := []
  sorted : scripts.Pairwise (·.1 < ·.1) := by simp
  form : ScriptsForm := .unset
  inScripts : Bool := false
  deriving DecidableEq, Repr

def insertScript? (name script : Text) : List (Text × Text) → Option (List (Text × Text))
  | [] => some [(name, script)]
  | (n, s) :: rest =>
    if n = name then none
    else if name < n then some ((name, script) :: (n, s) :: rest)
    else (insertScript? name script rest).map ((n, s) :: ·)

theorem fst_of_mem_insertScript? {name script : Text} {es es' : List (Text × Text)}
    {e : Text × Text} (h : insertScript? name script es = some es') (he : e ∈ es') :
    e.1 = name ∨ e ∈ es := by
  induction es generalizing es' with
  | nil =>
    obtain rfl := Option.some.inj h
    exact .inl (List.mem_singleton.1 he ▸ rfl)
  | cons x es ih =>
    rw [insertScript?] at h
    split at h
    · simp at h
    · split at h
      · obtain rfl := Option.some.inj h
        rcases List.mem_cons.1 he with rfl | he
        · exact .inl rfl
        · exact .inr he
      · obtain ⟨rest, hr, rfl⟩ := Option.map_eq_some_iff.1 h
        rcases List.mem_cons.1 he with rfl | he
        · exact .inr List.mem_cons_self
        · exact (ih hr he).imp_right (List.mem_cons_of_mem _)

theorem insertScript?_sorted {name script : Text} {es es' : List (Text × Text)}
    (h : insertScript? name script es = some es') (hs : es.Pairwise (·.1 < ·.1)) :
    es'.Pairwise (·.1 < ·.1) := by
  induction es generalizing es' with
  | nil =>
    obtain rfl := Option.some.inj h
    exact List.pairwise_singleton _ _
  | cons e es ih =>
    obtain ⟨n, s⟩ := e
    obtain ⟨hn, hes⟩ := List.pairwise_cons.1 hs
    rw [insertScript?] at h
    split at h
    · simp at h
    · rename_i hne
      split at h
      · rename_i hlt
        obtain rfl := Option.some.inj h
        refine List.pairwise_cons.2 ⟨fun e he => ?_, hs⟩
        rcases List.mem_cons.1 he with rfl | he
        · exact hlt
        · exact List.lt_trans hlt (hn e he)
      · rename_i hlt
        obtain ⟨rest, hr, rfl⟩ := Option.map_eq_some_iff.1 h
        refine List.pairwise_cons.2 ⟨fun e he => ?_, ih hr hes⟩
        rcases fst_of_mem_insertScript? hr he with he | he
        · exact he ▸ Text.lt_of_not_lt hlt hne
        · exact hn e he

/-- A moment counts as a table with the text of the moment under this key. -/
def momentKey : Text := "$__toml_private_datetime"

namespace Draft

def addScript? (d : Draft) (name script : Text) : Option Draft :=
  (insertScript? name script d.scripts).pmap
    (fun scripts sorted => { d with scripts, sorted }) fun _ h => insertScript?_sorted h d.sorted

def addScripts? : List (Text × Text) → Draft → Option Draft
  | [], d => some d
  | (name, script) :: rest, d => (d.addScript? name script).bind (addScripts? rest)

/-- An assignment outside all sections. -/
def assign? (d : Draft) (key : List Text) (value : Toml.Value) : Option Draft :=
  match key, value with
  | [name], .text s =>
    if name = "namespace" ∧ d.scope = none then some { d with scope := some s }
    else if name = "xml" ∧ d.xml = none then some { d with xml := some s }
    else if name = "scripts_dir" ∧ d.scriptsDir = none then some { d with scriptsDir := some s }
    else none
  | [name], .list items =>
    if name = "index" ∧ d.index = none then some { d with index := some items } else none
  | [name], .table fields =>
    if name = "scripts" ∧ d.form = .unset then addScripts? fields { d with form := .whole }
    else none
  | [name], .moment s =>
    if name = "scripts" ∧ d.form = .unset then { d with form := .whole }.addScript? momentKey s
    else none
  | [name, type], .text s =>
    if name = "scripts" ∧ d.form ≠ .whole then { d with form := .byKey }.addScript? type s
    else none
  | _, _ => none

def step? (d : Draft) : Toml.Statement → Option Draft
  | .heading key =>
    if key = [("scripts" : Text)] ∧ d.form = .unset then
      some { d with form := .whole, inScripts := true }
    else none
  | .assign key value =>
    if d.inScripts then
      match key, value with
      | [name], .text s => d.addScript? name s
      | _, _ => none
    else d.assign? key value

def steps? : Draft → List Toml.Statement → Option Draft
  | d, [] => some d
  | d, s :: rest => (d.step? s).bind (steps? · rest)

/-- Only the XML file has no default. -/
def settings? (d : Draft) : Option Settings :=
  d.xml.map fun xml =>
    { scope := d.scope.getD defaultScope, xml, scriptsDir := d.scriptsDir.getD [],
      index := d.index.getD [], scripts := d.scripts, sorted := d.sorted }

end Draft

/-- Paths as seen from a directory. -/
def resolve (s : Settings) (base : Path) : Settings :=
  { s with xml := base.join s.xml, scriptsDir := base.join s.scriptsDir }

def ofText? (text : Text) : Option Settings := do
  let statements ← Toml.document? text
  let draft ← Draft.steps? {} statements
  draft.settings?

def ofDocument? (path : Path) (text : Text) : Option Settings :=
  (ofText? text).map fun s => s.resolve (path.parent?.getD [])

/-- The full name of a type that is given by its simple name. -/
def fullName (s : Settings) (name : Text) : Text :=
  if s.scope = [] then name else s.scope ++ "." ++ name

def scriptFile (s : Settings) (script : Text) : Path := s.scriptsDir.join (script ++ ".js")

def scriptPath? (s : Settings) (name : Text) : Option Path :=
  (s.scripts.lookup name).map s.scriptFile

def scriptPaths (s : Settings) : List (Text × Path) :=
  s.scripts.map fun (name, script) => (name, s.scriptFile script)

/-- The files that documentation is built from. -/
def backing (s : Settings) : List Path := s.xml :: s.scriptPaths.map (·.2)

end Settings

end ApiBook
