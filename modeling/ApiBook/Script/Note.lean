import ApiBook.Model.Member
import ApiBook.Script.Block
import ApiBook.Script.Tag

/-! # Notes

The lines of one comment block are read in order. A member tag opens a declaration, which takes the
text and the tags below it up to the next member tag. Reading never fails: a member tag without a
name drops what belongs to it, and an unknown tag is only reported.
-/

namespace ApiBook.Script

/-- What a declaration is about. The detail of a member grows with the tags below it. -/
inductive Subject where
  | wholeClass
  | member (typeName : Text) (detail : Detail)
  deriving DecidableEq, Repr

structure Declaration where
  name : Text
  summary : Text
  subject : Subject
  deriving DecidableEq, Repr

/-- One interpreted piece of a comment block. -/
inductive Note where
  /-- Text in front of the first member tag. -/
  | summary (text : Text)
  | unrecognized (name : Text)
  | declared (d : Declaration)
  deriving DecidableEq, Repr

inductive Keyword where
  | wholeClass
  | property
  | event
  | method
  | param
  | returns
  | default
  | type
  | unknown
  deriving DecidableEq, Repr

def Keyword.ofName (name : Text) : Keyword :=
  if name = "class" then .wholeClass
  else if name = "property" ∨ name = "prop" then .property
  else if name = "event" then .event
  else if name = "method" ∨ name = "function" then .method
  else if name = "param" ∨ name = "arg" ∨ name = "argument" then .param
  else if name = "returns" ∨ name = "return" then .returns
  else if name = "default" then .default
  else if name = "type" then .type
  else .unknown

/-- Text lines joined by line feeds, or by two where a blank line stands between them. -/
structure Prose where
  text : Text := []
  broken : Bool := false
  deriving DecidableEq, Repr

namespace Prose

def push (p : Prose) (line : Text) : Prose :=
  { text :=
      if p.text = [] then line
      else p.text ++ (if p.broken then "\n\n" else "\n") ++ line }

def pause (p : Prose) : Prose := { p with broken := p.text ≠ [] }

end Prose

namespace Declaration

/-- Text lines below a declaration follow its inline description. -/
def addProse (d : Declaration) (text : Text) : Declaration :=
  if text = [] then d
  else if d.summary = [] then { d with summary := text }
  else { d with summary := d.summary ++ "\n" ++ text }

def mapSubject (f : Text → Detail → Text × Detail) (d : Declaration) : Declaration :=
  match d.subject with
  | .wholeClass => d
  | .member typeName detail =>
    let (typeName, detail) := f typeName detail
    { d with subject := .member typeName detail }

def addParam (p : Param) (d : Declaration) : Declaration :=
  d.mapSubject fun typeName detail =>
    (typeName, detail.withParams (detail.params ++ [p]))

/-- The description of a result is what its tag says behind the type, name and all. -/
def resultText (r : Declared) : Text :=
  match r.name with
  | none => r.description
  | some first => if r.description = [] then first else first ++ " " ++ r.description

/-- Methods take a result type, if the tag of the method has none, and a result text. -/
def setResult (r : Declared) (d : Declaration) : Declaration :=
  d.mapSubject fun typeName detail =>
    match detail with
    | .method ps returns =>
      (if typeName = [] then r.typeName else typeName,
        .method ps (if resultText r = [] then returns else some (resultText r)))
    | _ => (typeName, detail)

/-- Properties take a type, if their tag has none. It may be written without braces. -/
def setType (t : Declared) (d : Declaration) : Declaration :=
  d.mapSubject fun typeName detail =>
    match detail with
    | .property _ =>
      (if typeName ≠ [] then typeName
        else if t.typeName = [] then t.name.getD [] else t.typeName, detail)
    | _ => (typeName, detail)

/-- Properties take a default value; other declarations have no place for it. -/
def setDefault? (value : Text) (d : Declaration) : Option Declaration :=
  match d.subject with
  | .member typeName (.property _) =>
    some { d with subject := .member typeName (.property (some value)) }
  | _ => none

end Declaration

/-- How far a block is read: what is closed, the open declaration with its text and the unknown
tags below it, the text in front of all member tags, a default value that waits for a property,
and whether a member tag without a name is being skipped. -/
structure Reading where
  closed : List Note := []
  current : Option Declaration := none
  strays : List Note := []
  body : Prose := {}
  leading : Prose := {}
  waiting : Option Text := none
  skipping : Bool := false
  deriving DecidableEq, Repr

namespace Reading

def found (r : Reading) : List Note :=
  r.closed ++ (r.current.map fun d => Note.declared (d.addProse r.body.text)).toList ++ r.strays

def close (r : Reading) : Reading :=
  { r with closed := r.found, current := none, strays := [], body := {} }

def openWith (r : Reading) (d : Declaration) : Reading :=
  { r.close with current := some d, skipping := false }

def skip (r : Reading) : Reading :=
  { r.close with skipping := true }

def mapCurrent (f : Declaration → Declaration) (r : Reading) : Reading :=
  { r with current := r.current.map f }

def text (r : Reading) (line : Text) : Reading :=
  if r.skipping then r
  else if r.current.isSome then { r with body := r.body.push line }
  else { r with leading := r.leading.push line }

def blank (r : Reading) : Reading :=
  if r.skipping then r
  else if r.current.isSome then { r with body := r.body.pause }
  else { r with leading := r.leading.pause }

/-- A default value belongs to the open property, or waits for the next one. -/
def default (r : Reading) (value : Text) : Reading :=
  if r.skipping then r
  else
    match r.current.bind (Declaration.setDefault? value) with
    | some d => { r with current := some d }
    | none => { r with waiting := some value }

def member (r : Reading) (d : Declared) (subject : Subject) : Reading :=
  match d.name with
  | some name => r.openWith ⟨name, d.description, subject⟩
  | none => r.skip

def tag (r : Reading) (name rest : Text) : Reading :=
  let d := Declared.ofText rest
  match Keyword.ofName name with
  | .wholeClass => r.member d .wholeClass
  | .property =>
    let r' := r.member d (.member d.typeName (.property r.waiting))
    if d.name.isSome then { r' with waiting := none } else r'
  | .event => r.member d (.member d.typeName (.event []))
  | .method => r.member d (.member d.typeName (.method [] none))
  | .param =>
    match d.name with
    | some name => r.mapCurrent (Declaration.addParam ⟨name, d.typeName, d.description⟩)
    | none => r
  | .returns => r.mapCurrent (Declaration.setResult d)
  | .default => r.default (unquote rest)
  | .type => r.mapCurrent (Declaration.setType d)
  | .unknown => { r with strays := r.strays ++ [.unrecognized name] }

def step (r : Reading) : TagLine → Reading
  | .blank => r.blank
  | .text line => r.text line
  | .default value => r.default value
  | .tag name rest => r.tag name rest

/-- Declarations without text of their own take over the text in front of all of them. -/
def inherit (leading : Text) : Note → Note
  | .declared d => .declared (if d.summary = [] then { d with summary := leading } else d)
  | a => a

def finish (r : Reading) : List Note :=
  if r.leading.text = [] then r.found
  else .summary r.leading.text :: r.found.map (inherit r.leading.text)

end Reading

def notes (lines : List Text) : List Note :=
  ((lines.map TagLine.ofText).foldl Reading.step {}).finish

end ApiBook.Script
