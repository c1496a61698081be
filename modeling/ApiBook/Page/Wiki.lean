import ApiBook.Page.Signature
import ApiBook.Text.Blank

/-! # Wiki pages

Wiki markup has `!` headings and `*` bullets, and a bullet is one line, so texts in bullets lose
their line breaks.
-/

namespace ApiBook.Page.Wiki

def extension : Text := "wiki"

def code (text : Text) : Text := "\x7b\"" ++ text ++ "\"\x7d"

def dashed (text : Text) : Text := if text = [] then [] else " - " ++ Text.oneLine text

def property (m : Member) : Text :=
  "* *" ++ m.name ++ "*" ++
    (if m.typeName = [] then [] else (" " ++ code (shortType m.typeName) : Text)) ++
    dashed m.summary ++
    (match m.default? with
      | some value => (" _Default: " ++ value ++ "_" : Text)
      | none => [])

def subBullet (label text : Text) : Text := "\n** _" ++ label ++ "_ - " ++ Text.oneLine text

/-- The bullet of an event or a method, with one below it for each described parameter and for the
result. -/
def callable (m : Member) : Text :=
  "* " ++ code (signature m) ++ dashed m.summary ++
    (m.params.flatMap fun p => if p.description = [] then [] else subBullet p.name p.description) ++
    (match m.returns? with
      | some returns => subBullet "returns" returns
      | none => [])

def memberSection (title : Text) (bullet : Member → Text) (ms : List Member) : Text :=
  if ms = [] then []
  else "!! " ++ title ++ "\n" ++ (ms.flatMap fun m => bullet m ++ ['\n'] : Text)

/-- A text outside bullets keeps its paragraphs. -/
def paragraphs (text : Text) : Text :=
  if text = [] then [] else (Text.paragraphs text).flatMap fun p => Text.oneLine p ++ ['\n', '\n']

def typePage (t : TypeDoc) : Text :=
  "! " ++ t.name ++ "\n" ++ paragraphs t.summary ++
    memberSection "Properties" property t.properties ++
    memberSection "Events" callable t.events ++
    memberSection "Methods" callable t.methods

/-- A list of types that links to their headings. -/
def index (ts : List TypeDoc) : Text :=
  "!! Controls\n" ++ (ts.flatMap fun t => ("* [#" ++ t.name ++ "]\n" : Text) : Text)

def all (ts : List TypeDoc) : Text := index ts ++ ts.flatMap fun t => '\n' :: typePage t

end ApiBook.Page.Wiki
