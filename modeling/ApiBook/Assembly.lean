import ApiBook.Error
import ApiBook.File.View
import ApiBook.Model.Library
import ApiBook.Settings
import ApiBook.Xml.Document

/-! # Assembling libraries

A library is assembled from the files that settings name: the records of the XML file first, then
the scripts of the types one after the other.
-/

namespace ApiBook

def View.script? (v : View) (path : Path) : Except Error (Option Text) :=
  match v.read path with
  | .ok text => .ok (some text)
  | .error .notFound => .ok none
  | .error e => .error (.unreadable path e)

def Settings.load (v : View) (path : Path) : Except Error Settings :=
  match v.read path with
  | .error e => .error (.unreadable path e)
  | .ok text =>
    match Settings.ofDocument? path text with
    | some s => .ok s
    | none => .error (.badSettings path)

namespace Library

/-- Merges a script, unless its type is not documented. -/
def mergeScript (l : Library) (fullName : Text) (text : Text) : Library :=
  match l.merge? fullName (Script.Document.ofLines (Text.lines text)) with
  | some (l, _) => l
  | none => l

/-- Merges the scripts of types in turn. A missing script documents nothing. -/
def mergeScripts (s : Settings) (v : View) : List (Text × Path) → Library → Except Error Library
  | [], l => .ok l
  | (name, path) :: rest, l =>
    match v.script? path with
    | .error e => .error e
    | .ok none => mergeScripts s v rest l
    | .ok (some text) => mergeScripts s v rest (l.mergeScript (s.fullName name) text)

def build (s : Settings) (v : View) : Except Error Library :=
  match v.read s.xml with
  | .error e => .error (.unreadable s.xml e)
  | .ok text => mergeScripts s v s.scriptPaths (empty.addAll (Xml.records text))

end Library

end ApiBook
