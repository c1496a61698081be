import ApiBook.Text.Basic

/-! # Paths

A path is kept as it is written. Paths are compared by their components: repeated slashes, a slash
at the end and dots inside a path do not matter, a dot at its start does.
-/

namespace ApiBook

abbrev Path := Text

namespace Path

inductive Component where
  | root
  | here
  | up
  | name (text : Text)
  deriving DecidableEq, Repr

def isAbsolute (p : Path) : Bool := p.head? == some '/'

def pieces (p : Path) : List Text := Text.fields (· == '/') p

def Component.ofPiece? (piece : Text) : Option Component :=
  if piece = [] ∨ piece = "." then none
  else if piece = ".." then some .up
  else some (.name piece)

def components (p : Path) : List Component :=
  let start : List Component :=
    if p.isAbsolute then [.root]
    else if p.pieces.head? = some "." then [.here]
    else []
  start ++ p.pieces.filterMap Component.ofPiece?

def same (p q : Path) : Bool := p.components == q.components

/-- The order of components: the root, the dot, two dots, then names by their characters. -/
def Component.le : Component → Component → Bool
  | .root, _ => true
  | .here, .root => false
  | .here, _ => true
  | .up, .root => false
  | .up, .here => false
  | .up, _ => true
  | .name s, .name t => Text.le s t
  | .name _, _ => false

def componentsLe : List Component → List Component → Bool
  | [], _ => true
  | _ :: _, [] => false
  | c :: cs, d :: ds => if c = d then componentsLe cs ds else c.le d

def le (p q : Path) : Bool := componentsLe p.components q.components

/-- A path below another one. An absolute path stands for itself. -/
def join (p q : Path) : Path :=
  if q.isAbsolute then q
  else if p = [] ∨ p.getLast? = some '/' then p ++ q
  else p ++ "/" ++ q

/-- The text of a path without the slashes and dots at its end that name nothing. -/
def trimPieces : List Text → List Text
  | [] => []
  | piece :: rest =>
    match trimPieces rest with
    | [] => if Component.ofPiece? piece = none then [] else [piece]
    | r :: rs => piece :: r :: rs

/-- The directory of a path: the path without its last component. -/
def parent? (p : Path) : Option Path :=
  match p.components.getLast? with
  | none => none
  | some .root => none
  | some .here => some []
  | some _ =>
    let above := trimPieces (trimPieces p.pieces).dropLast
    if above = [] then
      if p.isAbsolute then some "/"
      else if p.components.head? = some .here then some "."
      else some []
    else some (List.intercalate ['/'] above)

def fileName? (p : Path) : Option Text :=
  match p.components.getLast? with
  | some (.name s) => some s
  | _ => none

/-- What follows the last dot of the file name, unless the name starts there. -/
def extension? (p : Path) : Option Text := do
  let name ← p.fileName?
  let (stem, extension) ← Text.cutLast? '.' name
  if stem = [] then none else some extension

end Path

end ApiBook
