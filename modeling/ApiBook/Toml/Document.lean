import ApiBook.Toml.Moment
import ApiBook.Toml.String

/-! # TOML documents

A document is read as a list of statements: section headings and assignments of texts, of lists of
texts, of tables of texts and of moments to dotted keys. Other values have no place in settings, so
documents with numbers, truth values or deeper nesting are refused, as are arrays of tables.
-/

namespace ApiBook.Toml

inductive Value where
  | text (s : Text)
  | list (items : List Text)
  | table (fields : List (Text × Text))
  | moment (s : Text)
  deriving DecidableEq, Repr

inductive Statement where
  | heading (key : List Text)
  | assign (key : List Text) (value : Value)
  deriving DecidableEq, Repr

/-- The text behind blank lines and comments. The flag tells whether a comment has begun. -/
def skipTrivia (inComment : Bool) : Text → Option Text
  | [] => some []
  | '\n' :: s => skipTrivia false s
  | '\r' :: '\n' :: s => skipTrivia false s
  | c :: s =>
    if inComment then if isPlain c then skipTrivia true s else none
    else if Text.isBlank c then skipTrivia false s
    else if c = '#' then skipTrivia true s
    else if c = '\r' then none
    else some (c :: s)

/-- Whether nothing but blanks and a comment stands before the end of the line. -/
def atLineEnd (s : Text) : Bool :=
  match Text.dropBlanks s with
  | [] => true
  | '#' :: _ => true
  | s => (newLine? s).isSome

def isBareKeyChar (c : Char) : Bool := c.isAlphanum || c == '-' || c == '_'

def keyPart? : Text → Option (Text × Text)
  | '"' :: s => basic? s
  | '\'' :: s => literal? s
  | s =>
    match s.takeWhile isBareKeyChar with
    | [] => none
    | c :: cs => some (c :: cs, s.dropWhile isBareKeyChar)

/-- A key of parts between dots, with blanks around each. Every part takes one unit of fuel. -/
def key? : Nat → Text → Option (List Text × Text)
  | 0, _ => none
  | fuel + 1, s => do
    let (part, s) ← keyPart? (Text.dropBlanks s)
    match Text.dropBlanks s with
    | '.' :: s =>
      let (parts, s) ← key? fuel s
      return (part :: parts, s)
    | s => return ([part], s)

/-- The items of a list up to its closing bracket. Every item takes one unit of fuel. -/
def items? : Nat → Text → Option (List Text × Text)
  | 0, _ => none
  | fuel + 1, s => do
    match ← skipTrivia false s with
    | ']' :: s => return ([], s)
    | s =>
      let (item, s) ← string? s
      match ← skipTrivia false s with
      | ',' :: s =>
        let (items, s) ← items? fuel s
        return (item :: items, s)
      | ']' :: s => return ([item], s)
      | _ => none

def tableFields? : Nat → Text → Option (List (Text × Text) × Text)
  | 0, _ => none
  | fuel + 1, s => do
    let ([key], '=' :: s) ← key? (s.length + 1) s | none
    let (value, s) ← string? (Text.dropBlanks s)
    match Text.dropBlanks s with
    | ',' :: s =>
      let (rest, s) ← tableFields? fuel s
      return ((key, value) :: rest, s)
    | '}' :: s => return ([(key, value)], s)
    | _ => none

def value? (s : Text) : Option (Value × Text) :=
  match s with
  | '[' :: s => (items? (s.length + 1) s).map fun (items, s) => (.list items, s)
  | '{' :: s =>
    match Text.dropBlanks s with
    | '}' :: s => some (.table [], s)
    | s => (tableFields? (s.length + 1) s).map fun (fields, s) => (.table fields, s)
  | s =>
    match string? s with
    | some (t, s) => some (.text t, s)
    | none => (moment? s).map fun (t, s) => (.moment t, s)

def statement? (s : Text) : Option (Statement × Text) := do
  match s with
  | '[' :: s =>
    let (key, ']' :: s) ← key? (s.length + 1) s | none
    return (.heading key, s)
  | s =>
    let (key, '=' :: s) ← key? (s.length + 1) s | none
    let (value, s) ← value? (Text.dropBlanks s)
    return (.assign key value, s)

/-- The statements of a text. Every statement takes one unit of fuel. -/
def statements? : Nat → Text → Option (List Statement)
  | 0, _ => none
  | fuel + 1, s => do
    match ← skipTrivia false s with
    | [] => return []
    | s =>
      let (statement, s) ← statement? s
      if atLineEnd s then
        let rest ← statements? fuel s
        return statement :: rest
      else none

/-- The statements of a document, which may start with a byte order mark. -/
def document? (s : Text) : Option (List Statement) :=
  let s :=
    match s with
    | c :: rest => if c.toNat = 0xFEFF then rest else s
    | [] => []
  statements? (s.length + 1) s

end ApiBook.Toml
