import ApiBook.Text.Blank
import ApiBook.Text.Word

/-! # Tag lines

A line of comment text is blank, free text, a default value or a tag with the text behind it. Most
tags declare something, written `{Type} name description` with every part optional.
-/

namespace ApiBook.Script

inductive TagLine where
  | blank
  | text (text : Text)
  | default (value : Text)
  | tag (name rest : Text)
  deriving DecidableEq, Repr

def isSingleLine (s : Text) : Bool := !s.contains '\n'

/-- What follows `p` in a text that starts with `p`, where `p` is in lower case and the text may be
in any. -/
def afterIgnoringCase? : Text → Text → Option Text
  | [], s => some s
  | _ :: _, [] => none
  | p :: ps, c :: cs => if p = c.toLower then afterIgnoringCase? ps cs else none

/-- Removes one pair of equal quotes around a value, after dropping semicolons at its end. -/
def unquote (value : Text) : Text :=
  let value := Text.trimEnd (Text.dropEndWhile (· == ';') (Text.trim value))
  match value with
  | q :: inner =>
    if (q = '\'' ∨ q = '"') ∧ inner.getLast? = some q then inner.dropLast else value
  | [] => []

/-- The optional word in `Default value:`, which blanks separate from the first. -/
def dropValueWord (s : Text) : Text :=
  let rest := Text.dropBlanks s
  if rest.length = s.length then s else (afterIgnoringCase? "value" rest).getD s

/-- The value of a line `Default: value` or `Default value: value`, in any case. -/
def defaultValue? (s : Text) : Option Text := do
  let rest ← afterIgnoringCase? "default" s
  match Text.dropBlanks (dropValueWord rest) with
  | ':' :: value => if isSingleLine value then some (unquote value) else none
  | _ => none

def isTagChar (c : Char) : Bool := Text.isWord c || c == '-'

/-- The name of a tag in lower case, and the text behind it. A name starts with a letter and ends
with a word character. -/
def tagParts? : Text → Option (Text × Text)
  | '@' :: c :: cs =>
    if c.isAlpha then
      let name := c :: Text.dropEndWhile (· == '-') (cs.takeWhile isTagChar)
      let rest := cs.drop (name.length - 1)
      if isSingleLine rest then some (name.map Char.toLower, Text.trim rest) else none
    else none
  | _ => none

/-- The class of a line of comment text. -/
def TagLine.ofText (raw : Text) : TagLine :=
  let s := Text.trim raw
  if s = [] then .blank
  else
    match defaultValue? s with
    | some value => .default value
    | none =>
      match tagParts? s with
      | some (name, rest) => .tag name rest
      | none => .text s

/-- The parts of `{Type} name description`. -/
structure Declared where
  typeName : Text
  name : Option Text
  description : Text
  deriving DecidableEq, Repr

/-- A leading `{Type}` and what follows it. The text behind the brace must be a single line. -/
def splitType : Text → Text × Text
  | '{' :: s =>
    match Text.cut? '}' s with
    | some (typeName, rest) =>
      if isSingleLine (Text.dropBlanks rest) then (Text.trim typeName, Text.dropBlanks rest)
      else ([], '{' :: s)
    | none => ([], '{' :: s)
  | s => ([], s)

def isNameStart (c : Char) : Bool := c.isAlpha || c == '_' || c == '$'

def isNameChar (c : Char) : Bool := Text.isWord c || c == '$' || c == '.'

def dropBracket (b : Char) : Text → Text
  | c :: s => if c = b then s else c :: s
  | [] => []

/-- A leading name, which may stand in square brackets, and the text behind it. Only blanks or the
end of the text may follow the name. -/
def splitName? (s : Text) : Option (Text × Text) :=
  match dropBracket '[' s with
  | c :: cs =>
    if isNameStart c then
      match dropBracket ']' (cs.dropWhile isNameChar) with
      | [] => some (c :: cs.takeWhile isNameChar, [])
      | d :: rest =>
        if Text.isBlank d && isSingleLine (Text.dropBlanks rest) then
          some (c :: cs.takeWhile isNameChar, Text.dropBlanks rest)
        else none
    else none
  | [] => none

/-- A description may be set off from the name by a dash. -/
def dropDash : Text → Text
  | '-' :: s => Text.dropBlanks s
  | s => s

def Declared.ofText (s : Text) : Declared :=
  let (typeName, rest) := splitType s
  match splitName? rest with
  | some (name, description) => ⟨typeName, some name, dropDash (Text.trim description)⟩
  | none => ⟨typeName, none, Text.trim rest⟩

end ApiBook.Script
