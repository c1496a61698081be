import ApiBook.Text.Basic

/-! # JSON

JSON values of the shapes that this library writes, and their text with one item a line and two
spaces of indentation a level.
-/

namespace ApiBook

inductive Json where
  | null
  | string (s : Text)
  | array (items : List Json)
  | object (fields : List (Text × Json))
  deriving Repr

namespace Json

def ofOption : Option Text → Json
  | none => null
  | some s => string s

def hexDigit (n : Nat) : Char := Nat.digitChar n

/-- A character inside a string. Quotes, backslashes and control characters are escaped, by a letter
of their own if they have one. -/
def escapeChar (c : Char) : Text :=
  if c = '"' then "\\\""
  else if c = '\\' then "\\\\"
  else if c = '\n' then "\\n"
  else if c = '\r' then "\\r"
  else if c = '\t' then "\\t"
  else if c = Char.ofNat 8 then "\\b"
  else if c = Char.ofNat 12 then "\\f"
  else if c.toNat < 32 then "\\u00" ++ [hexDigit (c.toNat / 16), hexDigit (c.toNat % 16)]
  else [c]

def quote (s : Text) : Text := '"' :: (s.flatMap escapeChar ++ ['"'])

/-- A new line of the given level. -/
def newLine (level : Nat) : Text := '\n' :: List.replicate (2 * level) ' '

mutual

def pretty (level : Nat) : Json → Text
  | null => "null"
  | string s => quote s
  | array [] => "[]"
  | array (j :: js) => "[" ++ prettyItems (level + 1) (j :: js) ++ newLine level ++ "]"
  | object [] => ['\x7b', '\x7d']
  | object (f :: fs) => ['\x7b'] ++ prettyFields (level + 1) (f :: fs) ++ newLine level ++ ['\x7d']

def prettyItems (level : Nat) : List Json → Text
  | [] => []
  | j :: js =>
    newLine level ++ pretty level j ++ (if js.isEmpty then [] else [',']) ++ prettyItems level js

def prettyFields (level : Nat) : List (Text × Json) → Text
  | [] => []
  | (k, j) :: fs =>
    newLine level ++ quote k ++ ": " ++ pretty level j ++
      (if fs.isEmpty then [] else [',']) ++ prettyFields level fs

end

def render (j : Json) : Text := pretty 0 j

end Json

end ApiBook
