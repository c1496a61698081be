import ApiBook.Text.Number

/-! # Entities

Character references and the five predefined entities of XML, and their removal. Numeric references
go first and ampersands last, each kind in a pass of its own over the whole text.
-/

namespace ApiBook.Xml

def codePoint? (base : Nat) (isDigit : Char → Bool) (s : Text) : Option (Nat × Text) :=
  match s.takeWhile isDigit, s.dropWhile isDigit with
  | d :: ds, ';' :: rest => some (Text.numberOf base (d :: ds), rest)
  | _, _ => none

/-- A numeric reference `&#65;` or `&#x41;` at the start of a text. -/
def charRef? (s : Text) : Option (Text × Text) := do
  let digits ← Text.after? "&#" s
  let (n, rest) ←
    match digits with
    | 'x' :: t => codePoint? 16 Text.isHexDigit t
    | 'X' :: t => codePoint? 16 Text.isHexDigit t
    | t => codePoint? 10 Char.isDigit t
  let c ← Text.scalar? n
  return ([c], rest)

/-- Replaces references by the characters they stand for; anything else stays. -/
def decode (s : Text) : Text :=
  Text.substitute charRef? s
    |> Text.replace "&lt;" "<"
    |> Text.replace "&gt;" ">"
    |> Text.replace "&quot;" "\""
    |> Text.replace "&apos;" "'"
    |> Text.replace "&amp;" "&"

end ApiBook.Xml
