import ApiBook.Model.TypeDoc

/-! # Signatures

Pages show types without their namespaces, and methods as they are called:
`Boolean validate(String value, Number max)`.
-/

namespace ApiBook.Page

def isTypeDelimiter (c : Char) : Bool :=
  c == '{' || c == '}' || c == ',' || c == '[' || c == ']'

/-- Writes out the segment read so far, whose last character comes first, at each delimiter and at
the end; a dot discards it. -/
def shortTypeFrom (segment : Text) : Text → Text
  | [] => segment.reverse
  | c :: cs =>
    if c = '.' then shortTypeFrom [] cs
    else if isTypeDelimiter c then segment.reverse ++ c :: shortTypeFrom [] cs
    else shortTypeFrom (c :: segment) cs

/-- `System.Collections.Generic.List{System.Int32}` becomes `List{Int32}`. -/
def shortType (typeName : Text) : Text := shortTypeFrom [] typeName

def typed (typeName name : Text) : Text :=
  if typeName = [] then name else shortType typeName ++ " " ++ name

def signature (m : Member) : Text :=
  typed m.typeName m.name ++ "(" ++
    List.intercalate ", " (m.params.map fun p => typed p.typeName p.name) ++ ")"

end ApiBook.Page
