import ApiBook.Xml.Element

/-! # Printing documentation files

A documentation file as a compiler writes it: one `member` element per documented thing, one child
element per fragment, and five characters escaped everywhere.
-/

namespace ApiBook.Xml

/-- What a documentation file tells about one thing: its id, and its child elements with texts as
their authors wrote them. -/
structure Entry where
  id : Text
  fragments : List Fragment
  deriving DecidableEq, Repr

/-- Names of child elements: an ASCII letter, then word characters, dots and hyphens. -/
def IsElementName : Text → Prop
  | [] => False
  | c :: cs => c.isAlpha ∧ cs.all isElementChar

instance : DecidablePred IsElementName
  | [] => isFalse id
  | c :: cs => inferInstanceAs (Decidable (c.isAlpha ∧ cs.all isElementChar))

/-- An entry whose child elements have names, of which `member` is none. -/
def Entry.Printable (e : Entry) : Prop :=
  ∀ f ∈ e.fragments, IsElementName f.element ∧ f.element ≠ "member".toList

instance : DecidablePred Entry.Printable := fun e =>
  inferInstanceAs (Decidable
    (∀ f ∈ e.fragments, IsElementName f.element ∧ f.element ≠ "member".toList))

def entities : List (Char × Text) :=
  [('&', "amp"), ('<', "lt"), ('>', "gt"), ('"', "quot"), ('\'', "apos")]

def escapeChar (c : Char) : Text :=
  match entities.lookup c with
  | some name => "&" ++ name ++ ";"
  | none => [c]

def escape (s : Text) : Text := s.flatMap escapeChar

def printName (name : Option Text) : Text :=
  name.elim [] fun n => " name=\"" ++ escape n ++ "\""

def printFragment (f : Fragment) : Text :=
  "<" ++ f.element ++ printName f.name ++ ">" ++ escape f.text ++ "</" ++ f.element ++ ">"

def printEntry (e : Entry) : Text :=
  "<member name=\"" ++ escape e.id ++ "\">" ++ e.fragments.flatMap printFragment ++ "</member>"

end ApiBook.Xml
