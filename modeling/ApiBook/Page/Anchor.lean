import ApiBook.Text.Alphanumeric
import ApiBook.Text.Lowercase

/-! # Anchors

A heading is reached by its slug: lower case, hyphens for spaces, and no other punctuation than
hyphens and underscores.
-/

namespace ApiBook.Page

def isSlugChar (c : Char) : Bool := Text.isAlphanumeric c || c == ' ' || c == '-' || c == '_'

def slug (heading : Text) : Text :=
  ((Text.lower heading).filter isSlugChar).map fun c => if c = ' ' then '-' else c

def anchorLink (heading : Text) : Text := "[" ++ heading ++ "](#" ++ slug heading ++ ")"

def anchorItem (heading : Text) : Text := "* " ++ anchorLink heading

end ApiBook.Page
