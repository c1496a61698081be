import ApiBook.Text.Blank

/-! # Pieces of tags

The readers of white space and quoted values that all tags share.
-/

namespace ApiBook.Xml

def skipWhite (s : Text) : Text := Text.trimStart s

def someWhite? : Text → Option Text
  | c :: cs => if Text.isWhite c then some (skipWhite cs) else none
  | [] => none

def quoted? : Text → Option (Text × Text)
  | '"' :: s => Text.cut? '"' s
  | _ => none

def equalsQuoted? (s : Text) : Option (Text × Text) :=
  match skipWhite s with
  | '=' :: s => quoted? (skipWhite s)
  | _ => none

def afterOneOf? (keywords : List Text) (s : Text) : Option Text :=
  keywords.findSome? fun k => Text.after? k s

end ApiBook.Xml
