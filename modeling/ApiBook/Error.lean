import ApiBook.File.Error
import ApiBook.File.Path

/-! # Errors

Why documentation cannot be built or shown.
-/

namespace ApiBook

inductive Error where
  | unreadable (path : Path) (cause : FileError)
  | badSettings (path : Path)
  /-- A script maps to a type that the XML file does not document. -/
  | notDocumented (fullName : Text)
  | unknownType (fullName : Text)
  | unknownFormat (name : Text)
  deriving DecidableEq, Repr

namespace Error

def message : Error → Text
  | unreadable path cause => "failed to read " ++ path ++ ": " ++ cause.message
  | badSettings path => "invalid config " ++ path
  | notDocumented fullName => "type not documented: " ++ fullName
  | unknownType fullName => "type not found: " ++ fullName
  | unknownFormat name => "unknown format: " ++ name ++ ". Use markdown, wiki, or json"

/-- The message of an error and of what caused it. -/
def chain (e : Error) : List Text :=
  match e with
  | unreadable _ cause => [e.message, cause.message]
  | _ => [e.message]

end Error

end ApiBook
