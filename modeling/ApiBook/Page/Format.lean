import ApiBook.Page.Json
import ApiBook.Page.Markdown
import ApiBook.Page.Wiki

/-! # Output formats

The formats that pages can be written in, by the names a caller chooses them with.
-/

namespace ApiBook

inductive Format where
  | markdown
  | wiki
  | json
  deriving DecidableEq, Repr

namespace Format

def ofName? (name : Text) : Option Format :=
  if name = "markdown" ∨ name = "md" then some markdown
  else if name = "wiki" then some wiki
  else if name = "json" then some json
  else none

def extension : Format → Text
  | markdown => Page.Markdown.extension
  | wiki => Page.Wiki.extension
  | json => Page.JsonPage.extension

def typePage : Format → TypeDoc → Text
  | markdown => Page.Markdown.typePage
  | wiki => Page.Wiki.typePage
  | json => Page.JsonPage.typePage

def index : Format → List TypeDoc → Text
  | markdown => Page.Markdown.index
  | wiki => Page.Wiki.index
  | json => Page.JsonPage.index

def all : Format → List TypeDoc → Text
  | markdown => Page.Markdown.all
  | wiki => Page.Wiki.all
  | json => Page.JsonPage.all

end Format

end ApiBook
