import ApiBook.Page.Anchor
import ApiBook.Page.Signature

/-! # Markdown pages

A page is a list of lines. Headings come with an empty line of their own; texts are followed by
one.
-/

namespace ApiBook.Page.Markdown

def extension : Text := "md"

def heading (mark title : Text) : Text := mark ++ " " ++ title ++ "\n"

def passage (text : Text) : List Text := if text = [] then [] else [text, []]

def code (text : Text) : Text := "`" ++ text ++ "`"

/-- `* **name** (Type): description` -/
def param (p : Param) : Text :=
  "* **" ++ p.name ++ "**" ++
    (if p.typeName = [] then [] else (" (" ++ shortType p.typeName ++ ")" : Text)) ++
    (if p.description = [] then [] else (": " ++ p.description : Text))

/-- The type of a member without parameters, its default value, and a mark for a member that only a
script documents. -/
def badges (m : Member) : Text :=
  let parts : List Text :=
    (if m.typeName ≠ [] ∧ m.params = [] then [code (shortType m.typeName)] else []) ++
    (match m.default? with
      | some value => [("default " ++ code value : Text)]
      | none => []) ++
    (if m.origin = .client then [("*`client`*" : Text)] else [])
  if parts = [] then [] else "> " ++ List.intercalate " " parts

def member (m : Member) : List Text :=
  [heading "###" m.name] ++
  (if m.params = [] then [] else [code (signature m) ++ "\n"]) ++
  passage (badges m) ++
  passage m.summary ++
  (if m.params = [] then [] else heading "####" "Parameters" :: (m.params.map param ++ [[]])) ++
  (match m.returns? with
    | some returns => [heading "####" "Returns", returns, []]
    | none => [])

def memberSection (title : Text) (ms : List Member) : List Text :=
  if ms = [] then [] else heading "##" title :: ms.flatMap member

def contents (t : TypeDoc) : List Text :=
  if t.members = [] then []
  else heading "##" "Index" :: (t.members.map (fun m => anchorItem m.name) ++ [[]])

def typeLines (t : TypeDoc) : List Text :=
  [heading "#" t.name] ++
  (if t.scope = [] then [] else ["_Namespace: " ++ t.scope ++ "_\n"]) ++
  passage t.summary ++
  contents t ++
  memberSection "Properties" t.properties ++
  memberSection "Events" t.events ++
  memberSection "Methods" t.methods

def typePage (t : TypeDoc) : Text := List.intercalate "\n" (typeLines t)

def indexLine (link : TypeDoc → Text) (t : TypeDoc) : Text :=
  "* [" ++ t.name ++ "](" ++ link t ++ ")" ++
    (match (Text.lines t.summary).head? with
      | some first => (": " ++ first : Text)
      | none => []) ++ "\n"

def indexWith (link : TypeDoc → Text) (ts : List TypeDoc) : Text :=
  "# Reference\n\n" ++ ts.flatMap (indexLine link)

/-- A list of types that links to their pages. -/
def index (ts : List TypeDoc) : Text := indexWith (fun t => t.name ++ "." ++ extension) ts

/-- One document of all types, whose list links to the headings below it. -/
def all (ts : List TypeDoc) : Text :=
  indexWith (fun t => "#" ++ slug t.name) ts ++ ts.flatMap fun t => '\n' :: typePage t

end ApiBook.Page.Markdown
