import ApiBook.Script.Document

/-! # Printing scripts

A script as an author writes it: for the class and for every member a block of line comments in
front of a line of code. The tag stands first, then the summary, then what only one kind of member
has.
-/

namespace ApiBook.Script

section Lines

def mark (line : Text) : Text := if line = [] then "//" else "// " ++ line

def tagLine (keyword text : Text) : Text := '@' :: (keyword ++ ' ' :: text)

def typePart (typeName : Text) : Text :=
  if typeName = [] then [] else '{' :: (typeName ++ ['}', ' '])

def descriptionPart (description : Text) : Text :=
  if description = [] then [] else ' ' :: description

def declaredText (typeName name description : Text) : Text :=
  typePart typeName ++ (name ++ descriptionPart description)

/-- The lines of a text, empty ones between its paragraphs. -/
def proseLines (text : Text) : List Text :=
  if text = [] then [] else Text.fields (· == '\n') text

def paramLine (p : Param) : Text :=
  tagLine "param" (declaredText p.typeName p.name p.description)

def quoted (value : Text) : Text := '\'' :: (value ++ ['\''])

def defaultLine (value : Text) : Text := "Default: " ++ quoted value

end Lines

section Blocks

def detailLines : Detail → List Text
  | .property value => (value.map defaultLine).toList
  | .event ps => ps.map paramLine
  | .method ps returns => ps.map paramLine ++ (returns.map (tagLine "returns")).toList

def memberLines (m : Member) : List Text :=
  tagLine m.detail.label (declaredText m.typeName m.name []) ::
    (proseLines m.summary ++ detailLines m.detail)

def classLines (c : ClassDoc) : List Text :=
  tagLine "class" (declaredText [] c.name []) :: proseLines c.summary

def Document.blockLines (s : Document) : List (List Text) :=
  (s.classDoc.map classLines).toList ++ s.members.map memberLines

def printBlock (code : List Text → Text) (lines : List Text) : List Text :=
  lines.map mark ++ [code lines]

def Document.print (code : List Text → Text) (s : Document) : List Text :=
  s.blockLines.flatMap (printBlock code)

end Blocks

section Printable

/-- Lines that are neither blank nor start a comment. -/
def IsCode (raw : Text) : Prop := (classify false raw).1 = .code

/-- Names start with an ASCII letter, an underscore or a dollar sign. -/
def IsName : Text → Prop
  | [] => False
  | c :: cs => isNameStart c ∧ cs.all isNameChar

instance : DecidablePred IsName
  | [] => isFalse id
  | c :: cs => inferInstanceAs (Decidable (isNameStart c ∧ cs.all isNameChar))

structure IsTypeName (s : Text) : Prop where
  trimmed : Text.trim s = s
  notBrace : '}' ∉ s
  single : '\n' ∉ s

/-- A line of a summary is neither a tag nor a default value. -/
structure IsPlainLine (s : Text) : Prop where
  trimmed : Text.trim s = s
  ne_nil : s ≠ []
  single : '\n' ∉ s
  lexed : TagLine.ofText s = .text s

/-- Plain lines, of which each begins a new line or a new paragraph. -/
inductive IsProse : Text → Prop
  | line {l : Text} : IsPlainLine l → IsProse l
  | next {l p : Text} : IsPlainLine l → IsProse p → IsProse (l ++ '\n' :: p)
  | paragraph {l p : Text} : IsPlainLine l → IsProse p → IsProse (l ++ '\n' :: '\n' :: p)

def IsSummary (s : Text) : Prop := s = [] ∨ IsProse s

structure IsDescription (s : Text) : Prop where
  trimmed : Text.trim s = s
  single : '\n' ∉ s
  notDash : s.head? ≠ some '-'

structure IsWord (v : Text) : Prop where
  ne_nil : v ≠ []
  notWhite : ∀ c ∈ v, Text.isWhite c = false

/-- Words with one space between neighbours. The first could be taken for a type or for a name in
brackets, the second for a description behind a dash. -/
structure IsResult (w : Text) (ws : List Text) : Prop where
  words : ∀ v ∈ w :: ws, IsWord v
  notBrace : w.head? ≠ some '{'
  notBracket : '[' ∉ w ∧ ']' ∉ w
  notDash : ∀ v ∈ ws.head?, v.head? ≠ some '-'

structure PrintableParam (p : Param) : Prop where
  name : IsName p.name
  typeName : IsTypeName p.typeName
  description : IsDescription p.description

def PrintableDetail : Detail → Prop
  | .property value => ∀ v ∈ value, '\n' ∉ v
  | .event ps => ∀ p ∈ ps, PrintableParam p
  | .method ps returns => (∀ p ∈ ps, PrintableParam p) ∧
      ∀ t ∈ returns, ∃ w ws, t = List.intercalate [' '] (w :: ws) ∧ IsResult w ws

structure PrintableMember (m : Member) : Prop where
  name : IsName m.name
  summary : IsSummary m.summary
  typeName : IsTypeName m.typeName
  origin : m.origin = .client
  detail : PrintableDetail m.detail

structure Document.Printable (s : Document) : Prop where
  className : ∀ c ∈ s.classDoc, IsName c.name
  classSummary : ∀ c ∈ s.classDoc, IsSummary c.summary
  members : ∀ m ∈ s.members, PrintableMember m
  nodup : (s.members.map (·.name)).Nodup

end Printable

end ApiBook.Script
