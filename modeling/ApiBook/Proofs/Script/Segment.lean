import ApiBook.Proofs.Script.Prose
import Mathlib.Data.List.DropRight

/-! # Segments of a block

A member tag and the lines below it, up to the next member tag, are a segment of a block. What a
declaration says is selected from the lines of its segment. Only two things come from elsewhere: a
default value that an earlier line left for the next property, and the text in front of all
segments for declarations that have none.
-/

namespace ApiBook.Script

def firstText (ts : List Text) : Text := (ts.find? (· ≠ [])).getD []

/-- Member tags open segments, with or without a name. -/
def Keyword.opens : Keyword → Bool
  | wholeClass | property | event | method => true
  | param | returns | default | type | unknown => false

/-- What a line below a member tag contributes. -/
inductive Piece where
  /-- The text is empty for a blank line. -/
  | text (t : Text)
  | default (value : Text)
  | param (p : Param)
  | result (r : Declared)
  | type (t : Text)
  | unknown (name : Text)
  | nothing
  deriving DecidableEq, Repr

namespace TagLine

def keyword? : TagLine → Option Keyword
  | tag name _ => some (.ofName name)
  | _ => none

def opens (l : TagLine) : Bool := l.keyword?.any Keyword.opens

def declared : TagLine → Declared
  | tag _ rest => .ofText rest
  | _ => ⟨[], none, []⟩

/-- A parameter without a name contributes nothing. A type may stand in braces or without them. -/
def piece : TagLine → Piece
  | blank => .text []
  | text t => .text t
  | default value => .default value
  | tag name rest =>
    let d := Declared.ofText rest
    match Keyword.ofName name with
    | .param => d.name.elim .nothing fun n => .param ⟨n, d.typeName, d.description⟩
    | .returns => .result d
    | .default => .default (unquote rest)
    | .type => .type (firstText [d.typeName, d.name.getD []])
    | .unknown => .unknown name
    | .wholeClass | .property | .event | .method => .nothing

/-- A line is reported if it is a member tag with a name or an unknown tag. -/
def heading? : TagLine → Option (Keyword × Text)
  | tag name rest =>
    match Keyword.ofName name with
    | .unknown => some (.unknown, name)
    | k => if k.opens then (Declared.ofText rest).name.map (k, ·) else none
  | _ => none

end TagLine

/-- The first line, if there is one, is a member tag. -/
def StartsAtTag (lines : List Text) : Prop :=
  ∀ l, lines.head? = some l → (TagLine.ofText l).opens = true

def Subject.keyword : Subject → Keyword
  | wholeClass => .wholeClass
  | member _ (.property _) => .property
  | member _ (.event _) => .event
  | member _ (.method _ _) => .method

def Note.heading? : Note → Option (Keyword × Text)
  | summary _ => none
  | unrecognized name => some (.unknown, name)
  | declared d => some (d.subject.keyword, d.name)

namespace Piece

def textLines (xs : List Piece) : List Text :=
  xs.filterMap fun | .text t => some t | _ => none

def prose (xs : List Piece) : Text := joinParagraphs (paragraphs (textLines xs))

def defaults (xs : List Piece) : List Text :=
  xs.filterMap fun | .default value => some value | _ => none

def params (xs : List Piece) : List Param :=
  xs.filterMap fun | .param p => some p | _ => none

def results (xs : List Piece) : List Declared :=
  xs.filterMap fun | .result r => some r | _ => none

def resultTexts (xs : List Piece) : List Text :=
  ((results xs).map Declaration.resultText).filter (· ≠ [])

def types (xs : List Piece) : List Text :=
  xs.filterMap fun | .type t => some t | _ => none

def unknownTags (xs : List Piece) : List Note :=
  xs.filterMap fun | .unknown name => some (.unrecognized name) | _ => none

end Piece

/-- What a declaration is about once it has taken the lines of its segment. -/
def Subject.fill (xs : List Piece) : Subject → Subject
  | .wholeClass => .wholeClass
  | .member type (.property value) =>
    .member (firstText (type :: Piece.types xs)) (.property ((Piece.defaults xs).getLast?.or value))
  | .member type (.event ps) => .member type (.event (ps ++ Piece.params xs))
  | .member type (.method ps returns) =>
    .member (firstText (type :: (Piece.results xs).map (·.typeName)))
      (.method (ps ++ Piece.params xs) ((Piece.resultTexts xs).getLast?.or returns))

/-- A member tag and the lines up to the next one. -/
structure Segment where
  opener : TagLine
  body : List TagLine
  opens : opener.opens
  closed : ∀ l ∈ body, l.opens = false

namespace Segment

def lines (s : Segment) : List TagLine := s.opener :: s.body

def pieces (s : Segment) : List Piece := s.body.map TagLine.piece

def isNamed (s : Segment) : Bool := s.opener.declared.name.isSome

def isProperty (s : Segment) : Bool := s.isNamed && s.opener.keyword? == some .property

/-- What the tag of a segment says that it is about, where a default value may wait for a
property. -/
def subject (waiting : Option Text) (s : Segment) : Subject :=
  let type := s.opener.declared.typeName
  match s.opener.keyword? with
  | some .property => .member type (.property waiting)
  | some .event => .member type (.event [])
  | some .method => .member type (.method [] none)
  | _ => .wholeClass

def summary (s : Segment) : Text :=
  List.intercalate "\n" ([s.opener.declared.description, Piece.prose s.pieces].filter (· ≠ []))

/-- What a segment declares, if its tag has a name. -/
def declaration? (lead : Text) (waiting : Option Text) (s : Segment) : Option Declaration :=
  s.opener.declared.name.map fun name =>
    ⟨name, firstText [s.summary, lead], (s.subject waiting).fill s.pieces⟩

def notes (lead : Text) (waiting : Option Text) (s : Segment) : List Note :=
  ((s.declaration? lead waiting).map Note.declared).toList ++ Piece.unknownTags s.pieces

end Segment

/-- A block as the lines in front of all member tags, and its segments. -/
structure Segments where
  lead : List TagLine := []
  segments : List Segment := []
  closed : ∀ l ∈ lead, l.opens = false := by simp

namespace Segments

def cons (l : TagLine) (x : Segments) : Segments :=
  if h : l.opens = true then { segments := ⟨l, x.lead, h, x.closed⟩ :: x.segments }
  else
    { lead := l :: x.lead, segments := x.segments
      closed := List.forall_mem_cons.2 ⟨Bool.eq_false_iff.2 h, x.closed⟩ }

def ofLines (ls : List TagLine) : Segments := ls.foldr cons {}

/-- The default value that waits for the next property behind some segments: the last one since the
previous property was opened that stands in front of all segments or below the name of something
else than a property. -/
def waiting (lead : List Piece) (earlier : List Segment) : Option Text :=
  let front := if earlier.any Segment.isProperty then [] else lead
  let since := (earlier.rtakeWhile fun s => !s.isProperty).filter Segment.isNamed
  (Piece.defaults (front ++ since.flatMap Segment.pieces)).getLast?

/-- The notes of segments behind earlier ones. -/
def notesFrom (lead : List Piece) (earlier : List Segment) : List Segment → List Note
  | [] => []
  | s :: rest =>
    s.notes (Piece.prose lead) (waiting lead earlier) ++ notesFrom lead (earlier ++ [s]) rest

/-- The text in front of all segments, if there is any, then what the lines declare and the unknown
tags. -/
def notes (x : Segments) : List Note :=
  let lead := x.lead.map TagLine.piece
  (if Piece.prose lead = [] then [] else [.summary (Piece.prose lead)]) ++ Piece.unknownTags lead ++
    notesFrom lead [] x.segments

end Segments

end ApiBook.Script
