import ApiBook.Model.Member

/-! # Records

A record is one entry of an XML documentation file: the id of what it documents and the texts of
its child elements. The id `M:Ns.Type.Method(System.String,System.Int32)` gives a kind, a target
and the types of the parameters.
-/

namespace ApiBook

inductive RecordKind where
  | scope
  | type
  | property
  | field
  | event
  | method
  | unknown
  deriving DecidableEq, Repr

/-- A child element of a record with its plain text. -/
structure Fragment where
  element : Text
  name : Option Text := none
  text : Text := []
  deriving DecidableEq, Repr

structure Record where
  kind : RecordKind
  target : Text
  signature : List Text := []
  fragments : List Fragment := []
  deriving DecidableEq, Repr

namespace RecordKind

def ofLetter? : Char → Option RecordKind
  | 'N' => some scope
  | 'T' => some type
  | 'P' => some property
  | 'F' => some field
  | 'E' => some event
  | 'M' => some method
  | _ => none

end RecordKind

namespace Record

def depthAfter (depth : Nat) (c : Char) : Nat :=
  if c = '{' ∨ c = '[' ∨ c = '(' then depth + 1
  else if c = '}' ∨ c = ']' ∨ c = ')' then depth - 1
  else depth

/-- The pieces between the commas outside all brackets. -/
def commaPieces (depth : Nat) : Text → List Text
  | [] => [[]]
  | c :: cs =>
    if c = ',' ∧ depth = 0 then [] :: commaPieces 0 cs
    else Text.consHead c (commaPieces (depthAfter depth c) cs)

/-- The types of a parameter list. Nothing stands behind a final comma. -/
def splitSignature (s : Text) : List Text :=
  let pieces := commaPieces 0 s
  if pieces.getLast? = some [] then pieces.dropLast else pieces

/-- The kind of an id and what follows its letter and colon. -/
def splitKind (id : Text) : RecordKind × Text :=
  match id with
  | c :: ':' :: rest =>
    match RecordKind.ofLetter? c with
    | some kind => (kind, rest)
    | none => (.unknown, id)
  | _ => (.unknown, id)

def ofId (id : Text) : Record :=
  let (kind, rest) := splitKind id
  match Text.cut? '(' rest with
  | some (target, args) =>
    { kind, target, signature := splitSignature (Text.dropEndWhile (· == ')') args) }
  | none => { kind, target := rest }

/-- The first text of an element that is not empty. -/
def textOf? (r : Record) (element : Text) : Option Text :=
  (r.fragments.find? fun f => f.element = element ∧ f.text ≠ []).map (·.text)

/-- The summary, or else the value of a property. -/
def summary (r : Record) : Text :=
  ((r.textOf? "summary").or (r.textOf? "value")).getD []

/-- Pairs parameter elements with the types of the signature, by position. -/
def pairParams : List Fragment → List Text → List Param
  | [], _ => []
  | f :: fs, types =>
    ⟨f.name.getD [], types.headD [], f.text⟩ :: pairParams fs types.tail

def params (r : Record) : List Param :=
  pairParams (r.fragments.filter (·.element = "param")) r.signature

def toMember? (r : Record) (name : Text) : Option Member :=
  let detail? : Option Detail :=
    match r.kind with
    | .property | .field => some (.property none)
    | .event => some (.event [])
    | .method => some (.method r.params (r.textOf? "returns"))
    | .scope | .type | .unknown => none
  detail?.map fun detail => { name, summary := r.summary, origin := .xml, detail }

end Record

end ApiBook
