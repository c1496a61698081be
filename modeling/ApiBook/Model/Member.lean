import ApiBook.Text.Basic

/-! # Members

A member of a type is a property, an event or a method. Its documentation comes from the XML file
or from a script, and one account of a member can fill the gaps of another.
-/

namespace ApiBook

/-- Where the documentation of a member comes from. -/
inductive Origin where
  | xml
  | client
  deriving DecidableEq, Repr

structure Param where
  name : Text := []
  typeName : Text := []
  description : Text := []
  deriving DecidableEq, Repr

/-- What only one kind of member has. -/
inductive Detail where
  | property (default : Option Text)
  | event (params : List Param)
  | method (params : List Param) (returns : Option Text)
  deriving DecidableEq, Repr

/-- A documented member. The type name is that of a property's value, an event's argument or a
method's result. -/
structure Member where
  name : Text
  summary : Text := []
  typeName : Text := []
  origin : Origin
  detail : Detail
  deriving DecidableEq, Repr

namespace Detail

def label : Detail → Text
  | property _ => "property"
  | event _ => "event"
  | method _ _ => "method"

def isProperty : Detail → Bool
  | property _ => true
  | _ => false

def isEvent : Detail → Bool
  | event _ => true
  | _ => false

def isMethod : Detail → Bool
  | method _ _ => true
  | _ => false

def default? : Detail → Option Text
  | property d => d
  | _ => none

def returns? : Detail → Option Text
  | method _ r => r
  | _ => none

def params? : Detail → Option (List Param)
  | property _ => none
  | event ps => some ps
  | method ps _ => some ps

def params (d : Detail) : List Param := d.params?.getD []

def withParams (ps : List Param) : Detail → Detail
  | property d => property d
  | event _ => event ps
  | method _ r => method ps r

end Detail

namespace Member

def default? (m : Member) : Option Text := m.detail.default?

def params (m : Member) : List Param := m.detail.params

def returns? (m : Member) : Option Text := m.detail.returns?

end Member

/-! ## Filling gaps

Each operation gives the filled value and whether it differs from the old one. -/

def fill (old new : Text) : Text × Bool :=
  if old = [] ∧ new ≠ [] then (new, true) else (old, false)

/-- A missing text takes the other one. -/
def fillOption : Option Text → Option Text → Option Text × Bool
  | none, some new => (some new, true)
  | old, _ => (old, false)

/-- The gaps of a parameter are filled from the first parameter of its name. -/
def Param.fillFrom (others : List Param) (p : Param) : Param × Bool :=
  match others.find? (·.name = p.name) with
  | none => (p, false)
  | some other =>
    let (typeName, c₁) := fill p.typeName other.typeName
    let (description, c₂) := fill p.description other.description
    ({ p with typeName, description }, c₁ || c₂)

/-- An empty parameter list takes the other one; otherwise only gaps are filled, by name. -/
def fillParams (old new : List Param) : List Param × Bool :=
  if old = [] then (new, !new.isEmpty)
  else
    let filled := old.map (Param.fillFrom new)
    (filled.map Prod.fst, filled.any Prod.snd)

/-- Members of different kinds share no detail. -/
def Detail.absorb : Detail → Detail → Detail × Bool
  | .property d, .property d' =>
    let (d, c) := fillOption d d'
    (.property d, c)
  | .event ps, .event ps' =>
    let (ps, c) := fillParams ps ps'
    (.event ps, c)
  | .method ps r, .method ps' r' =>
    let (ps, c₁) := fillParams ps ps'
    let (r, c₂) := fillOption r r'
    (.method ps r, c₁ || c₂)
  | d, _ => (d, false)

/-- Fills every gap of a member from another account of it. What is documented stays, as do name
and origin. -/
def Member.absorb (m other : Member) : Member × Bool :=
  let (summary, c₁) := fill m.summary other.summary
  let (typeName, c₂) := fill m.typeName other.typeName
  let (detail, c₃) := m.detail.absorb other.detail
  ({ m with summary, typeName, detail }, c₁ || c₂ || c₃)

end ApiBook
