import ApiBook.Model.Member

/-! # Types

A documented type has a full name, which its last dot divides into the namespace, its scope, and
the simple name, a summary and members. A new account of a member joins the one of the same name.
-/

namespace ApiBook

structure TypeDoc where
  fullName : Text
  name : Text
  scope : Text
  summary : Text := []
  members : List Member := []
  deriving DecidableEq, Repr

/-- What joining members changed: how many are new, and how many old ones had a gap filled. -/
structure Outcome where
  appended : Nat := 0
  augmented : Nat := 0
  deriving DecidableEq, Repr

def Outcome.plus (a b : Outcome) : Outcome :=
  ⟨a.appended + b.appended, a.augmented + b.augmented⟩

namespace TypeDoc

def ofFullName (fullName : Text) : TypeDoc :=
  match Text.cutLast? '.' fullName with
  | some (scope, name) => { fullName, name, scope }
  | none => { fullName, name := fullName, scope := [] }

def member? (t : TypeDoc) (name : Text) : Option Member := t.members.find? (·.name = name)

def properties (t : TypeDoc) : List Member := t.members.filter (·.detail.isProperty)

def events (t : TypeDoc) : List Member := t.members.filter (·.detail.isEvent)

def methods (t : TypeDoc) : List Member := t.members.filter (·.detail.isMethod)

/-- An empty summary takes the given one. -/
def fillSummary (summary : Text) (t : TypeDoc) : TypeDoc :=
  { t with summary := (fill t.summary summary).1 }

/-- A member fills the gaps of the one of its name, or comes behind all others. -/
def joinMember (m : Member) : List Member → List Member × Outcome
  | [] => ([m], { appended := 1 })
  | x :: xs =>
    if x.name = m.name then
      let (x', changed) := x.absorb m
      (x' :: xs, { augmented := if changed then 1 else 0 })
    else
      let (xs', o) := joinMember m xs
      (x :: xs', o)

def join (m : Member) (t : TypeDoc) : TypeDoc × Outcome :=
  let (members, o) := joinMember m t.members
  ({ t with members }, o)

def joinAll : List Member → TypeDoc → TypeDoc × Outcome
  | [], t => (t, {})
  | m :: ms, t =>
    let (t, o₁) := t.join m
    let (t, o₂) := t.joinAll ms
    (t, o₁.plus o₂)

def modifyFirst (name : Text) (f : Member → Member) : List Member → List Member
  | [] => []
  | m :: ms => if m.name = name then f m :: ms else m :: modifyFirst name f ms

def modifyMember (name : Text) (f : Member → Member) (t : TypeDoc) : TypeDoc :=
  { t with members := modifyFirst name f t.members }

end TypeDoc

end ApiBook
