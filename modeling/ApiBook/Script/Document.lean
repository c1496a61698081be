import ApiBook.Script.Note

/-! # Script documents

A script documents at most one class, the first it names, and members with distinct names. A later
declaration of a member replaces an earlier one in place.
-/

namespace ApiBook.Script

structure ClassDoc where
  name : Text
  summary : Text
  deriving DecidableEq, Repr

structure Document where
  classDoc : Option ClassDoc := none
  members : List Member := []
  deriving DecidableEq, Repr

namespace Document

def isEmpty (s : Document) : Bool := s.classDoc.isNone && s.members.isEmpty

/-- Puts a member in the place of the one of its name, or behind all others. -/
def put (m : Member) : List Member → List Member
  | [] => [m]
  | x :: xs => if x.name = m.name then m :: xs else x :: put m xs

def add (s : Document) : Note → Document
  | .summary _ => s
  | .unrecognized _ => s
  | .declared ⟨name, summary, .wholeClass⟩ =>
    { s with classDoc := s.classDoc.or (some ⟨name, summary⟩) }
  | .declared ⟨name, summary, .member typeName detail⟩ =>
    { s with members := put { name, summary, typeName, origin := .client, detail } s.members }

def addAll (s : Document) (as : List Note) : Document := as.foldl add s

def addBlock (s : Document) (lines : List Text) : Document := s.addAll (notes lines)

def ofLines (lines : List Text) : Document :=
  (blocks lines).foldl (fun s b => s.addBlock b.lines) {}

end Document

end ApiBook.Script
