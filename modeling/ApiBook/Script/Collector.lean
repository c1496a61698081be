import ApiBook.Script.Document

/-! # Collecting notes

A collector takes notes one at a time, or all notes of a comment block, and keeps the position of
each member under its name, so that a later declaration finds the place of the earlier one.
-/

namespace ApiBook.Script

/-- What the notes so far document, and where each member stands. -/
structure Collector where
  classDoc : Option ClassDoc := none
  members : List Member := []
  index : List (Text × Nat) := []
  deriving DecidableEq, Repr

/-- What is handed to a collector: one note, or the lines of a comment block. -/
inductive Supply where
  | note (note : Note)
  | block (lines : List Text)
  deriving DecidableEq, Repr

def Supply.notes : Supply → List Note
  | .note a => [a]
  | .block lines => Script.notes lines

namespace Collector

/-- Puts a member at the position of its name, or behind all others if the name is new. There is
no result when the index names a position without a member. -/
def insert? (c : Collector) (m : Member) : Option Collector :=
  match c.index.lookup m.name with
  | some i =>
    if i < c.members.length then some { c with members := c.members.set i m } else none
  | none =>
    some { c with
      members := c.members ++ [m]
      index := (m.name, c.members.length) :: c.index }

/-- The first class stays. Summaries and unknown tags document nothing. -/
def add? (c : Collector) : Note → Option Collector
  | .summary _ => some c
  | .unrecognized _ => some c
  | .declared ⟨name, summary, .wholeClass⟩ =>
    some { c with classDoc := c.classDoc.or (some ⟨name, summary⟩) }
  | .declared ⟨name, summary, .member typeName detail⟩ =>
    c.insert? { name, summary, typeName, origin := .client, detail }

def addAll? (c : Collector) (as : List Note) : Option Collector := as.foldlM add? c

def supply? (c : Collector) (s : Supply) : Option Collector := c.addAll? s.notes

def supplyAll? (c : Collector) (ss : List Supply) : Option Collector := ss.foldlM supply? c

def build (c : Collector) : Document := ⟨c.classDoc, c.members⟩

end Collector

end ApiBook.Script
