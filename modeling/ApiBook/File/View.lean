import ApiBook.File.Tree

/-! # Views of files

What a reader sees of a file system at one moment: the text and the stamp at every path.
-/

namespace ApiBook

structure View where
  read : Path → Except FileError Text
  stamp? : Path → Option Stamp

def Tree.view (t : Tree) : View := ⟨t.read, t.stamp?⟩

/-- What was seen at one path. -/
structure Sighting where
  path : Path
  content : Except FileError Text
  stamp? : Option Stamp

/-- The view of the paths that were looked at; nothing is known at any other. -/
def View.ofSightings (seen : List Sighting) : View where
  read p :=
    match seen.find? (·.path = p) with
    | some s => s.content
    | none => .error .notFound
  stamp? p := (seen.find? (·.path = p)).bind (·.stamp?)

end ApiBook
