import ApiBook.Script.Line

/-! # Comment blocks

A comment block is a run of comment lines directly in front of a line of code, its declaration.
A blank line between the two detaches the run, and a run at the end of the script has nothing to
describe. A cursor finds the blocks one at a time.
-/

namespace ApiBook.Script

/-- Comment lines, the trimmed line of code below them and the number of that line, from one. -/
structure Block where
  lines : List Text
  declaration : Text
  line : Nat
  deriving DecidableEq, Repr

/-- The comment run in front of the next line: its texts from the first that is not empty, the
blank lines since the last comment, and whether a block comment is open. -/
structure Run where
  texts : List Text := []
  blanks : Nat := 0
  inside : Bool := false
  deriving DecidableEq, Repr

namespace Run

/-- Blank lines inside a run count as empty texts; empty texts in front of it are dropped. -/
def comment (r : Run) (text : Text) (inside : Bool) : Run :=
  let texts := if r.texts = [] then [] else r.texts ++ List.replicate r.blanks []
  { texts := if text = [] ∧ texts = [] then [] else texts ++ [text], inside }

def blank (r : Run) : Run :=
  if r.texts = [] then r else { r with blanks := r.blanks + 1 }

/-- The run without trailing empty texts, unless it is empty or detached. -/
def attached? (r : Run) : Option (List Text) :=
  if r.texts = [] ∨ r.blanks ≠ 0 then none
  else some (r.texts.reverse.dropWhile (· = [])).reverse

end Run

/-- A position in a script: how many lines are read, and the lines ahead. -/
structure Cursor where
  number : Nat := 0
  ahead : List Text
  deriving DecidableEq, Repr

/-- Reads up to and including the next line of code that completes a block. -/
def Run.next? (r : Run) (number : Nat) : List Text → Option (Block × Cursor)
  | [] => none
  | raw :: ahead =>
    match classify r.inside raw with
    | (.comment text, inside) => (r.comment text inside).next? (number + 1) ahead
    | (.blank, _) => r.blank.next? (number + 1) ahead
    | (.code, _) =>
      match r.attached? with
      | none => Run.next? {} (number + 1) ahead
      | some lines =>
        some (⟨lines, Text.trim raw, number + 1⟩, ⟨number + 1, ahead⟩)

def Cursor.next? (c : Cursor) : Option (Block × Cursor) :=
  Run.next? {} c.number c.ahead

theorem Run.next?_ahead_lt {r : Run} {n : Nat} {lines : List Text} {b : Block} {c : Cursor}
    (h : r.next? n lines = some (b, c)) : c.ahead.length < lines.length := by
  induction lines generalizing r n with
  | nil => simp [Run.next?] at h
  | cons raw ahead ih =>
    rw [Run.next?] at h
    split at h
    · exact Nat.lt_succ_of_lt (ih h)
    · exact Nat.lt_succ_of_lt (ih h)
    · split at h
      · exact Nat.lt_succ_of_lt (ih h)
      · simp only [Option.some.injEq, Prod.mk.injEq] at h
        simp [← h.2]

def Cursor.blocks (c : Cursor) : List Block :=
  match h : c.next? with
  | none => []
  | some (b, c') =>
    have : c'.ahead.length < c.ahead.length := Run.next?_ahead_lt h
    b :: c'.blocks
termination_by c.ahead.length

def blocks (lines : List Text) : List Block :=
  Cursor.blocks { ahead := lines }

end ApiBook.Script
