import ApiBook.Text.Blank

/-! # Script lines

A line of a script is blank, comment text or code. Whether it is comment text depends on whether
an earlier line opened a block comment, so classification carries that flag from line to line.
-/

namespace ApiBook.Script

inductive Line where
  | blank
  | comment (text : Text)
  | code
  deriving DecidableEq, Repr

/-- Comment text behind its marker: one separating space and all trailing white space go, deeper
indentation stays. -/
def unmark (s : Text) : Text :=
  Text.trimEnd <|
    match s with
    | ' ' :: r => r
    | _ => s

/-- A line inside a block comment may repeat the star of its opener. -/
def dropStar : Text → Text
  | '*' :: r => r
  | s => s

/-- Reads the rest of a line from inside a block comment. The flag tells whether the comment stays
open. -/
def insideComment (s : Text) : Text × Bool :=
  match Text.around? "*/" s with
  | some (body, _) => (body, false)
  | none => (s, true)

/-- The class of a line, and whether a block comment is open after it. -/
def classify (inside : Bool) (raw : Text) : Line × Bool :=
  let line := Text.trim raw
  if inside then
    let (body, still) := insideComment line
    (.comment (unmark (dropStar body)), still)
  else if line = [] then
    (.blank, false)
  else
    match Text.after? "//" line with
    | some rest => (.comment (unmark (rest.dropWhile (· == '/'))), false)
    | none =>
      match Text.after? "/*" line with
      | some rest =>
        let (body, still) := insideComment (rest.dropWhile (· == '*'))
        (.comment (unmark body), still)
      | none => (.code, false)

end ApiBook.Script
