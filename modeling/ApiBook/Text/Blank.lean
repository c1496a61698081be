import ApiBook.Text.Basic
import ApiBook.Text.Ranges

/-! # White space

White space is the White_Space class of characters; a blank is a space or a tab.
-/

namespace ApiBook.Text

/-- White space beyond ASCII. -/
def whiteRanges : List (Nat × Nat) :=
  [(0x0085, 0x0085), (0x00A0, 0x00A0), (0x1680, 0x1680), (0x2000, 0x200A), (0x2028, 0x2029),
   (0x202F, 0x202F), (0x205F, 0x205F), (0x3000, 0x3000)]

def isWhite (c : Char) : Bool :=
  if c.toNat < 128 then c == ' ' || (9 ≤ c.toNat && c.toNat ≤ 13) else inRanges whiteRanges c.toNat

def isBlank (c : Char) : Bool := c == ' ' || c == '\t'

theorem isWhite_of_isBlank {c : Char} (h : isBlank c = true) : isWhite c = true := by
  simp only [isBlank, Bool.or_eq_true, beq_iff_eq] at h
  rcases h with rfl | rfl <;> decide

def trimStart (s : Text) : Text := s.dropWhile isWhite

def trimEnd (s : Text) : Text := s.dropEndWhile isWhite

def trim (s : Text) : Text := trimEnd (trimStart s)

def dropBlanks (s : Text) : Text := s.dropWhile isBlank

/-- The maximal runs of characters that are not white space. -/
def words (s : Text) : List Text := (fields isWhite s).filter (· ≠ [])

def oneLine (s : Text) : Text := List.intercalate [' '] (words s)

end ApiBook.Text
