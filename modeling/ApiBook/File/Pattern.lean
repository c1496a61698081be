import ApiBook.File.Path
import ApiBook.Text.Number

/-! # File name patterns

In a pattern `?` stands for any character, `*` for any characters, `[a-z]` for one of some
characters and `[!a-z]` for any other; two stars stand for directories of any depth and must be a
component of their own.
-/

namespace ApiBook

inductive CharSpec where
  | single (c : Char)
  | range (first last : Char)
  deriving DecidableEq, Repr

inductive PatternToken where
  | char (c : Char)
  | anyChar
  | anyChars
  | anyDirectories
  | oneOf (specs : List CharSpec)
  | noneOf (specs : List CharSpec)
  deriving DecidableEq, Repr

/-- How a name compares with a pattern. A name is too short when it ends before the pattern does. -/
inductive Fit where
  | fits
  | differs
  | tooShort
  deriving DecidableEq, Repr

inductive PatternFault where
  | wildcards
  | recursiveWildcards
  | range
  deriving DecidableEq, Repr

structure PatternError where
  position : Nat
  fault : PatternFault
  deriving DecidableEq, Repr

def PatternFault.message : PatternFault → Text
  | wildcards => "wildcards are either regular `*` or recursive `**`"
  | recursiveWildcards => "recursive wildcards must form a single path component"
  | range => "invalid range pattern"

def PatternError.message (e : PatternError) : Text :=
  "Pattern syntax error near position " ++ Text.ofNat e.position ++ ": " ++ e.fault.message

namespace CharSpec

/-- Reads what stands between brackets. A hyphen between two characters makes a range. -/
def ofText : Text → List CharSpec
  | a :: '-' :: b :: s => range a b :: ofText s
  | a :: s => single a :: ofText s
  | [] => []

def holds (c : Char) : CharSpec → Bool
  | single a => a == c
  | range a b => a ≤ c && c ≤ b

end CharSpec

namespace PatternToken

/-- Reads a pattern from a position on, behind the given character. -/
def parseFrom (position : Nat) (before : Option Char) (s : Text) :
    Except PatternError (List PatternToken) :=
  match s with
  | [] => .ok []
  | '?' :: s => (parseFrom (position + 1) (some '?') s).map (anyChar :: ·)
  | '*' :: '*' :: '*' :: _ => .error ⟨position + 2, .wildcards⟩
  | '*' :: '*' :: s =>
    if before = none ∨ before = some '/' then
      match s with
      | [] => .ok [anyDirectories]
      | '/' :: s => (parseFrom (position + 3) (some '/') s).map (anyDirectories :: ·)
      | _ => .error ⟨position + 2, .recursiveWildcards⟩
    else .error ⟨position - 1, .recursiveWildcards⟩
  | '*' :: s => (parseFrom (position + 1) (some '*') s).map (anyChars :: ·)
  | '[' :: '!' :: c :: s =>
    match h : Text.cut? ']' s with
    | none => .error ⟨position, .range⟩
    | some (inside, rest) =>
      have : rest.length < s.length := by simp [(Text.cut?_eq_some h).1]; omega
      (parseFrom (position + inside.length + 4) (some ']') rest).map
        (noneOf (CharSpec.ofText (c :: inside)) :: ·)
  | ['[', '!'] => .error ⟨position, .range⟩
  | '[' :: c :: s =>
    match h : Text.cut? ']' s with
    | none => .error ⟨position, .range⟩
    | some (inside, rest) =>
      have : rest.length < s.length := by simp [(Text.cut?_eq_some h).1]; omega
      (parseFrom (position + inside.length + 3) (some ']') rest).map
        (oneOf (CharSpec.ofText (c :: inside)) :: ·)
  | ['['] => .error ⟨position, .range⟩
  | c :: s => (parseFrom (position + 1) (some c) s).map (char c :: ·)
termination_by s.length

def parse (s : Text) : Except PatternError (List PatternToken) := parseFrom 0 none s

def fits (c : Char) : PatternToken → Bool
  | char a => a == c
  | anyChar => true
  | oneOf specs => specs.any (·.holds c)
  | noneOf specs => !specs.any (·.holds c)
  | anyChars => false
  | anyDirectories => false

def isMany : PatternToken → Bool
  | anyChars => true
  | anyDirectories => true
  | _ => false

/-- Matches tokens with a name. A token for any number of characters takes as few as it can. It does
not try more once the name turned out too short, since what is left would be shorter still. -/
def fit : List PatternToken → Text → Fit
  | [], s => if s.isEmpty then .fits else .differs
  | t :: ts, [] => if t.isMany then fit ts [] else .tooShort
  | t :: ts, c :: s =>
    if t.isMany then
      match fit ts (c :: s) with
      | .differs => fit (t :: ts) s
      | r => r
    else if t.fits c then fit ts s
    else .differs
termination_by ts s => ts.length + s.length

def isMatch (ts : List PatternToken) (s : Text) : Bool := fit ts s = .fits

end PatternToken

/-- A component of a pattern: its text and its tokens. -/
structure NamePattern where
  text : Text
  tokens : List PatternToken
  deriving DecidableEq, Repr

namespace NamePattern

def isLiteral (p : NamePattern) : Bool :=
  p.tokens.all fun
    | .char _ => true
    | _ => false

def isRecursive (p : NamePattern) : Bool := p.tokens.contains .anyDirectories

def isMatch (p : NamePattern) (name : Text) : Bool := PatternToken.isMatch p.tokens name

def ofText (s : Text) : Except PatternError NamePattern :=
  (PatternToken.parse s).map fun tokens => ⟨s, tokens⟩

end NamePattern

/-- A pattern for paths: whether it starts at the root, the patterns of its components, and whether
it asks for directories. -/
structure PathPattern where
  isAbsolute : Bool
  names : List NamePattern
  onlyDirectories : Bool
  deriving DecidableEq, Repr

namespace PathPattern

/-- The pieces between slashes, without an empty one at the end. -/
def pieces (s : Text) : List Text :=
  let ps := Text.fields (· == '/') s
  if ps.getLast? = some [] then ps.dropLast else ps

def namePatterns : List Text → Except PatternError (List NamePattern)
  | [] => .ok []
  | s :: ss => do
    let p ← NamePattern.ofText s
    let ps ← namePatterns ss
    return p :: ps

/-- Reads a pattern. The whole of it and each of its components must be well formed. -/
def parse (s : Text) : Except PatternError PathPattern := do
  let _ ← PatternToken.parse s
  let relative := s.dropWhile (· == '/')
  let names ← namePatterns (pieces relative)
  return {
    isAbsolute := relative.length < s.length
    names := if relative = [] then [⟨[], []⟩] else names
    onlyDirectories := s.getLast? = some '/' }

end PathPattern

end ApiBook
