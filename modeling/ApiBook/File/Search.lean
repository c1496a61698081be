import ApiBook.File.Access
import ApiBook.File.Pattern

/-! # Searching files

The files that arguments stand for: a file stands for itself, a directory for the scripts in it, and
anything else is a pattern. The result has no duplicates and a fixed order.
-/

namespace ApiBook.Search

variable {m : Type → Type} [Monad m] [MonadFiles m]

/-- The path of an entry of a directory. Entries of the working directory go by their names. -/
def below (base : Path) (name : Text) : Path :=
  if base.components = [.here] then name else base.join name

/-- The patterns behind the last of the recursive patterns that a list starts with. -/
def behindRecursive : List NamePattern → List NamePattern
  | [] => []
  | p :: ps => if p.isRecursive then behindRecursive ps else p :: ps

/-- The last of the recursive patterns that a list starts with, and all behind it. -/
def lastRecursive : List NamePattern → List NamePattern
  | p :: q :: ps => if q.isRecursive then lastRecursive (q :: ps) else p :: q :: ps
  | ps => ps

def isThere (path : Path) : m Bool := do
  let isFile ← MonadFiles.isFile path
  let isDirectory ← MonadFiles.isDirectory path
  return isFile || isDirectory

/-- The paths below a directory that fit patterns. Every pattern and every directory on the way
takes one unit of fuel. -/
def expand : Nat → List NamePattern → Path → m (List Path)
  | 0, _, _ => return []
  | _, [], _ => return []
  | fuel + 1, p :: ps, base => do
    let go (path : Path) : m (List Path) :=
      if ps.isEmpty then return [path] else expand fuel ps path
    let isDirectory ← MonadFiles.isDirectory base
    if p.isLiteral then
      let next := below base p.text
      let found ←
        if p.text = "." ∨ p.text = ".." then pure isDirectory else isThere next
      if found then go next else return []
    else if isDirectory then
      let names := (← MonadFiles.children base).toOption.getD []
      let fits (q : NamePattern) (qs : List NamePattern) (name : Text) : m (List Path) := do
        if q.isMatch name then
          if qs.isEmpty then return [below base name] else expand fuel qs (below base name)
        else return []
      let inside ← names.mapM fun name => do
        if p.isRecursive then
          let deeper ←
            if ← MonadFiles.isDirectory (below base name) then
              expand fuel (lastRecursive (p :: ps)) (below base name)
            else pure []
          match behindRecursive ps with
          | [] => return deeper
          | q :: qs => return deeper ++ (← fits q qs name)
        else fits p ps name
      let dots : List Text := [".", ".."]
      let specials ←
        if p.tokens.head? = some (.char '.') then
          (dots.filter p.isMatch).mapM fun name => go (base.join name)
        else pure []
      return inside.flatten ++ specials.flatten
    else return []

/-- No path is longer, so no directory lies deeper. -/
def maxDepth : Nat := 4096

def files (p : PathPattern) : m (List Path) := do
  let base : Path := if p.isAbsolute then "/" else "."
  let paths ← if p.onlyDirectories then pure [] else expand (maxDepth + p.names.length) p.names base
  paths.filterM fun path => MonadFiles.isFile path

/-- The scripts directly inside a directory. -/
def scripts (directory : Path) : m (Except FileError (List Path)) := do
  match ← MonadFiles.children directory with
  | .error e => return .error e
  | .ok names =>
    let paths := (names.map directory.join).filter fun p => Path.extension? p == some "js".toList
    return .ok (← paths.filterM fun path => MonadFiles.isFile path)

/-- Removes each path that equals the one before it. -/
def dedup : List Path → List Path
  | p :: q :: ps => if Path.same p q then dedup (p :: ps) else p :: dedup (q :: ps)
  | ps => ps

def arrange (paths : List Path) : List Path := dedup (paths.mergeSort Path.le)

end ApiBook.Search
