import ApiBook.File.Error
import ApiBook.File.Path

/-! # File trees

A file tree is the file system as a value: a root directory with all below it. The working directory
is the entry of the root under the empty name, which no path can spell, so every directory outside
of it counts as the root.
-/

namespace ApiBook

/-- When a file was last changed: a number that its writer chose, or a moment of the clock. -/
inductive Stamp where
  | chosen (number : Nat)
  | clock (moment : Nat)
  deriving DecidableEq, Repr

/-- A file with its bytes, or a directory with its entries by name. -/
inductive Node where
  | file (bytes : ByteArray) (stamp : Stamp)
  | directory (stamp : Stamp) (entries : List (Text × Node))

namespace Node

def stamp : Node → Stamp
  | file _ stamp => stamp
  | directory stamp _ => stamp

def entry? (name : Text) : Node → Option Node
  | file _ _ => none
  | directory _ entries => entries.lookup name

def onEntry (name : Text) (f : Node → Node) (entries : List (Text × Node)) : List (Text × Node) :=
  entries.map fun e => if e.1 = name then (name, f e.2) else e

/-- Puts a node where names lead. The stamp of a directory tells when an entry last came or went. -/
def put (now : Nat) (new : Node) : List Text → Node → Node
  | [], _ => new
  | _ :: _, file bytes stamp => file bytes stamp
  | [name], directory stamp entries =>
    if entries.any (·.1 = name) then directory stamp (onEntry name (fun _ => new) entries)
    else directory (.clock now) (entries ++ [(name, new)])
  | name :: rest, directory stamp entries =>
    directory stamp (onEntry name (put now new rest) entries)

def remove (now : Nat) : List Text → Node → Node
  | [], node => node
  | _ :: _, file bytes stamp => file bytes stamp
  | [name], directory stamp entries =>
    if entries.any (·.1 = name) then directory (.clock now) (entries.filter (·.1 ≠ name))
    else directory stamp entries
  | name :: rest, directory stamp entries =>
    directory stamp (onEntry name (remove now rest) entries)

def setStamp (new : Stamp) : List Text → Node → Node
  | [], file bytes _ => file bytes new
  | [], directory _ entries => directory new entries
  | _ :: _, file bytes stamp => file bytes stamp
  | name :: rest, directory stamp entries =>
    directory stamp (onEntry name (setStamp new rest) entries)

mutual

/-- The files of a tree with the names that lead to them, behind the names `above`. -/
def files (above : List Text) : Node → List (List Text × ByteArray)
  | file bytes _ => [(above, bytes)]
  | directory _ entries => entryFiles above entries

def entryFiles (above : List Text) : List (Text × Node) → List (List Text × ByteArray)
  | [] => []
  | (name, node) :: rest => node.files (above ++ [name]) ++ entryFiles above rest

end

end Node

/-- A root directory and the time. -/
structure Tree where
  root : Node := .directory (.clock 0) [([], .directory (.clock 0) [])]
  now : Nat := 1

/-- Where a path leads: what is there, if anything, and the directories on the way, the nearest
first, each behind the name that was taken from it. -/
structure Spot where
  node : Option Node
  above : List (Text × Node) := []

namespace Spot

def names (s : Spot) : List Text := (s.above.map (·.1)).reverse

/-- No name in a directory is longer, in bytes. -/
def maxName : Nat := 255

/-- Follows one piece of a path. Only directories can be passed, and nothing is above the root. -/
def step (s : Spot) (piece : Text) : Except FileError Spot :=
  match s.node with
  | none => .error .notFound
  | some (.file _ _) => .error .notDirectory
  | some (.directory stamp entries) =>
    if piece = [] ∨ piece = "." then .ok s
    else if piece = ".." then
      match s.above with
      | [] => .ok s
      | (_, directory) :: above => .ok ⟨some directory, above⟩
    else if maxName < (String.ofList piece).utf8ByteSize then .error .nameTooLong
    else .ok ⟨entries.lookup piece, (piece, .directory stamp entries) :: s.above⟩

end Spot

namespace Tree

/-- No path is longer, in bytes. -/
def maxPath : Nat := 4095

def start (t : Tree) (p : Path) : Spot :=
  if p.isAbsolute then ⟨some t.root, []⟩ else ⟨t.root.entry? [], [([], t.root)]⟩

/-- Where a path leads, whether or not something is there. -/
def spot (t : Tree) (p : Path) : Except FileError Spot :=
  if p.contains (Char.ofNat 0) then .error .zeroInName
  else if p = [] then .error .notFound
  else if maxPath < (String.ofList p).utf8ByteSize then .error .nameTooLong
  else p.pieces.foldlM Spot.step (t.start p)

def lookup (t : Tree) (p : Path) : Except FileError Node :=
  match t.spot p with
  | .error e => .error e
  | .ok s =>
    match s.node with
    | some node => .ok node
    | none => .error .notFound

def read (t : Tree) (p : Path) : Except FileError Text :=
  match t.lookup p with
  | .error e => .error e
  | .ok (.directory _ _) => .error .isDirectory
  | .ok (.file bytes _) =>
    match String.fromUTF8? bytes with
    | some s => .ok s.toList
    | none => .error .notText

def stamp? (t : Tree) (p : Path) : Option Stamp := (t.lookup p).toOption.map Node.stamp

def isFile (t : Tree) (p : Path) : Bool :=
  match t.lookup p with
  | .ok (.file _ _) => true
  | _ => false

def isDirectory (t : Tree) (p : Path) : Bool :=
  match t.lookup p with
  | .ok (.directory _ _) => true
  | _ => false

def children (t : Tree) (p : Path) : Except FileError (List Text) :=
  match t.lookup p with
  | .error e => .error e
  | .ok (.file _ _) => .error .notDirectory
  | .ok (.directory _ entries) => .ok ((entries.map (·.1)).filter (· ≠ []))

def files (t : Tree) : List (List Text × ByteArray) :=
  ((t.root.entry? []).map (Node.files [])).getD []

/-! ## Changes -/

def put (t : Tree) (names : List Text) (node : Node) : Tree :=
  { root := Node.put t.now node names t.root, now := t.now + 1 }

/-- Writes a file, which must not be a directory, into a directory that is there. -/
def write (t : Tree) (p : Path) (bytes : ByteArray) : Except FileError Tree :=
  match t.spot p with
  | .error .notDirectory => .error .notDirectory
  | .error e => .error (if p.getLast? = some '/' then .isDirectory else e)
  | .ok s =>
    match s.node with
    | some (.directory _ _) => .error .isDirectory
    | _ => .ok (t.put s.names (.file bytes (.clock t.now)))

/-- The path without slashes at its end, unless it is nothing else. -/
def bare (p : Path) : Path :=
  match Text.dropEndWhile (· == '/') p with
  | [] => p.take 1
  | q => q

def makeDirectory (t : Tree) (p : Path) : Except FileError Tree :=
  match t.spot (bare p) with
  | .error e => .error e
  | .ok s =>
    match s.node with
    | some _ => .error .alreadyExists
    | none => .ok (t.put s.names (.directory (.clock t.now) []))

/-- Makes a directory and those above it that are missing, at most `depth` of them. -/
def makeDirectories (t : Tree) (p : Path) : Nat → Except FileError Tree
  | 0 => .error .notFound
  | depth + 1 =>
    if p = [] then .ok t
    else
      match t.makeDirectory p with
      | .ok t => .ok t
      | .error .notFound =>
        match p.parent? with
        | none => .error (.other "failed to create whole tree")
        | some above =>
          match t.makeDirectories above depth with
          | .error e => .error e
          | .ok t =>
            match t.makeDirectory p with
            | .ok t => .ok t
            | .error e => if t.isDirectory p then .ok t else .error e
      | .error e => if t.isDirectory p then .ok t else .error e

/-! ## Changes by hand

A change that is not possible leaves the tree as it is. -/

def touch (t : Tree) (p : Path) (number : Nat) : Tree :=
  match t.spot p with
  | .ok s => { t with root := t.root.setStamp (.chosen number) s.names }
  | .error _ => t

def remove (t : Tree) (p : Path) : Tree :=
  match t.spot p with
  | .ok s => { root := t.root.remove t.now s.names, now := t.now + 1 }
  | .error _ => t

def addDirectory (t : Tree) (p : Path) : Tree :=
  (t.makeDirectories p (p.length + 1)).toOption.getD t

def addFile (t : Tree) (p : Path) (bytes : ByteArray) (number : Nat) : Tree :=
  let t :=
    match p.parent? with
    | some above => t.addDirectory above
    | none => t
  match t.spot p with
  | .ok s => t.put s.names (.file bytes (.chosen number))
  | .error _ => t

end Tree

end ApiBook
