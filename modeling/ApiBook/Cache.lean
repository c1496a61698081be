import ApiBook.File.Tree

/-! # Build caches

A cache keeps what was built from lists of files. Its keys hold the stamps of the files, so a
changed file gives a new key. A failed build is not kept, and a successful one drops what was built
earlier from the same files.
-/

namespace ApiBook

/-- The components and the stamp of each file; a missing file has no stamp. -/
abbrev CacheKey := List (List Path.Component × Option Stamp)

namespace CacheKey

def of (stamp? : Path → Option Stamp) (paths : List Path) : CacheKey :=
  paths.map fun p => (p.components, stamp? p)

def files (k : CacheKey) : List (List Path.Component) := k.map (·.1)

end CacheKey

/-- A built value and the number of its build. -/
structure Built (α : Type) where
  serial : Nat
  value : α

/-- Slots by key, an empty one where every build failed, and the number of builds started. -/
structure Cache (α : Type) where
  entries : List (CacheKey × Option (Built α)) := []
  builds : Nat := 0

namespace Cache

variable {α ε : Type}

def find? (c : Cache α) (k : CacheKey) : Option (Built α) :=
  ((c.entries.find? (·.1 = k)).bind (·.2))

/-- Makes an empty slot for a key that has none. -/
def reserve (k : CacheKey) (entries : List (CacheKey × Option (Built α))) :
    List (CacheKey × Option (Built α)) :=
  if entries.any (·.1 = k) then entries else entries ++ [(k, none)]

def store (k : CacheKey) (b : Built α) (entries : List (CacheKey × Option (Built α))) :
    List (CacheKey × Option (Built α)) :=
  entries.map fun e => if e.1 = k then (k, some b) else e

/-- Drops the slots of the same files under other keys. -/
def evict (k : CacheKey) (entries : List (CacheKey × Option (Built α))) :
    List (CacheKey × Option (Built α)) :=
  entries.filter fun e => e.1 = k ∨ CacheKey.files e.1 ≠ CacheKey.files k

/-- Takes in what a build gave. A failure leaves an empty slot. -/
def record (c : Cache α) (k : CacheKey) : Except ε α → Except ε (Built α) × Cache α
  | .error e => (.error e, { entries := reserve k c.entries, builds := c.builds + 1 })
  | .ok value =>
    let b : Built α := ⟨c.builds + 1, value⟩
    (.ok b, { entries := evict k (store k b (reserve k c.entries)), builds := c.builds + 1 })

/-- What is kept for a key, or else what building gives, in any monad that builds. -/
def getOrBuildM {m : Type → Type} [Monad m] (c : Cache α) (k : CacheKey)
    (build : Unit → m (Except ε α)) : m (Except ε (Built α) × Cache α) :=
  match c.find? k with
  | some b => pure (.ok b, c)
  | none => do return c.record k (← build ())

def getOrBuild (c : Cache α) (k : CacheKey) (build : Unit → Except ε α) :
    Except ε (Built α) × Cache α :=
  Id.run (c.getOrBuildM k fun u => pure (build u))

end Cache

end ApiBook
