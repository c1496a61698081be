import ApiBook.File.View

/-! # File access

The operations on files that commands need, for any monad that has them. A session runs them on a
file tree and keeps what is printed.
-/

namespace ApiBook

/-- Access to files and to the standard output. -/
class MonadFiles (m : Type → Type) where
  read : Path → m (Except FileError Text)
  stamp? : Path → m (Option Stamp)
  isFile : Path → m Bool
  isDirectory : Path → m Bool
  children : Path → m (Except FileError (List Text))
  makeDirectories : Path → m (Except FileError Unit)
  write : Path → Text → m (Except FileError Unit)
  print : Text → m Unit

instance {m n : Type → Type} [MonadLift m n] [MonadFiles m] : MonadFiles n where
  read p := liftM (MonadFiles.read p : m _)
  stamp? p := liftM (MonadFiles.stamp? p : m _)
  isFile p := liftM (MonadFiles.isFile p : m _)
  isDirectory p := liftM (MonadFiles.isDirectory p : m _)
  children p := liftM (MonadFiles.children p : m _)
  makeDirectories p := liftM (MonadFiles.makeDirectories p : m _)
  write p text := liftM (MonadFiles.write p text : m _)
  print text := liftM (MonadFiles.print text : m _)

/-- The view of some paths as the files are now. -/
def lookAt {m : Type → Type} [Monad m] [MonadFiles m] (paths : List Path) : m View := do
  let seen ← paths.mapM fun path => do
    let content ← MonadFiles.read path
    let stamp? ← MonadFiles.stamp? path
    return ⟨path, content, stamp?⟩
  return View.ofSightings seen

structure Session where
  tree : Tree
  printed : Text := []

namespace Session

/-- Applies a change to the tree, which stays as it is if the change fails. -/
def change (f : Tree → Except FileError Tree) : StateM Session (Except FileError Unit) :=
  fun s =>
    match f s.tree with
    | .ok tree => (.ok (), { s with tree })
    | .error e => (.error e, s)

instance : MonadFiles (StateM Session) where
  read p := fun s => (s.tree.read p, s)
  stamp? p := fun s => (s.tree.stamp? p, s)
  isFile p := fun s => (s.tree.isFile p, s)
  isDirectory p := fun s => (s.tree.isDirectory p, s)
  children p := fun s => (s.tree.children p, s)
  makeDirectories p := change fun t => t.makeDirectories p (p.length + 1)
  write p text := change fun t => t.write p (String.ofList text).toUTF8
  print text := fun s => ((), { s with printed := s.printed ++ text })

end Session

end ApiBook
