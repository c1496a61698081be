import ApiBook.Command.Run

/-! # The program

Commands on the real file system.
-/

namespace ApiBook

/-- The reason that the operating system gives for a failure. -/
def FileError.ofIO (e : IO.Error) : FileError :=
  match e with
  | .noFileOrDirectory .. => .notFound
  | .noSuchThing .. => .notFound
  | .alreadyExists .. => .alreadyExists
  | .inappropriateType _ 20 _ => .notDirectory
  | .inappropriateType _ 21 _ => .isDirectory
  | _ => .other e.toString.toList

def attemptIO {α : Type} (action : IO α) : IO (Except FileError α) := do
  match ← action.toBaseIO with
  | .ok a => return .ok a
  | .error e => return .error (FileError.ofIO e)

def readText (path : String) : IO (Except FileError Text) := do
  match ← attemptIO (IO.FS.readBinFile path) with
  | .error e => return .error e
  | .ok bytes =>
    match String.fromUTF8? bytes with
    | some s => return .ok s.toList
    | none => return .error .notText

/-- The modification time at a path, on a clock of nanoseconds. -/
def modified? (path : String) : IO (Option Stamp) := do
  match ← attemptIO (IO.FS.realPath path >>= fun p => p.metadata) with
  | .ok data =>
    return some (.clock (data.modified.sec.toNat * 1000000000 + data.modified.nsec.toNat))
  | .error _ => return none

def isDirectoryAt (path : String) : IO Bool := do
  match ← attemptIO (IO.FS.realPath path >>= fun p => p.isDir) with
  | .ok b => return b
  | .error _ => return false

def isFileAt (path : String) : IO Bool := do
  match ← attemptIO (IO.FS.realPath path >>= fun p => p.pathExists) with
  | .ok true => return !(← isDirectoryAt path)
  | _ => return false

def namesIn (path : String) : IO (Except FileError (List Text)) :=
  attemptIO do
    let entries ← IO.FS.realPath path >>= fun p => p.readDir
    return entries.toList.map fun e => e.fileName.toList

instance : MonadFiles IO where
  read p := readText (String.ofList p)
  stamp? p := modified? (String.ofList p)
  isFile p := isFileAt (String.ofList p)
  isDirectory p := isDirectoryAt (String.ofList p)
  children p := namesIn (String.ofList p)
  makeDirectories p := attemptIO (IO.FS.createDirAll (String.ofList p))
  write p text := attemptIO (IO.FS.writeFile (String.ofList p) (String.ofList text))
  print text := IO.print (String.ofList text)

end ApiBook

open ApiBook in
def main (args : List String) : IO UInt32 := do
  let exit ← (Command.run (args.map String.toList) : IO Exit)
  match exit with
  | .success => pure ()
  | .failure report => IO.eprintln (String.ofList report.render)
  | .usage =>
    IO.eprintln "usage: [-c FILE] [-f FORMAT] [-o DIR] [-v]"
    IO.eprintln "       index | type NAME... | type --all | markup | parse FILE..."
  return exit.code.toUInt32
