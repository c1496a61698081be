import ApiBook.Command.Arguments
import ApiBook.Command.Report
import ApiBook.File.Search
import ApiBook.Reference

/-! # Running commands

A command prints pages or writes them into a directory, or shows what scripts document. What was
printed and written before a failure stays.
-/

namespace ApiBook

/-- How a command line ends. -/
inductive Exit where
  | success
  | failure (report : Report)
  | usage
  deriving DecidableEq, Repr

def Exit.code : Exit → Nat
  | success => 0
  | failure _ => 1
  | usage => 2

namespace Command

variable {m : Type → Type} [Monad m] [MonadFiles m]

def fail {α : Type} (report : Report) : ExceptT Report m α := throw report

/-- A file operation with a message for its failure. -/
def attempt {α : Type} (message : Text) (action : ExceptT Report m (Except FileError α)) :
    ExceptT Report m α := do
  match ← action with
  | .ok a => return a
  | .error e => fail ⟨message, [e.message]⟩

/-- Prints a page, or writes it into the output directory under a name. -/
def emit (options : Options) (format : Format) (name page : Text) : ExceptT Report m Unit := do
  match options.output with
  | none => MonadFiles.print (page ++ ['\n'])
  | some directory =>
    attempt ("failed to create output directory: " ++ directory)
      (MonadFiles.makeDirectories directory)
    let path : Path := directory.join (name ++ "." ++ format.extension)
    attempt ("failed to write " ++ path) (MonadFiles.write path page)

def start (options : Options) : ExceptT Report m Reference := do
  let view ← lookAt [options.config]
  match Reference.start view options.format options.config with
  | .ok reference => return reference
  | .error (.unknownFormat name) => fail (Report.ofError (.unknownFormat name))
  | .error e => fail (Report.within ("failed to load config " ++ options.config) e)

def ask {α : Type} (report : Error → Report) (reference : Reference)
    (question : Reference → View → Except Error α × Reference) :
    ExceptT Report m (α × Reference) := do
  let view ← lookAt reference.settings.backing
  match question reference view with
  | (.ok answer, reference) => return (answer, reference)
  | (.error e, _) => fail (report e)

def typePages (options : Options) : List Text → Reference → ExceptT Report m Unit
  | [], _ => return
  | name :: names, reference => do
    let (page, reference) ← ask (Report.within ("failed to render " ++ name)) reference
      fun s v => s.typePage v name
    emit options reference.format name page
    typePages options names reference

def filesOf (argument : Text) : ExceptT Report m (List Path) := do
  if ← MonadFiles.isFile argument then return [argument]
  else if ← MonadFiles.isDirectory argument then
    attempt ("failed to read directory: " ++ argument) (Search.scripts argument)
  else
    match PathPattern.parse argument with
    | .error e => fail ⟨"invalid glob pattern: " ++ argument, [e.message]⟩
    | .ok pattern => Search.files pattern

def parseFile (path : Path) : ExceptT Report m (Text × Json) := do
  let text ← attempt ("failed to read " ++ path) (MonadFiles.read path)
  return (path, (Script.Document.ofLines (Text.lines text)).toJson)

/-- Shows what scripts document, in the order of their paths. -/
def parseFiles (arguments : List Text) : ExceptT Report m Unit := do
  let paths := (← arguments.mapM filesOf).flatten
  let parsed ← (Search.arrange paths).mapM parseFile
  let fields := parsed.mergeSort fun a b => Text.le a.1 b.1
  MonadFiles.print ((Json.object fields).render ++ ['\n'])

def execute (i : Invocation) : ExceptT Report m Unit := do
  match i.command with
  | .parse files => parseFiles files
  | .index =>
    let reference ← start i.options
    let (page, reference) ← ask Report.ofError reference Reference.index
    emit i.options reference.format "index" page
  | .markup =>
    let reference ← start i.options
    let (page, reference) ← ask Report.ofError reference Reference.markup
    emit i.options reference.format "reference" page
  | .type names all =>
    let reference ← start i.options
    if all then
      let (names, reference) ← ask Report.ofError reference Reference.typeNames
      typePages i.options names reference
    else typePages i.options names reference

def run (args : List Text) : m Exit := do
  match Arguments.parse? args with
  | none => return .usage
  | some i =>
    match ← (execute i).run with
    | .ok () => return .success
    | .error report => return .failure report

end Command

end ApiBook
