import ApiBook.File.Path

/-! # Command-line arguments

A command line has options and one command with arguments of its own. Options may stand before and
behind the command; one that stands behind it wins, and none may be repeated on either side.
-/

namespace ApiBook

structure Options where
  config : Path := "reference.toml"
  format : Text := "markdown"
  output : Option Path := none
  deriving DecidableEq, Repr

inductive Command where
  | index
  | type (names : List Text) (all : Bool)
  | markup
  | parse (files : List Text)
  deriving DecidableEq, Repr

structure Invocation where
  options : Options
  command : Command
  deriving DecidableEq, Repr

namespace Arguments

inductive Key where
  | config
  | format
  | output
  deriving DecidableEq, Repr

structure Side where
  config : Option Path := none
  format : Option Text := none
  output : Option Path := none
  verbose : Bool := false
  all : Bool := false
  rest : List Text := []
  deriving DecidableEq, Repr

namespace Side

/-- Sets an option that is not set. Paths must not be empty. -/
def set? (s : Side) (value : Text) : Key → Option Side
  | .config =>
    if s.config = none ∧ value ≠ [] then some { s with config := some value } else none
  | .format => if s.format = none then some { s with format := some value } else none
  | .output =>
    if s.output = none ∧ value ≠ [] then some { s with output := some value } else none

def setVerbose? (s : Side) : Option Side :=
  if s.verbose then none else some { s with verbose := true }

def setAll? (s : Side) : Option Side :=
  if s.all then none else some { s with all := true }

end Side

def Key.ofLetter? : Char → Option Key
  | 'c' => some .config
  | 'f' => some .format
  | 'o' => some .output
  | _ => none

def Key.ofName? (name : Text) : Option Key :=
  if name = "config" then some .config
  else if name = "format" then some .format
  else if name = "output" then some .output
  else none

/-- The value attached to a letter may follow an equals sign. -/
def attached : Text → Text
  | '=' :: s => s
  | s => s

/-- Reads a cluster of option letters. An option at its end waits for its value. -/
def letters? (s : Side) : Text → Option (Side × Option Key)
  | [] => some (s, none)
  | 'v' :: cs => s.setVerbose?.bind fun s => letters? s cs
  | c :: cs =>
    match Key.ofLetter? c with
    | none => none
    | some key =>
      if cs = [] then some (s, some key)
      else (s.set? (attached cs) key).map fun s => (s, none)

/-- Reads a long option. One without an attached value may wait for it. -/
def long? (allowAll : Bool) (s : Side) (arg : Text) : Option (Side × Option Key) :=
  match Text.cut? '=' arg with
  | some (name, value) =>
    (Key.ofName? name).bind fun key => (s.set? value key).map fun s => (s, none)
  | none =>
    if arg = "verbose" then s.setVerbose?.map fun s => (s, none)
    else if arg = "all" ∧ allowAll then s.setAll?.map fun s => (s, none)
    else (Key.ofName? arg).map fun key => (s, some key)

inductive Verb where
  | index
  | type
  | markup
  | parse
  deriving DecidableEq, Repr

def Verb.ofName? (name : Text) : Option Verb :=
  if name = "index" then some .index
  else if name = "type" then some .type
  else if name = "markup" then some .markup
  else if name = "parse" then some .parse
  else none

def isOption : Text → Bool
  | '-' :: _ :: _ => true
  | _ => false

def option? (allowAll : Bool) (s : Side) : Text → Option (Side × Option Key)
  | '-' :: '-' :: name => long? allowAll s name
  | '-' :: cs => letters? s cs
  | _ => none

/-- Reads the options in front of the command, the command and the arguments behind it. -/
def front? (s : Side) (waiting : Option Key) : List Text → Option (Side × Verb × List Text)
  | [] => none
  | arg :: args =>
    if arg = "--" then none
    else
      match waiting with
      | some key =>
        if isOption arg then none else (s.set? arg key).bind fun s => front? s none args
      | none =>
        if isOption arg then
          (option? false s arg).bind fun (s, waiting) => front? s waiting args
        else (Verb.ofName? arg).map fun verb => (s, verb, args)

/-- Reads the options and other arguments behind the command. Behind two hyphens there are no
options. -/
def back? (allowAll : Bool) (s : Side) (waiting : Option Key) : List Text → Option Side
  | [] => if waiting.isSome then none else some s
  | arg :: args =>
    match waiting with
    | some key =>
      if isOption arg then none
      else (s.set? arg key).bind fun s => back? allowAll s none args
    | none =>
      if arg = "--" then some { s with rest := s.rest ++ args }
      else if isOption arg then
        (option? allowAll s arg).bind fun (s, waiting) => back? allowAll s waiting args
      else back? allowAll { s with rest := s.rest ++ [arg] } none args

def command? (verb : Verb) (s : Side) : Option Command :=
  match verb with
  | .index => if s.rest = [] then some .index else none
  | .markup => if s.rest = [] then some .markup else none
  | .type => if s.rest = [] ∧ s.all = false then none else some (.type s.rest s.all)
  | .parse => if s.rest = [] then none else some (.parse s.rest)

/-- Options behind the command come first, then those in front of it, then defaults. -/
def options (front back : Side) : Options where
  config := (back.config.or front.config).getD "reference.toml".toList
  format := (back.format.or front.format).getD "markdown".toList
  output := back.output.or front.output

def parse? (args : List Text) : Option Invocation := do
  let (front, verb, args) ← front? {} none args
  let back ← back? (verb = .type) {} none args
  let command ← command? verb back
  return ⟨options front back, command⟩

end Arguments

end ApiBook
