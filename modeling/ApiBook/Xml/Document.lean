import ApiBook.Xml.Element

/-! # XML documentation files

A documentation file holds `member` elements. Each gives a record; records are sorted by target,
and those of one target keep their order.
-/

namespace ApiBook.Xml

/-- What stands before and behind the first end tag of a `member`. -/
def memberBody? : Text → Option (Text × Text)
  | [] => none
  | c :: cs =>
    match (Text.after? "</member" (c :: cs)).bind (fun s => Text.after? ">" (skipWhite s)) with
    | some rest => some ([], rest)
    | none => (memberBody? cs).map fun (a, b) => (c :: a, b)

/-- A `member` element at the start of a text, and the text behind it. -/
def member? (s : Text) : Option (Record × Text) := do
  let s ← Text.after? "<member" s
  let s ← someWhite? s
  let s ← Text.after? "name" s
  let (id, s) ← equalsQuoted? s
  let record := Record.ofId (decode id)
  let s := skipWhite s
  match Text.after? "/>" s with
  | some rest => some (record, rest)
  | none =>
    let s ← Text.after? ">" s
    let (body, rest) ← memberBody? s
    some ({ record with fragments := elements body }, rest)

def members (s : Text) : List Record := Text.collect member? s

/-- The records of a documentation file, sorted by target. -/
def records (s : Text) : List Record :=
  (members s).mergeSort fun a b => Text.le a.target b.target

end ApiBook.Xml
