import ApiBook.Xml.Entity
import ApiBook.Xml.Token

/-! # Plain text of markup

Inline markup becomes plain text: references become the short names they refer to, `para` tags
break paragraphs, other tags vanish and entities are decoded. Paragraphs are then trimmed, their
gaps shrink to single spaces, and empty ones go.
-/

namespace ApiBook.Xml

/-- The simple name in `Ns.Type.Member(System.String)`. -/
def shortName (reference : Text) : Text :=
  Text.afterLast '.' (Text.upTo '(' reference)

/-- A reference may start with a capital and a colon that give its kind. -/
def dropKind : Text → Text
  | c :: ':' :: s => if c.isUpper then s else c :: ':' :: s
  | s => s

/-- A tag of one attribute without content, behind its name: the value of the attribute and the
text behind the tag. -/
def emptyTag? (attributes : List Text) (s : Text) : Option (Text × Text) := do
  let s ← someWhite? s
  let s ← afterOneOf? attributes s
  let (value, s) ← equalsQuoted? s
  let s ← Text.after? "/>" (skipWhite s)
  return (value, s)

/-- `<see cref="..."/>` and its kin, with the short name for it. -/
def reference? (s : Text) : Option (Text × Text) := do
  let s ← Text.after? "<see" s
  let s := (Text.after? "also" s).getD s
  let (value, s) ← emptyTag? ["cref", "langword", "href"] s
  return (shortName (dropKind value), s)

def paramReference? (s : Text) : Option (Text × Text) := do
  let s ← afterOneOf? ["<paramref", "<typeparamref"] s
  emptyTag? ["name"] s

def dropSlash : Text → Text
  | '/' :: s => s
  | s => s

def paraTag? : Text → Option (Text × Text)
  | '<' :: s => do
    let s ← Text.after? "para" (dropSlash s)
    let s ← Text.after? ">" (dropSlash (skipWhite s))
    return ("\n\n", s)
  | _ => none

def anyTag? : Text → Option (Text × Text)
  | '<' :: s =>
    match dropSlash s with
    | c :: s => if c.isAlpha then (Text.cut? '>' s).map fun (_, rest) => ([], rest) else none
    | [] => none
  | _ => none

/-- Text without markup, still with the white space of its source. -/
def flatten (s : Text) : Text :=
  Text.substitute reference? s
    |> Text.substitute paramReference?
    |> Text.substitute paraTag?
    |> Text.substitute anyTag?
    |> decode

def isGap (c : Char) : Bool := Text.isBlank c || c == '\n'

/-- Shrinks every gap to one space. The flag tells whether a gap has begun. -/
def shrinkGaps (inGap : Bool) : Text → Text
  | [] => []
  | c :: cs =>
    if isGap c then
      if inGap then shrinkGaps true cs else ' ' :: shrinkGaps true cs
    else c :: shrinkGaps false cs

/-- Text as paragraphs without gaps, two line feeds between neighbours. -/
def normalize (s : Text) : Text :=
  ((Text.paragraphs s).map fun p => shrinkGaps false (Text.trim p)).filter (· ≠ [])
    |> List.intercalate ['\n', '\n']

def plainText (s : Text) : Text := normalize (flatten s)

end ApiBook.Xml
