import ApiBook.Model.Record
import ApiBook.Text.Word
import ApiBook.Xml.PlainText

/-! # Child elements

The body of a record is divided into its top-level elements. An element ends at the end tag of its
name that balances the nested elements of that name; one that never ends also ends the division.
-/

namespace ApiBook.Xml

/-- A start tag: the name of the element, what stands behind the name, and whether the tag also
ends the element. -/
structure StartTag where
  element : Text
  attributes : Text
  selfClosed : Bool
  deriving DecidableEq, Repr

def isElementChar (c : Char) : Bool := Text.isWord c || c == '.' || c == '-'

def startTag? : Text → Option (StartTag × Text)
  | '<' :: c :: cs =>
    if c.isAlpha then
      match Text.cut? '>' (cs.dropWhile isElementChar) with
      | some (attributes, rest) =>
        let element := c :: cs.takeWhile isElementChar
        if attributes.getLast? = some '/' then some (⟨element, attributes.dropLast, true⟩, rest)
        else some (⟨element, attributes, false⟩, rest)
      | none => none
    else none
  | _ => none

def firstStartTag? : Text → Option (StartTag × Text)
  | [] => none
  | c :: cs => (startTag? (c :: cs)).or (firstStartTag? cs)

def endTag (element : Text) : Text := "</" ++ element ++ ">"

/-- Whether a start tag of the element, closed or with attributes, starts here. -/
def opensAt (element : Text) (s : Text) : Bool :=
  match Text.after? ('<' :: element) s with
  | some (c :: _) => c == '>' || Text.isWhite c
  | _ => false

/-- What stands before and behind the end tag that leaves `depth` nested elements and then the
element itself. -/
def contentOf? (element : Text) (depth : Nat) : Text → Option (Text × Text)
  | [] => none
  | c :: cs =>
    match Text.after? (endTag element) (c :: cs) with
    | some rest =>
      if depth = 0 then some ([], rest)
      else (contentOf? element (depth - 1) cs).map fun (a, b) => (c :: a, b)
    | none =>
      let depth := if opensAt element (c :: cs) then depth + 1 else depth
      (contentOf? element depth cs).map fun (a, b) => (c :: a, b)

/-- The value of the attribute `name`. The flag tells whether a word character stands in front. -/
def nameAttribute? (inWord : Bool) : Text → Option Text
  | [] => none
  | c :: cs =>
    let here := if inWord then none else (Text.after? "name" (c :: cs)).bind equalsQuoted?
    match here with
    | some (value, _) => some value
    | none => nameAttribute? (Text.isWord c) cs

theorem startTag?_length_lt {s r : Text} {t : StartTag} (h : startTag? s = some (t, r)) :
    r.length < s.length := by
  unfold startTag? at h
  split at h
  · rename_i c cs
    split at h
    · split at h
      · rename_i attributes rest hc
        have hl := (List.dropWhile_suffix (l := cs) isElementChar).length_le
        rw [(Text.cut?_eq_some hc).1, List.length_append, List.length_cons] at hl
        simp only [List.length_cons]
        split at h <;> simp only [Option.some.injEq, Prod.mk.injEq] at h <;> rw [← h.2] <;> omega
      · simp at h
    · simp at h
  · simp at h

theorem firstStartTag?_length_lt {s r : Text} {t : StartTag}
    (h : firstStartTag? s = some (t, r)) : r.length < s.length := by
  induction s with
  | nil => simp [firstStartTag?] at h
  | cons c cs ih =>
    rw [firstStartTag?] at h
    cases hs : startTag? (c :: cs) with
    | some p =>
      rw [hs, Option.some_or] at h
      exact startTag?_length_lt (hs.trans h)
    | none =>
      rw [hs, Option.none_or] at h
      exact Nat.lt_succ_of_lt (ih h)

theorem contentOf?_length_le {element s a r : Text} {depth : Nat}
    (h : contentOf? element depth s = some (a, r)) : r.length ≤ s.length := by
  induction s generalizing depth a with
  | nil => simp [contentOf?] at h
  | cons c cs ih =>
    rw [contentOf?] at h
    split at h
    · rename_i rest hr
      split at h
      · simp only [Option.some.injEq, Prod.mk.injEq] at h
        rw [← h.2, Text.length_after? hr]
        omega
      · simp only [Option.map_eq_some_iff, Prod.mk.injEq] at h
        obtain ⟨⟨a', r'⟩, h, -, rfl⟩ := h
        exact Nat.le_succ_of_le (ih h)
    · simp only [Option.map_eq_some_iff, Prod.mk.injEq] at h
      obtain ⟨⟨a', r'⟩, h, -, rfl⟩ := h
      exact Nat.le_succ_of_le (ih h)

def elements (body : Text) : List Fragment :=
  match h : firstStartTag? body with
  | none => []
  | some (tag, rest) =>
    have := firstStartTag?_length_lt h
    let name := (nameAttribute? false tag.attributes).map decode
    if tag.selfClosed then
      { element := tag.element, name } :: elements rest
    else
      match h' : contentOf? tag.element 0 rest with
      | none => []
      | some (content, rest') =>
        have := contentOf?_length_le h'
        { element := tag.element, name, text := plainText content } :: elements rest'
termination_by body.length

end ApiBook.Xml
