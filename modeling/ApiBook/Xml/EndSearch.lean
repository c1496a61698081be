import ApiBook.Except
import ApiBook.Text.Offset
import ApiBook.Xml.Element

/-! # Division in place

The division of a body into elements as loops over offsets into the body. Nothing is read but slices
between two offsets, and the end of an element is searched for with the number of elements that are
open. A slice that does not exist, and an end tag more than there are open elements, are faults.
-/

namespace ApiBook.Xml

inductive Fault
  /-- No text stands between the two offsets. -/
  | slice (i j : Nat)
  /-- No element is open that the end tag could close. -/
  | depth
  deriving DecidableEq, Repr

def slice (body : Text) (i j : Nat) : Except Fault Text :=
  match Text.slice? i j body with
  | some s => .ok s
  | none => .error (.slice i j)

/-- Whether the name of a start tag, closed or with attributes, can end in front of the text. -/
def endsName : Text → Bool
  | [] => false
  | c :: _ => c == '>' || Text.isWhite c

/-- The first offset, from one on, at which an end tag of the element starts. -/
def closing? (body element : Text) (i : Nat) : Except Fault (Option Nat) := do
  let rest ← slice body i body.size
  return (Text.offset? (endTag element) rest).map (i + ·)

def opening? (body element : Text) (i j : Nat) : Except Fault (Option Nat) := do
  let before ← slice body i j
  ((Text.offsets ('<' :: element) before).map (i + ·)).findM? fun k => do
    return endsName (← slice body (k + Text.size ('<' :: element)) body.size)

/-- Where the search for an end tag stands: the number of open elements, and the offset. -/
structure EndSearch where
  depth : Nat
  offset : Nat
  deriving DecidableEq, Repr

namespace EndSearch

inductive Turn
  | next (s : EndSearch)
  | found (i : Nat)
  | missing
  deriving DecidableEq, Repr

/-- Goes behind a start tag of the element. -/
def enter (s : EndSearch) (element : Text) (i : Nat) : EndSearch :=
  ⟨s.depth + 1, i + Text.size ('<' :: element)⟩

/-- Goes behind an end tag of the element, unless it closes the last open element. -/
def leave (s : EndSearch) (element : Text) (i : Nat) : Except Fault Turn :=
  if s.depth = 0 then .error .depth
  else if s.depth = 1 then .ok (.found i)
  else .ok (.next ⟨s.depth - 1, i + Text.size (endTag element)⟩)

/-- Takes the next end tag of the element, or the first start tag in front of it. -/
def turn (body element : Text) (s : EndSearch) : Except Fault Turn := do
  match ← closing? body element s.offset with
  | none => return .missing
  | some j =>
    match ← opening? body element s.offset j with
    | some i => return .next (s.enter element i)
    | none => s.leave element j

end EndSearch

variable {body element rest : Text} {i j : Nat}

@[simp] theorem slice_eq_ok_iff : slice body i j = .ok rest ↔ Text.slice? i j body = some rest := by
  unfold slice
  split
  · rename_i h
    simp [h]
  · rename_i h
    simp [h]

theorem le_of_slice (h : slice body i j = .ok rest) : i ≤ j := by
  obtain ⟨a, b, -, rfl, hsize⟩ := Text.slice?_eq_some_iff.1 (slice_eq_ok_iff.1 h)
  rw [Text.size_append] at hsize
  omega

theorem lt_size_of_slice (h : slice body i body.size = .ok rest) (hr : rest ≠ []) :
    i < body.size := by
  obtain ⟨a, b, -, rfl, hsize⟩ := Text.slice?_eq_some_iff.1 (slice_eq_ok_iff.1 h)
  have := Text.size_pos hr
  rw [Text.size_append] at hsize
  omega

theorem lt_size_of_closing? (h : closing? body element i = .ok (some j)) :
    i ≤ j ∧ i < body.size := by
  rw [closing?] at h
  obtain ⟨rest, hr, h⟩ := bind_eq_ok_iff.1 h
  obtain ⟨k, hk, rfl⟩ := Option.map_eq_some_iff.1 (Except.ok.inj h)
  obtain ⟨⟨a, b⟩, hk, -⟩ := Option.map_eq_some_iff.1 hk
  refine ⟨Nat.le_add_right i k, lt_size_of_slice hr ?_⟩
  rw [Text.around?_eq_some hk]
  simp [endTag]

theorem le_of_opening? {k : Nat} (h : opening? body element i j = .ok (some k)) : i ≤ k := by
  rw [opening?] at h
  obtain ⟨before, -, h⟩ := bind_eq_ok_iff.1 h
  obtain ⟨k, -, rfl⟩ := List.mem_map.1 (mem_of_findM? h)
  exact Nat.le_add_right i k

namespace EndSearch

variable {s s' : EndSearch}

theorem next_of_leave (h : s.leave element i = .ok (.next s')) :
    s' = ⟨s.depth - 1, i + Text.size (endTag element)⟩ := by
  unfold leave at h
  split at h
  · exact nomatch h
  · split at h
    · exact nomatch h
    · cases h
      rfl

theorem turn_advances (h : s.turn body element = .ok (.next s')) :
    s.offset < s'.offset ∧ s.offset < body.size := by
  rw [turn] at h
  obtain ⟨o, hc, h⟩ := bind_eq_ok_iff.1 h
  cases o with
  | none => cases h
  | some j =>
    obtain ⟨hj, hlt⟩ := lt_size_of_closing? hc
    refine ⟨?_, hlt⟩
    obtain ⟨o, ho, h⟩ := bind_eq_ok_iff.1 h
    cases o with
    | none =>
      have := Text.size_pos (s := endTag element) (by simp [endTag])
      rw [next_of_leave h]
      exact Nat.lt_of_le_of_lt hj (Nat.lt_add_of_pos_right this)
    | some i =>
      obtain rfl : s.enter element i = s' := Turn.next.inj (Except.ok.inj h)
      have := Text.size_pos (List.cons_ne_nil '<' element)
      exact Nat.lt_of_le_of_lt (le_of_opening? ho) (Nat.lt_add_of_pos_right this)

def run (body element : Text) (s : EndSearch) : Except Fault (Option Nat) :=
  match _h : s.turn body element with
  | .error e => .error e
  | .ok .missing => .ok none
  | .ok (.found i) => .ok (some i)
  | .ok (.next s') => s'.run body element
termination_by body.size - s.offset
decreasing_by
  have := turn_advances ‹_›
  omega

end EndSearch

/-- The offset of the end tag of an element whose start tag ends at an offset. -/
def endOffset? (body element : Text) (start : Nat) : Except Fault (Option Nat) :=
  EndSearch.run body element ⟨1, start⟩

/-- The element whose start tag ends at an offset, unless its end is missing, and the offset behind
it. -/
def elementBehind? (body : Text) (tag : StartTag) (start : Nat) :
    Except Fault (Option (Fragment × Nat)) := do
  let name := (nameAttribute? false tag.attributes).map decode
  if tag.selfClosed then return some ({ element := tag.element, name }, start)
  else
    match ← endOffset? body tag.element start with
    | none => return none
    | some i =>
      let content ← slice body start i
      return some ({ element := tag.element, name, text := plainText content },
        i + Text.size (endTag tag.element))

def elementFrom? (body : Text) (i : Nat) : Except Fault (Option (Fragment × Nat)) := do
  let rest ← slice body i body.size
  match firstStartTag? rest with
  | none => return none
  | some (tag, behind) => elementBehind? body tag (i + (rest.size - behind.size))

theorem startTag?_suffix {s r : Text} {t : StartTag} (h : startTag? s = some (t, r)) : r <:+ s := by
  unfold startTag? at h
  split at h
  · rename_i c cs
    split at h
    · split at h
      · rename_i attributes rest hc
        have hcut : rest <:+ cs.dropWhile isElementChar :=
          ⟨attributes ++ ['>'], by simp [(Text.cut?_eq_some hc).1]⟩
        have hrest : rest <:+ '<' :: c :: cs :=
          hcut.trans ((List.dropWhile_suffix isElementChar).trans ⟨['<', c], rfl⟩)
        split at h <;> cases h <;> exact hrest
      · exact nomatch h
    · exact nomatch h
  · exact nomatch h

theorem firstStartTag?_suffix {s r : Text} {t : StartTag} (h : firstStartTag? s = some (t, r)) :
    r <:+ s := by
  induction s with
  | nil => exact nomatch h
  | cons c cs ih =>
    rw [firstStartTag?] at h
    cases hs : startTag? (c :: cs) with
    | none =>
      rw [hs, Option.none_or] at h
      exact (ih h).trans (List.suffix_cons c cs)
    | some p =>
      rw [hs, Option.some_or] at h
      cases h
      exact startTag?_suffix hs

theorem size_lt_of_firstStartTag? {s r : Text} {t : StartTag}
    (h : firstStartTag? s = some (t, r)) : r.size < s.size := by
  obtain ⟨x, rfl⟩ := firstStartTag?_suffix h
  have hlen := firstStartTag?_length_lt h
  have hx : x ≠ [] := by
    rintro rfl
    exact Nat.lt_irrefl _ hlen
  have := Text.size_pos hx
  rw [Text.size_append]
  omega

theorem le_of_elementBehind? {f : Fragment} {tag : StartTag}
    (h : elementBehind? body tag i = .ok (some (f, j))) : i ≤ j := by
  unfold elementBehind? at h
  split at h
  · cases h
    exact Nat.le_refl i
  · obtain ⟨o, -, h⟩ := bind_eq_ok_iff.1 h
    cases o with
    | none => cases h
    | some k =>
      obtain ⟨content, hc, h⟩ := bind_eq_ok_iff.1 h
      cases h
      exact Nat.le_trans (le_of_slice hc) (Nat.le_add_right k _)

theorem elementFrom?_advances {f : Fragment} (h : elementFrom? body i = .ok (some (f, j))) :
    i < j ∧ i < body.size := by
  rw [elementFrom?] at h
  obtain ⟨rest, hr, h⟩ := bind_eq_ok_iff.1 h
  split at h
  · cases h
  · rename_i tag behind ht
    have hlt := size_lt_of_firstStartTag? ht
    have hi : i < body.size := lt_size_of_slice hr (by rintro rfl; exact absurd ht nofun)
    have hj : i + (rest.size - behind.size) ≤ j := le_of_elementBehind? h
    omega

def elementsFrom (body : Text) (i : Nat) : Except Fault (List Fragment) :=
  match _h : elementFrom? body i with
  | .error e => .error e
  | .ok none => .ok []
  | .ok (some (f, j)) => (elementsFrom body j).map (f :: ·)
termination_by body.size - i
decreasing_by
  have := elementFrom?_advances ‹_›
  omega

end ApiBook.Xml
