import ApiBook.Proofs.Text.Classes
import ApiBook.Proofs.Text.Spans
import ApiBook.Proofs.Xml.Reference
import ApiBook.Xml.PlainText

/-! # Reading printed elements

A printed element is read back with the name, the attribute and the plain text it was printed
from, whatever stands behind it.
-/

namespace ApiBook.Xml

variable {c : Char} {e s cs rest rest' attrs content : Text} {f : Fragment} {fs : List Fragment}
  {tag : StartTag}

section Names

theorem isWhite_of_isElementChar (h : isElementChar c = true) : Text.isWhite c = false :=
  Text.isWhite_of_isWord_or rfl rfl h

theorem isElementChar_of_isAlpha (h : c.isAlpha = true) : isElementChar c = true := by
  rw [isElementChar, Text.isWord_of_isAlpha h]
  rfl

theorem isElementChar_of_mem (he : IsElementName e) (hc : c ∈ e) : isElementChar c = true := by
  cases e with
  | nil => exact he.elim
  | cons d e =>
    rcases List.mem_cons.1 hc with rfl | hc
    · exact isElementChar_of_isAlpha he.1
    · exact List.all_eq_true.1 he.2 c hc

end Names

section PlainText

theorem onlyAt_reference? : Text.OnlyAt '<' reference? := fun c cs h => by
  have ha : Text.after? "<see" (c :: cs) = none := Text.after?_cons_of_ne h
  rw [reference?, ha]
  rfl

theorem onlyAt_paramReference? : Text.OnlyAt '<' paramReference? := fun c cs h => by
  have ha : afterOneOf? ["<paramref", "<typeparamref"] (c :: cs) = none :=
    List.findSome?_eq_none_iff.2 fun k hk => by
      simp only [List.mem_cons, List.not_mem_nil, or_false] at hk
      rcases hk with rfl | rfl <;> exact Text.after?_cons_of_ne h
  rw [paramReference?, ha]
  rfl

theorem onlyAt_paraTag? : Text.OnlyAt '<' paraTag? := fun c cs h => by
  unfold paraTag?
  split
  · rename_i hc
    exact absurd (List.cons.inj hc).1 h
  · rfl

theorem onlyAt_anyTag? : Text.OnlyAt '<' anyTag? := fun c cs h => by
  unfold anyTag?
  split
  · rename_i hc
    exact absurd (List.cons.inj hc).1 h
  · rfl

@[simp] theorem plainText_escape (s : Text) : plainText (escape s) = normalize s := by
  have h : '<' ∉ escape s := notMem_escape rfl (by decide) s
  rw [plainText, flatten, onlyAt_reference?.substitute_eq_self h,
    onlyAt_paramReference?.substitute_eq_self h, onlyAt_paraTag?.substitute_eq_self h,
    onlyAt_anyTag?.substitute_eq_self h, decode_escape]

end PlainText

section Tags

theorem startTag?_append (he : IsElementName e) (ha : '>' ∉ attrs)
    (hl : attrs.getLast? ≠ some '/') (rest : Text)
    (hh : Text.StartsNot isElementChar (attrs ++ '>' :: rest)) :
    startTag? ('<' :: (e ++ (attrs ++ '>' :: rest))) = some (⟨e, attrs, false⟩, rest) := by
  cases e with
  | nil => exact he.elim
  | cons c cs =>
    have hcs := List.all_eq_true.1 he.2
    rw [List.cons_append, startTag?, if_pos he.1, Text.dropWhile_append hcs hh,
      Text.takeWhile_append hcs hh, Text.cut?_append ha]
    exact if_neg hl

@[simp] theorem printName_some (n : Text) :
    printName (some n) =
      ' ' :: 'n' :: 'a' :: 'm' :: 'e' :: '=' :: '"' :: (escape n ++ ['"']) := by
  simp [printName]

theorem firstStartTag?_of_some (h : startTag? (c :: cs) = some (tag, rest)) :
    firstStartTag? (c :: cs) = some (tag, rest) := by
  rw [firstStartTag?, h, Option.some_or]

theorem isElementName_of_startTag? {tag : StartTag} (h : startTag? s = some (tag, r)) :
    IsElementName tag.element := by
  unfold startTag? at h
  split at h
  · rename_i c cs
    split at h
    · rename_i hc
      split at h
      · have hname : IsElementName (c :: cs.takeWhile isElementChar) :=
          ⟨hc, List.all_takeWhile⟩
        split at h <;> cases h <;> exact hname
      · exact nomatch h
    · exact nomatch h
  · exact nomatch h

theorem isElementName_of_firstStartTag? {tag : StartTag} (h : firstStartTag? s = some (tag, r)) :
    IsElementName tag.element := by
  induction s with
  | nil => exact nomatch h
  | cons c s ih =>
    rw [firstStartTag?] at h
    cases hs : startTag? (c :: s) with
    | none =>
      rw [hs, Option.none_or] at h
      exact ih h
    | some p =>
      rw [hs, Option.some_or] at h
      cases h
      exact isElementName_of_startTag? hs

theorem nameAttribute?_of_some {v : Text}
    (h : (Text.after? "name" (c :: cs)).bind equalsQuoted? = some (v, rest)) :
    nameAttribute? false (c :: cs) = some v := by
  simp only [nameAttribute?, Bool.false_eq_true, if_false, h]

@[simp] theorem nameAttribute?_printName (name : Option Text) :
    (nameAttribute? false (printName name)).map decode = name := by
  cases name with
  | none => rfl
  | some n =>
    have hq : '"' ∉ escape n := notMem_escape rfl (by decide) n
    have hv : equalsQuoted? ('=' :: '"' :: (escape n ++ ['"'])) = some (escape n, []) :=
      Text.cut?_append hq
    have h : nameAttribute? false ('n' :: 'a' :: 'm' :: 'e' :: '=' :: '"' :: (escape n ++ ['"'])) =
        some (escape n) := nameAttribute?_of_some hv
    have hs : nameAttribute? false (printName (some n)) = some (escape n) := by
      rw [printName_some]
      exact h
    rw [hs, Option.map_some, decode_escape]

theorem contentOf?_of_some (h : Text.after? (endTag e) (c :: cs) = some rest) :
    contentOf? e 0 (c :: cs) = some ([], rest) := by
  rw [contentOf?, h]
  exact if_pos rfl

theorem contentOf?_of_none (h : Text.after? (endTag e) (c :: s) = none) (d : Nat) :
    contentOf? e d (c :: s) =
      (contentOf? e (if opensAt e (c :: s) then d + 1 else d) s).map fun p => (c :: p.1, p.2) := by
  rw [contentOf?, h]

theorem contentOf?_cons_of_ne {d : Nat} (hc : c ≠ '<') (s : Text) :
    contentOf? e d (c :: s) = (contentOf? e d s).map fun p => (c :: p.1, p.2) := by
  have ho : opensAt e (c :: s) = false := by rw [opensAt, Text.after?_cons_of_ne hc]
  rw [contentOf?_of_none (Text.after?_cons_of_ne hc), ho, if_neg Bool.false_ne_true]

theorem contentOf?_append (hs : '<' ∉ s) :
    contentOf? e 0 (s ++ (endTag e ++ rest)) = some (s, rest) := by
  induction s with
  | nil => exact contentOf?_of_some (Text.after?_append (endTag e) rest)
  | cons c s ih =>
    have hc : c ≠ '<' := (List.ne_of_not_mem_cons hs).symm
    rw [List.cons_append, contentOf?_cons_of_ne hc, ih (List.not_mem_of_not_mem_cons hs),
      Option.map_some]

theorem elements_of_none (h : firstStartTag? s = none) : elements s = [] := by
  rw [elements]
  split
  · rfl
  · rename_i h'
    rw [h] at h'
    cases h'

theorem elements_of_some (h : firstStartTag? s = some (tag, rest)) (hs : tag.selfClosed = false)
    (hc : contentOf? tag.element 0 rest = some (content, rest')) :
    elements s = ⟨tag.element, (nameAttribute? false tag.attributes).map decode,
      plainText content⟩ :: elements rest' := by
  rw [elements]
  split
  · rename_i h'
    rw [h] at h'
    cases h'
  · rename_i h'
    rw [h] at h'
    cases h'
    simp only [hs, Bool.false_eq_true, if_false]
    split
    · rename_i hc'
      rw [hc] at hc'
      cases hc'
    · rename_i hc'
      rw [hc] at hc'
      cases hc'
      rfl

theorem elements_of_selfClosed (h : firstStartTag? s = some (tag, rest))
    (hs : tag.selfClosed = true) : elements s =
      ⟨tag.element, (nameAttribute? false tag.attributes).map decode, []⟩ :: elements rest := by
  rw [elements]
  split
  · rename_i h'
    rw [h] at h'
    cases h'
  · rename_i h'
    rw [h] at h'
    cases h'
    simp only [hs, if_true]

theorem elements_of_unclosed (h : firstStartTag? s = some (tag, rest))
    (hs : tag.selfClosed = false) (hc : contentOf? tag.element 0 rest = none) :
    elements s = [] := by
  rw [elements]
  split
  · rfl
  · rename_i h'
    rw [h] at h'
    cases h'
    simp only [hs, Bool.false_eq_true, if_false]
    split
    · rfl
    · rename_i hc'
      rw [hc] at hc'
      cases hc'

theorem elements_congr (h : firstStartTag? s = firstStartTag? cs) : elements s = elements cs := by
  cases hf : firstStartTag? cs with
  | none => rw [elements_of_none hf, elements_of_none (h.trans hf)]
  | some p =>
    obtain ⟨tag, rest⟩ := p
    cases hs : tag.selfClosed with
    | true => rw [elements_of_selfClosed hf hs, elements_of_selfClosed (h.trans hf) hs]
    | false =>
      cases hc : contentOf? tag.element 0 rest with
      | none => rw [elements_of_unclosed hf hs hc, elements_of_unclosed (h.trans hf) hs hc]
      | some p => rw [elements_of_some hf hs hc, elements_of_some (h.trans hf) hs hc]

theorem startsNot_printName_append (name : Option Text) (rest : Text) :
    Text.StartsNot isElementChar (printName name ++ '>' :: rest) := by
  cases name with
  | none => exact .cons rfl _
  | some n =>
    rw [printName_some]
    exact .cons rfl _

theorem notMem_printName {a : Char} (ha : a = '<' ∨ a = '>') (name : Option Text) :
    a ∉ printName name := by
  cases name with
  | none => exact List.not_mem_nil
  | some n =>
    rcases ha with rfl | rfl
    · simp [notMem_escape (a := '<') rfl (by decide) n]
    · simp [notMem_escape (a := '>') rfl (by decide) n]

theorem getLast?_printName (name : Option Text) : (printName name).getLast? ≠ some '/' := by
  cases name with
  | none => simp [printName]
  | some n => simp [List.getLast?_cons]

end Tags

def normalizeText (f : Fragment) : Fragment := { f with text := normalize f.text }

theorem printFragment_append (f : Fragment) (rest : Text) :
    printFragment f ++ rest = '<' :: (f.element ++ (printName f.name ++ '>' ::
      (escape f.text ++ (endTag f.element ++ rest)))) := by
  simp [printFragment, endTag]

/-- Printed elements are read one by one. -/
theorem elements_printFragment_append (hf : IsElementName f.element) (rest : Text) :
    elements (printFragment f ++ rest) = normalizeText f :: elements rest := by
  have hs := startTag?_append hf (notMem_printName (.inr rfl) f.name) (getLast?_printName f.name)
    (escape f.text ++ (endTag f.element ++ rest)) (startsNot_printName_append f.name _)
  have hc : contentOf? f.element 0 (escape f.text ++ (endTag f.element ++ rest)) =
      some (escape f.text, rest) := contentOf?_append (notMem_escape rfl (by decide) f.text)
  have hfirst := firstStartTag?_of_some hs
  rw [printFragment_append, elements_of_some hfirst rfl hc, nameAttribute?_printName,
    plainText_escape, normalizeText]

theorem elements_flatMap_printFragment (h : ∀ f ∈ fs, IsElementName f.element) :
    elements (fs.flatMap printFragment) = fs.map normalizeText := by
  induction fs with
  | nil => exact elements_of_none rfl
  | cons f fs ih =>
    rw [List.flatMap_cons, elements_printFragment_append (h f List.mem_cons_self),
      ih fun g hg => h g (List.mem_cons_of_mem f hg), List.map_cons]

end ApiBook.Xml
