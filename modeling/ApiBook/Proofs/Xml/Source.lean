import ApiBook.Proofs.Xml.Document

/-! # Members as they are written

A file is first divided into ids, names and contents; decoding and flattening these pieces gives
its records.
-/

namespace ApiBook.Xml

variable {s rest : Text}

/-- An element with its `name` and its inside as they are written. -/
structure SourceElement where
  element : Text
  name : Option Text
  content : Text
  deriving DecidableEq, Repr

def SourceElement.fragment (e : SourceElement) : Fragment :=
  { element := e.element, name := e.name.map decode, text := plainText e.content }

def sourceElement? (body : Text) : Option (SourceElement × Text) := do
  let (tag, rest) ← firstStartTag? body
  let name := nameAttribute? false tag.attributes
  if tag.selfClosed then some (⟨tag.element, name, []⟩, rest)
  else
    (contentOf? tag.element 0 rest).map fun (content, rest) =>
      (⟨tag.element, name, content⟩, rest)

@[simp] theorem plainText_nil : plainText [] = [] := plainText_escape []

theorem sourceElement?_eq_some {x : SourceElement} (h : sourceElement? s = some (x, rest)) :
    rest.length < s.length ∧ elements s = x.fragment :: elements rest := by
  obtain ⟨⟨tag, s'⟩, hf, h⟩ := Option.bind_eq_some_iff.1 h
  have hlt := firstStartTag?_length_lt hf
  cases hc : tag.selfClosed with
  | true =>
    simp only [hc, if_true, Option.some.injEq, Prod.mk.injEq] at h
    obtain ⟨rfl, rfl⟩ := h
    simp [hlt, elements_of_selfClosed hf hc, SourceElement.fragment]
  | false =>
    simp only [hc, Bool.false_eq_true, if_false, Option.map_eq_some_iff, Prod.mk.injEq] at h
    obtain ⟨⟨content, rest'⟩, hcontent, rfl, rfl⟩ := h
    have hle := contentOf?_length_le hcontent
    exact ⟨Nat.lt_of_le_of_lt hle hlt, elements_of_some hf hc hcontent⟩

theorem elements_of_sourceElement?_eq_none (h : sourceElement? s = none) : elements s = [] := by
  rw [sourceElement?, Option.bind_eq_bind, Option.bind_eq_none_iff] at h
  cases hf : firstStartTag? s with
  | none => exact elements_of_none hf
  | some p =>
    have h := h p hf
    cases hc : p.1.selfClosed with
    | true => simp [hc] at h
    | false =>
      refine elements_of_unclosed hf hc ?_
      simpa [hc] using h

def sourceElements (body : Text) : List SourceElement :=
  match h : sourceElement? body with
  | none => []
  | some (x, rest) =>
    have := (sourceElement?_eq_some h).1
    x :: sourceElements rest
termination_by body.length

theorem sourceElements_of_none (h : sourceElement? s = none) : sourceElements s = [] := by
  rw [sourceElements]
  split
  · rfl
  · rename_i h'
    rw [h] at h'
    cases h'

theorem sourceElements_of_some {x : SourceElement} (h : sourceElement? s = some (x, rest)) :
    sourceElements s = x :: sourceElements rest := by
  rw [sourceElements]
  split
  · rename_i h'
    rw [h] at h'
    cases h'
  · rename_i h'
    rw [h] at h'
    cases h'
    rfl

theorem elements_eq_map (s : Text) :
    elements s = (sourceElements s).map SourceElement.fragment := by
  induction hk : s.length using Nat.strongRecOn generalizing s with
  | ind k ih =>
    cases h : sourceElement? s with
    | none => rw [elements_of_sourceElement?_eq_none h, sourceElements_of_none h, List.map_nil]
    | some p =>
      obtain ⟨hlt, he⟩ := sourceElement?_eq_some h
      rw [he, sourceElements_of_some h, List.map_cons, ih _ (hk ▸ hlt) p.2 rfl]

structure SourceMember where
  id : Text
  elements : List SourceElement := []
  deriving DecidableEq, Repr

def SourceMember.record (m : SourceMember) : Record :=
  { Record.ofId (decode m.id) with fragments := m.elements.map SourceElement.fragment }

@[simp] theorem fragments_ofId (id : Text) : (Record.ofId id).fragments = [] := by
  unfold Record.ofId
  dsimp only
  split <;> rfl

@[simp] theorem SourceMember.record_of_nil (id : Text) :
    (SourceMember.mk id []).record = Record.ofId (decode id) := by
  rw [record, List.map_nil, ← fragments_ofId (decode id)]

def sourceMember? (s : Text) : Option (SourceMember × Text) := do
  let s ← Text.after? "<member" s
  let s ← someWhite? s
  let s ← Text.after? "name" s
  let (id, s) ← equalsQuoted? s
  let s := skipWhite s
  match Text.after? "/>" s with
  | some rest => some (⟨id, []⟩, rest)
  | none =>
    let s ← Text.after? ">" s
    let (body, rest) ← memberBody? s
    some (⟨id, sourceElements body⟩, rest)

theorem member?_eq_map (s : Text) :
    member? s = (sourceMember? s).map fun p => (p.1.record, p.2) := by
  simp only [member?, sourceMember?, Option.bind_eq_bind, Option.map_bind, Function.comp_def]
  refine Option.bind_congr fun s _ => Option.bind_congr fun s _ => Option.bind_congr fun s _ =>
    Option.bind_congr fun p _ => ?_
  cases Text.after? "/>" (skipWhite p.2) with
  | some rest => simp
  | none =>
    simp only [Option.map_bind, Function.comp_def]
    refine Option.bind_congr fun s _ => Option.bind_congr fun p _ => ?_
    rw [elements_eq_map]
    rfl

def sourceMembers (s : Text) : List SourceMember := Text.collect sourceMember? s

theorem members_eq_map (s : Text) : members s = (sourceMembers s).map SourceMember.record := by
  rw [members, funext member?_eq_map, Text.collect_map]
  rfl

end ApiBook.Xml
