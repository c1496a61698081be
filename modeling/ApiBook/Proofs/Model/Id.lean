import ApiBook.Model.Record
import ApiBook.Proofs.Text.Spans
import Mathlib.Data.List.Infix

/-! # Ids of records

An id is written as the letter of its kind, its target and the types of its parameters. Reading it
gives these back: only a comma outside of all brackets ends a type, and a type has none.
-/

namespace ApiBook.Record

variable {c letter : Char} {kind : RecordKind} {target s t p : Text} {ps types : List Text}

/-- The kinds by their letters. -/
def kindLetters : List (Char × RecordKind) :=
  [('N', .scope), ('T', .type), ('P', .property), ('F', .field), ('E', .event), ('M', .method)]

def plainId (letter : Char) (target : Text) : Text := letter :: ':' :: target

def printId (letter : Char) (target : Text) (types : List Text) : Text :=
  plainId letter target ++ "(" ++ List.intercalate [','] types ++ ")"

section Brackets

def bracketStep (c : Char) : Int :=
  if c = '{' ∨ c = '[' then 1 else if c = '}' ∨ c = ']' then -1 else 0

/-- How many more brackets a text opens than it closes. -/
def bracketDepth : Text → Int
  | [] => 0
  | c :: s => bracketStep c + bracketDepth s

@[simp] theorem bracketDepth_cons (c : Char) (s : Text) :
    bracketDepth (c :: s) = bracketStep c + bracketDepth s := rfl

/-- The text of a parameter type. Its brackets are balanced, and its commas stand inside them. -/
structure IsTypeText (s : Text) : Prop where
  ne_nil : s ≠ []
  opening : '(' ∉ s
  closing : ')' ∉ s
  nonneg : ∀ p ∈ s.inits, 0 ≤ bracketDepth p
  balanced : bracketDepth s = 0
  comma : ∀ p ∈ s.inits, p ++ [','] <+: s → 0 < bracketDepth p

instance : DecidablePred IsTypeText := fun s =>
  decidable_of_iff (s ≠ [] ∧ '(' ∉ s ∧ ')' ∉ s ∧ (∀ p ∈ s.inits, 0 ≤ bracketDepth p) ∧
      bracketDepth s = 0 ∧ ∀ p ∈ s.inits, p ++ [','] <+: s → 0 < bracketDepth p)
    ⟨fun ⟨h₁, h₂, h₃, h₄, h₅, h₆⟩ => ⟨h₁, h₂, h₃, h₄, h₅, h₆⟩,
      fun ⟨h₁, h₂, h₃, h₄, h₅, h₆⟩ => ⟨h₁, h₂, h₃, h₄, h₅, h₆⟩⟩

/-- Behind some open brackets a text closes no more than these and its own, and no comma in it
stands outside of all. -/
structure Nested (depth : Int) (s : Text) : Prop where
  opening : '(' ∉ s
  closing : ')' ∉ s
  nonneg : ∀ p, p <+: s → 0 ≤ depth + bracketDepth p
  comma : ∀ p, p ++ [','] <+: s → 0 < depth + bracketDepth p

theorem IsTypeText.nested (h : IsTypeText s) : Nested 0 s where
  opening := h.opening
  closing := h.closing
  nonneg p hp := by
    rw [Int.zero_add]
    exact h.nonneg p ((List.mem_inits _ _).2 hp)
  comma p hp := by
    rw [Int.zero_add]
    exact h.comma p ((List.mem_inits _ _).2 ((List.prefix_append p [',']).trans hp)) hp

theorem Nested.tail {depth : Int} (h : Nested depth (c :: s)) :
    Nested (depth + bracketStep c) s where
  opening := List.not_mem_of_not_mem_cons h.opening
  closing := List.not_mem_of_not_mem_cons h.closing
  nonneg p hp := by
    have hd := h.nonneg (c :: p) (List.cons_prefix_cons.2 ⟨rfl, hp⟩)
    rw [bracketDepth_cons] at hd
    omega
  comma p hp := by
    have hd := h.comma (c :: p) (List.cons_prefix_cons.2 ⟨rfl, hp⟩)
    rw [bracketDepth_cons] at hd
    omega

theorem Nested.depthAfter_eq {depth : Nat} (h : Nested depth (c :: s)) :
    (depthAfter depth c : Int) = depth + bracketStep c := by
  have hopen : c ≠ '(' := (List.ne_of_not_mem_cons h.opening).symm
  have hclose : c ≠ ')' := (List.ne_of_not_mem_cons h.closing).symm
  have hd := h.nonneg [c] ⟨s, rfl⟩
  have hstep : bracketDepth [c] = bracketStep c := Int.add_zero _
  rw [hstep] at hd
  unfold bracketStep at hd ⊢
  unfold depthAfter
  simp only [hopen, hclose, or_false]
  by_cases hup : c = '{' ∨ c = '['
  · rw [if_pos hup, if_pos hup]
    omega
  · by_cases hdown : c = '}' ∨ c = ']'
    · rw [if_neg hup, if_pos hdown] at hd ⊢
      rw [if_neg hup, if_pos hdown]
      omega
    · rw [if_neg hup, if_neg hdown, if_neg hup, if_neg hdown]
      omega

end Brackets

section Pieces

/-- Nested text stays in one piece with what follows it. -/
theorem commaPieces_append {depth behind : Nat} (hs : Nested depth s)
    (hb : (behind : Int) = depth + bracketDepth s) (ht : commaPieces behind t = p :: ps) :
    commaPieces depth (s ++ t) = (s ++ p) :: ps := by
  induction s generalizing depth with
  | nil =>
    obtain rfl : behind = depth := by
      have hnil : bracketDepth [] = 0 := rfl
      omega
    exact ht
  | cons c s ih =>
    have hd := hs.depthAfter_eq
    have htail : Nested (depthAfter depth c) s := by
      rw [hd]
      exact hs.tail
    have hbehind : (behind : Int) = depthAfter depth c + bracketDepth s := by
      rw [bracketDepth_cons] at hb
      omega
    have hcomma : ¬ (c = ',' ∧ depth = 0) := by
      rintro ⟨rfl, rfl⟩
      have h := hs.comma [] ⟨s, rfl⟩
      have hnil : bracketDepth [] = 0 := rfl
      omega
    rw [List.cons_append, commaPieces, if_neg hcomma, ih htail hbehind]
    rfl

theorem IsTypeText.commaPieces_append (hs : IsTypeText s) (ht : commaPieces 0 t = p :: ps) :
    commaPieces 0 (s ++ t) = (s ++ p) :: ps := by
  refine Record.commaPieces_append hs.nested ?_ ht
  rw [hs.balanced]
  rfl

theorem commaPieces_intercalate (h : ∀ s ∈ types, IsTypeText s) (hne : types ≠ []) :
    commaPieces 0 (List.intercalate [','] types) = types := by
  induction types with
  | nil => exact absurd rfl hne
  | cons s types ih =>
    obtain ⟨hs, htypes⟩ := List.forall_mem_cons.1 h
    by_cases hnil : types = []
    · subst hnil
      have hpiece := hs.commaPieces_append (t := []) rfl
      simpa using hpiece
    · rw [List.intercalate_cons_of_ne_nil hnil, List.append_assoc, List.singleton_append]
      have hpiece := hs.commaPieces_append (t := ',' :: List.intercalate [','] types) rfl
      rw [List.append_nil] at hpiece
      exact hpiece.trans (congrArg (s :: ·) (ih htypes hnil))

theorem splitSignature_intercalate (h : ∀ s ∈ types, IsTypeText s) :
    splitSignature (List.intercalate [','] types) = types := by
  by_cases hne : types = []
  · subst hne
    rfl
  · have hlast : types.getLast? ≠ some [] := fun hl =>
      (h [] (List.mem_of_getLast? hl)).ne_nil rfl
    rw [splitSignature, commaPieces_intercalate h hne]
    exact if_neg hlast

end Pieces

section Ids

theorem splitKind_plainId (hk : (letter, kind) ∈ kindLetters) (s : Text) :
    splitKind (plainId letter s) = (kind, s) := by
  have hletter : RecordKind.ofLetter? letter = some kind := by
    have hall : ∀ k ∈ kindLetters, RecordKind.ofLetter? k.1 = some k.2 := by decide
    exact hall _ hk
  rw [plainId, splitKind, hletter]

/-- Reading a written id gives the kind of its letter, its target and its types, whatever the
target holds but a parenthesis and however deep the brackets of the types are. Without types the
parameter list may be left out. -/
theorem ofId_printId (hk : (letter, kind) ∈ kindLetters) (ht : '(' ∉ target)
    (hs : ∀ s ∈ types, IsTypeText s) :
    ofId (printId letter target types) = { kind, target, signature := types } ∧
      (types = [] → ofId (plainId letter target) = { kind, target, signature := types }) := by
  constructor
  · have hid : printId letter target types =
        plainId letter (target ++ '(' :: (List.intercalate [','] types ++ [')'])) := by
      simp [printId, plainId]
    have hend : Text.dropEndWhile (· == ')') (List.intercalate [','] types ++ [')']) =
        List.intercalate [','] types := by
      rw [Text.dropEndWhile_append_of_forall (by simp)]
      refine Text.EndsNot.dropEndWhile_eq (Text.EndsNot.of_forall fun c hc => ?_)
      rw [beq_eq_false_iff_ne]
      rintro rfl
      exact Text.notMem_intercalate (by decide) (fun s h => (hs s h).closing) hc
    rw [hid, ofId, splitKind_plainId hk]
    simp only [Text.cut?_append ht, hend, splitSignature_intercalate hs]
  · rintro rfl
    rw [ofId, splitKind_plainId hk]
    simp only [Text.cut?_of_notMem ht]

/-- A colon and a closing parenthesis in the target, and commas in brackets of both kinds. -/
theorem ofId_printId_of_nested_brackets :
    let target : Text := "N:A.f)"
    let types : List Text := ["D{S,L{I[0:,0:]}}", "I[,]"]
    ('M', RecordKind.method) ∈ kindLetters ∧ '(' ∉ target ∧ (∀ s ∈ types, IsTypeText s) ∧
      printId 'M' target types = "M:N:A.f)(D{S,L{I[0:,0:]}},I[,])".toList ∧
      ofId (printId 'M' target types) = { kind := .method, target, signature := types } ∧
      ofId (plainId 'M' target) = { kind := .method, target } := by
  intro target types
  have hk : ('M', RecordKind.method) ∈ kindLetters := by decide
  have ht : '(' ∉ target := by decide
  have hs : ∀ s ∈ types, IsTypeText s := by decide +kernel
  have hnil : ∀ s ∈ ([] : List Text), IsTypeText s := fun _ h => absurd h List.not_mem_nil
  exact ⟨hk, ht, hs, by decide, (ofId_printId hk ht hs).1, (ofId_printId hk ht hnil).2 rfl⟩

end Ids

end ApiBook.Record
