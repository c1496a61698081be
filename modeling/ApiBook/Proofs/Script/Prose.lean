import ApiBook.Script.Note

/-! # Paragraphs

The text lines of a block make paragraphs, which blank lines divide. Read one after the other they
give the same text as all at once.
-/

namespace ApiBook.Script

/-- The paragraphs of text lines. An empty line stands for a blank one. -/
def paragraphs (ls : List Text) : List (List Text) := (ls.splitOn []).filter (· ≠ [])

def joinParagraphs (ps : List (List Text)) : Text :=
  List.intercalate "\n\n" (ps.map (List.intercalate "\n"))

variable {l : Text} {ls : List Text} {p : Prose}

@[simp] theorem paragraphs_nil_cons (ls : List Text) : paragraphs ([] :: ls) = paragraphs ls := by
  rw [paragraphs, List.splitOn_cons_eq_if_modifyHead]
  simp [paragraphs]

theorem splitOn_cons (hl : l ≠ []) (ls : List Text) :
    (l :: ls).splitOn [] = (ls.splitOn []).modifyHead (l :: ·) := by
  rw [List.splitOn_cons_eq_if_modifyHead, if_neg (by simpa using hl)]

theorem paragraphs_cons (hl : l ≠ []) (ls : List Text) : paragraphs (l :: ls) =
    if ls.head?.all (· = []) then [l] :: paragraphs ls
    else (paragraphs ls).modifyHead (l :: ·) := by
  rw [paragraphs, splitOn_cons hl]
  match ls with
  | [] => simp [paragraphs]
  | [] :: ls => simp [paragraphs, List.splitOn_cons_eq_if_modifyHead]
  | (c :: m) :: ls =>
    obtain ⟨g, gs, hg⟩ := List.exists_cons_of_ne_nil (List.splitOn_ne_nil [] ls)
    simp [paragraphs, splitOn_cons (List.cons_ne_nil c m), hg]

theorem paragraphs_cons_ne_nil (hl : l ≠ []) (ls : List Text) : paragraphs (l :: ls) ≠ [] := by
  obtain ⟨g, gs, hg⟩ := List.exists_cons_of_ne_nil (List.splitOn_ne_nil [] ls)
  simp [paragraphs, splitOn_cons hl, hg]

/-- What text lines add behind a text, where a blank line may stand between. -/
def below (broken : Bool) (ls : List Text) : Text :=
  if paragraphs ls = [] then []
  else
    (if broken = true ∨ ls.head? = some [] then "\n\n" else "\n" : Text) ++
      joinParagraphs (paragraphs ls)

@[simp] theorem below_nil_cons (b : Bool) (ls : List Text) :
    below b ([] :: ls) = below true ls := by
  simp [below]

theorem joinParagraphs_modifyHead {ps : List (List Text)} (h : ps ≠ []) (hne : [] ∉ ps) (l : Text) :
    joinParagraphs (ps.modifyHead (l :: ·)) = l ++ '\n' :: joinParagraphs ps := by
  match ps with
  | [] => exact absurd rfl h
  | g :: gs =>
    have hg : g ≠ [] := fun hg => hne (hg ▸ List.mem_cons_self)
    cases gs <;>
      simp [joinParagraphs, List.intercalate_cons_of_ne_nil hg, List.intercalate_cons_cons]

@[simp] theorem nil_notMem_paragraphs (ls : List Text) : [] ∉ paragraphs ls := by
  simp [paragraphs]

theorem joinParagraphs_cons (hl : l ≠ []) (ls : List Text) :
    joinParagraphs (paragraphs (l :: ls)) = l ++ below false ls := by
  rw [paragraphs_cons hl]
  match ls with
  | [] => simp [paragraphs, joinParagraphs, below]
  | [] :: ls =>
    by_cases h : paragraphs ls = []
    · simp [h, joinParagraphs, below]
    · simp [h, joinParagraphs, below, List.intercalate_cons_of_ne_nil]
  | (c :: m) :: ls =>
    have hm := paragraphs_cons_ne_nil (List.cons_ne_nil c m) ls
    rw [if_neg (by simp), joinParagraphs_modifyHead hm (nil_notMem_paragraphs _), below, if_neg hm]
    simp

theorem below_cons (hl : l ≠ []) (b : Bool) (ls : List Text) : below b (l :: ls) =
    (if b then "\n\n" else "\n" : Text) ++ l ++ below false ls := by
  rw [below, if_neg (paragraphs_cons_ne_nil hl ls), joinParagraphs_cons hl]
  simp [hl]

namespace Prose

def read (p : Prose) (l : Text) : Prose := if l = [] then p.pause else p.push l

theorem foldl_read_of_ne_nil (hp : p.text ≠ []) (ls : List Text) :
    (ls.foldl read p).text = p.text ++ below p.broken ls := by
  induction ls generalizing p with
  | nil => simp [below, paragraphs]
  | cons l ls ih =>
    rw [List.foldl_cons, read]
    split
    · rename_i hl
      have hb : p.pause.broken = true := decide_eq_true hp
      rw [ih (p := p.pause) hp, hl, below_nil_cons, hb]
      rfl
    · rename_i hl
      have ht : (p.push l).text =
          p.text ++ ((if p.broken then "\n\n" else "\n" : Text) ++ l) := by
        rw [push, if_neg hp, List.append_assoc]
        split <;> rfl
      rw [ih (by simp [ht, hl]), below_cons hl, ht]
      simp [push]

theorem foldl_read (ls : List Text) :
    (ls.foldl read {}).text = joinParagraphs (paragraphs ls) := by
  induction ls with
  | nil => rfl
  | cons l ls ih =>
    rw [List.foldl_cons, read]
    split
    · rename_i hl
      rw [hl, paragraphs_nil_cons, ← ih]
      rfl
    · rename_i hl
      rw [joinParagraphs_cons hl, foldl_read_of_ne_nil hl]
      rfl

end Prose

end ApiBook.Script
