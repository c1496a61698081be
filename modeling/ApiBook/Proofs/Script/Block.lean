import ApiBook.Proofs.Script.Printer
import ApiBook.Proofs.Text.Spans

/-! # Reading printed blocks

The blocks of a printed script are the blocks it was printed from.
-/

namespace ApiBook.Script

variable {l raw : Text} {ls rest : List Text} {bs : List (List Text)} {r : Run} {n : Nat}
  {code : List Text → Text}

/-- Comment lines that a block keeps: no white space ends them, and neither the first nor the last
of them is empty. -/
structure IsBlock (ls : List Text) : Prop where
  endsNot : ∀ l ∈ ls, Text.EndsNot Text.isWhite l
  head_ne : ∃ l ∈ ls.head?, l ≠ []
  last : Text.EndsNot List.isEmpty ls

theorem unmark_of_endsNot (h : Text.EndsNot Text.isWhite l) : unmark (' ' :: l) = l :=
  h.dropEndWhile_eq

theorem classify_mark (h : Text.EndsNot Text.isWhite l) :
    classify false (mark l) = (.comment l, false) := by
  unfold mark
  split
  · rename_i hl
    rw [hl]
    rfl
  · rename_i hl
    have hm : ("// " : Text) ++ l = '/' :: '/' :: ' ' :: l := rfl
    have htrim : Text.trim ('/' :: '/' :: ' ' :: l) = '/' :: '/' :: ' ' :: l := by
      refine Text.trim_eq_self_iff.2 ⟨.cons rfl _, ?_⟩
      exact h.append_of_ne_nil hl ['/', '/', ' ']
    have hafter : Text.after? "//" ('/' :: '/' :: ' ' :: l) = some (' ' :: l) := rfl
    have hdrop : (' ' :: l).dropWhile (· == '/') = ' ' :: l := rfl
    rw [hm, classify]
    simp only [htrim, hafter, hdrop, unmark_of_endsNot h]
    rfl

namespace Run

theorem next?_of_comment {t : Text} {b : Bool} (h : classify r.inside raw = (.comment t, b)) :
    r.next? n (raw :: rest) = (r.comment t b).next? (n + 1) rest := by
  rw [next?, h]

theorem next?_of_code {b : Bool} (h : classify r.inside raw = (.code, b))
    (ha : r.attached? = some ls) :
    r.next? n (raw :: rest) = some (⟨ls, Text.trim raw, n + 1⟩, ⟨n + 1, rest⟩) := by
  simp only [next?, h, ha]

theorem comment_eq (hb : r.blanks = 0) (h : r.texts ≠ [] ∨ l ≠ []) :
    r.comment l false = { texts := r.texts ++ [l] } := by
  have ht : (if r.texts = [] then [] else r.texts ++ List.replicate r.blanks []) = r.texts := by
    rw [hb, List.replicate_zero, List.append_nil]
    split
    · rename_i hr
      exact hr.symm
    · rfl
  have hn : ¬ (l = [] ∧ r.texts = []) := fun hn => h.elim (· hn.2) (· hn.1)
  simp only [comment, ht, if_neg hn]

theorem attached?_eq (h : IsBlock ls) : ({ texts := ls } : Run).attached? = some ls := by
  obtain ⟨l, ls', rfl⟩ : ∃ l ls', ls = ls' ++ [l] := by
    obtain ⟨l, hl, -⟩ := h.head_ne
    have hne : ls ≠ [] := fun hn => by simp [hn] at hl
    exact ⟨_, _, (List.dropLast_concat_getLast hne).symm⟩
  have hl : l ≠ [] := by simpa using h.last l (by simp)
  simp [attached?, hl]

/-- Marked lines join the texts of a run in which the first is not empty. -/
theorem next?_map_mark (hr : r.texts ≠ [] ∨ ∃ l ∈ ls.head?, l ≠ []) (hi : r.inside = false)
    (hb : r.blanks = 0) (h : ∀ l ∈ ls, Text.EndsNot Text.isWhite l) :
    r.next? n (ls.map mark ++ rest) =
      next? { texts := r.texts ++ ls } (n + ls.length) rest := by
  induction ls generalizing r n with
  | nil =>
    obtain ⟨texts, blanks, inside⟩ := r
    subst hi hb
    rw [List.append_nil]
    rfl
  | cons l ls ih =>
    have hl : r.texts ≠ [] ∨ l ≠ [] := by
      refine hr.imp_right ?_
      rintro ⟨x, ⟨⟩, hx⟩
      exact hx
    have hc : classify r.inside (mark l) = (.comment l, false) := by
      rw [hi]
      exact classify_mark (h l List.mem_cons_self)
    have hne : r.texts ++ [l] ≠ [] := List.append_ne_nil_of_right_ne_nil _ (List.cons_ne_nil l [])
    have hls := ih (r := { texts := r.texts ++ [l] }) (n := n + 1) (.inl hne) rfl rfl
      fun l hl => h l (List.mem_cons_of_mem _ hl)
    rw [List.map_cons, List.cons_append, next?_of_comment hc, comment_eq hb hl, hls,
      List.append_assoc, List.singleton_append, List.length_cons, Nat.add_assoc, Nat.add_comm 1]

theorem next?_printBlock (h : IsBlock ls) (hc : IsCode (code ls)) (n : Nat) (rest : List Text) :
    ∃ b c, next? {} n (printBlock code ls ++ rest) = some (b, c) ∧ b.lines = ls ∧
      c.ahead = rest := by
  have hcode : classify false (code ls) = (.code, (classify false (code ls)).2) :=
    Prod.ext hc rfl
  refine ⟨⟨ls, Text.trim (code ls), n + ls.length + 1⟩, ⟨n + ls.length + 1, rest⟩, ?_, rfl, rfl⟩
  rw [printBlock, List.append_assoc, next?_map_mark (.inr h.head_ne) rfl rfl h.endsNot]
  exact next?_of_code hcode (attached?_eq h)

end Run

theorem Cursor.blocks_of_some {c c' : Cursor} {b : Block} (h : c.next? = some (b, c')) :
    c.blocks = b :: c'.blocks := by
  rw [blocks]
  split
  · rename_i h'
    rw [h] at h'
    cases h'
  · rename_i h'
    rw [h] at h'
    cases h'
    rfl

theorem Cursor.blocks_of_none {c : Cursor} (h : c.next? = none) : c.blocks = [] := by
  rw [blocks]
  split
  · rfl
  · rename_i h'
    rw [h] at h'
    cases h'

theorem Cursor.blocks_flatMap_printBlock (h : ∀ ls ∈ bs, IsBlock ls ∧ IsCode (code ls)) (c : Cursor)
    (ha : c.ahead = bs.flatMap (printBlock code)) : c.blocks.map Block.lines = bs := by
  induction bs generalizing c with
  | nil =>
    have hn : c.next? = none := by
      rw [Cursor.next?, ha]
      rfl
    rw [Cursor.blocks_of_none hn]
    rfl
  | cons ls bs ih =>
    obtain ⟨hls, hc⟩ := h ls List.mem_cons_self
    obtain ⟨b, c', hs, hb, hc'⟩ :=
      Run.next?_printBlock hls hc c.number (bs.flatMap (printBlock code))
    have hn : c.next? = some (b, c') := by
      rw [Cursor.next?, ha]
      exact hs
    rw [Cursor.blocks_of_some hn, List.map_cons, hb,
      ih (fun ls hls => h ls (List.mem_cons_of_mem _ hls)) c' hc']

/-- The blocks of printed blocks are those blocks. -/
theorem blocks_flatMap_printBlock (h : ∀ ls ∈ bs, IsBlock ls ∧ IsCode (code ls)) :
    (blocks (bs.flatMap (printBlock code))).map Block.lines = bs :=
  Cursor.blocks_flatMap_printBlock h _ rfl

end ApiBook.Script
