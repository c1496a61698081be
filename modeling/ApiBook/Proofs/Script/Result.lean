import ApiBook.Proofs.Script.Tag
import Mathlib.Data.List.TakeWhile

/-! # Reading result texts

A result text is read as a declaration whose first word may be taken for a name. Its words are put
together again, so the text comes back.
-/

namespace ApiBook.Script

variable {v w : Text} {ws : List Text}

theorem intercalate_eq (h : ∀ v ∈ ws, v ≠ []) (w : Text) :
    List.intercalate [' '] (w :: ws) = w ++ descriptionPart (List.intercalate [' '] ws) := by
  cases ws with
  | nil => simp [descriptionPart]
  | cons v ws =>
    have hv : List.intercalate [' '] (v :: ws) ≠ [] := by
      have hne := h v List.mem_cons_self
      cases ws with
      | nil => simpa using hne
      | cons u ws => simp [List.intercalate_cons_cons, hne]
    rw [List.intercalate_cons_cons, descriptionPart, if_neg hv, List.append_assoc]
    rfl

theorem startsNot_words (h : ∀ v ∈ ws, IsWord v) :
    Text.StartsNot Text.isWhite (List.intercalate [' '] ws) := by
  cases ws with
  | nil => exact .nil
  | cons v ws =>
    have hv := h v List.mem_cons_self
    rw [intercalate_eq fun u hu => (h u (List.mem_cons_of_mem v hu)).ne_nil]
    cases v with
    | nil => exact absurd rfl hv.ne_nil
    | cons c v => exact .cons (hv.notWhite c List.mem_cons_self) _

theorem endsNot_words (h : ∀ v ∈ ws, IsWord v) :
    Text.EndsNot Text.isWhite (List.intercalate [' '] ws) := by
  induction ws with
  | nil => exact .nil
  | cons v ws ih =>
    have hws : ∀ u ∈ ws, IsWord u := fun u hu => h u (List.mem_cons_of_mem v hu)
    have hv := Text.EndsNot.of_forall (h v List.mem_cons_self).notWhite
    rw [intercalate_eq fun u hu => (hws u hu).ne_nil]
    exact hv.append (endsNot_descriptionPart (ih hws))

theorem notMem_words (h : ∀ v ∈ ws, IsWord v) : '\n' ∉ List.intercalate [' '] ws := by
  induction ws with
  | nil => exact List.not_mem_nil
  | cons v ws ih =>
    have hws : ∀ u ∈ ws, IsWord u := fun u hu => h u (List.mem_cons_of_mem v hu)
    have hv : '\n' ∉ v := fun hm => by
      have hw := (h v List.mem_cons_self).notWhite _ hm
      exact absurd hw (by decide)
    rw [intercalate_eq fun u hu => (hws u hu).ne_nil, List.mem_append]
    exact fun hm => hm.elim hv (notMem_descriptionPart (ih hws))

theorem trim_words (h : ∀ v ∈ ws, IsWord v) :
    Text.trim (List.intercalate [' '] ws) = List.intercalate [' '] ws :=
  Text.trim_eq_self_iff.2 ⟨startsNot_words h, endsNot_words h⟩

theorem isDescription_words (h : ∀ v ∈ ws, IsWord v)
    (hd : ∀ v ∈ ws.head?, v.head? ≠ some '-') : IsDescription (List.intercalate [' '] ws) where
  trimmed := trim_words h
  single := notMem_words h
  notDash := by
    cases ws with
    | nil => exact fun hn => nomatch hn
    | cons v ws =>
      have hv := h v List.mem_cons_self
      rw [intercalate_eq fun u hu => (h u (List.mem_cons_of_mem v hu)).ne_nil]
      cases v with
      | nil => exact absurd rfl hv.ne_nil
      | cons c v => exact hd (c :: v) rfl

theorem splitName?_eq_none (hw : IsWord w) (hb : '[' ∉ w ∧ ']' ∉ w) (hn : ¬ IsName w) (s : Text) :
    splitName? (w ++ s) = none := by
  cases w with
  | nil => exact absurd rfl hw.ne_nil
  | cons c w =>
    have hc : ((c :: w) ++ s).head? ≠ some '[' := fun h => by
      rw [← Option.some.inj h] at hb
      exact hb.1 List.mem_cons_self
    rw [splitName?, dropBracket_of_head? hc]
    simp only [List.cons_append]
    split
    · rename_i hs
      cases hd : w.dropWhile isNameChar with
      | nil => exact absurd ⟨hs, List.all_eq_true.2 (List.dropWhile_eq_nil_iff.1 hd)⟩ hn
      | cons e es =>
        have he : e ∈ w := (List.dropWhile_suffix _).mem (hd ▸ List.mem_cons_self)
        have hr : (e :: (es ++ s)).head? ≠ some ']' := fun h => by
          rw [Option.some.inj h] at he
          exact hb.2 (List.mem_cons_of_mem c he)
        have hblank : Text.isBlank e = false :=
          Text.isBlank_of_not_isWhite (hw.notWhite e (List.mem_cons_of_mem c he))
        rw [List.dropWhile_append, hd]
        simp [dropBracket_of_head? hr, hblank]
    · rfl

theorem result_ne_nil (h : IsResult w ws) : List.intercalate [' '] (w :: ws) ≠ [] := by
  rw [intercalate_eq fun v hv => (h.words v (List.mem_cons_of_mem w hv)).ne_nil]
  exact List.append_ne_nil_of_left_ne_nil (h.words w List.mem_cons_self).ne_nil _

theorem ofText_returnsTag (h : IsResult w ws) :
    TagLine.ofText (tagLine "returns" (List.intercalate [' '] (w :: ws))) =
      .tag "returns" (List.intercalate [' '] (w :: ws)) :=
  ofText_tagLine (isKeyword_of_mem (by decide)) (trim_words h.words) (result_ne_nil h)
    (notMem_words h.words)

theorem resultText_ofText (h : IsResult w ws) :
    Declaration.resultText (Declared.ofText (List.intercalate [' '] (w :: ws))) =
        List.intercalate [' '] (w :: ws) ∧
      (Declared.ofText (List.intercalate [' '] (w :: ws))).typeName = [] := by
  have hws : ∀ v ∈ ws, IsWord v := fun v hv => h.words v (List.mem_cons_of_mem w hv)
  have heq := intercalate_eq (fun v hv => (hws v hv).ne_nil) w
  have hd := isDescription_words hws h.notDash
  have htype : splitType (List.intercalate [' '] (w :: ws)) =
      ([], List.intercalate [' '] (w :: ws)) := by
    refine splitType_of_head? ?_
    rw [heq]
    cases w with
    | nil => exact absurd rfl (h.words _ List.mem_cons_self).ne_nil
    | cons c w => exact h.notBrace
  rw [Declared.ofText, htype]
  by_cases hn : IsName w
  · have hsome := splitName?_descriptionPart hn hd
    rw [← heq] at hsome
    simp only [hsome, hd.trimmed, dropDash_of_head? hd.notDash, Declaration.resultText, and_true]
    rw [heq, descriptionPart]
    split <;> simp
  · have hnone : splitName? (List.intercalate [' '] (w :: ws)) = none := by
      rw [heq]
      exact splitName?_eq_none (h.words w List.mem_cons_self) h.notBracket hn _
    simp only [hnone, trim_words h.words, Declaration.resultText, and_self]

end ApiBook.Script
