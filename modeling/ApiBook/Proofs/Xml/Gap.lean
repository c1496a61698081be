import ApiBook.Proofs.Text.Spans
import ApiBook.Xml.PlainText
import Mathlib.Data.List.Infix

/-! # Words and gaps

Normal text is the words of a text with one separator for each gap between them: a paragraph break
for a gap that holds one, and else the gap without its blanks and line feeds but the first of a run.
-/

namespace ApiBook

variable {c : Char} {s t u w : Text}

namespace Text

theorem paragraphs_ne_nil (s : Text) : paragraphs s ≠ [] := by
  fun_cases paragraphs s with
  | case1 => exact List.cons_ne_nil _ _
  | case2 => exact List.cons_ne_nil _ _
  | case3 c cs => cases paragraphs cs <;> exact List.cons_ne_nil _ _

theorem paragraphs_cons (h : c = '\n' → s.head? ≠ some '\n') :
    paragraphs (c :: s) = consHead c (paragraphs s) := by
  rw [paragraphs]
  rintro cs rfl rfl
  exact h rfl rfl

theorem paragraphs_append (h : ¬ ['\n', '\n'] <:+: s ++ t.head?.toList) :
    ∃ p ps, paragraphs t = p :: ps ∧ paragraphs (s ++ t) = (s ++ p) :: ps := by
  induction s with
  | nil =>
    obtain ⟨p, ps, hp⟩ := List.exists_cons_of_ne_nil (paragraphs_ne_nil t)
    exact ⟨p, ps, hp, hp⟩
  | cons c s ih =>
    obtain ⟨p, ps, hp, hs⟩ := ih fun hi => h (hi.trans (List.suffix_cons c _).isInfix)
    refine ⟨p, ps, hp, ?_⟩
    have hc : c = '\n' → (s ++ t).head? ≠ some '\n' := by
      rintro rfl hn
      refine h (List.IsPrefix.isInfix ?_)
      cases s with
      | nil =>
        rw [List.nil_append] at hn
        rw [hn]
        exact List.prefix_rfl
      | cons d s =>
        cases hn
        exact ⟨_, rfl⟩
    rw [List.cons_append, paragraphs_cons hc, hs]
    rfl

end Text

namespace Xml

section Shrinking

variable {inGap : Bool}

theorem isGap_of_not_isWhite (h : Text.isWhite c = false) : isGap c = false := by
  rw [isGap, Text.isBlank_of_not_isWhite h, Bool.false_or, beq_eq_false_iff_ne]
  rintro rfl
  cases h

theorem shrinkGaps_append (ht : Text.StartsNot isGap t) (s : Text) :
    shrinkGaps inGap (s ++ t) = shrinkGaps inGap s ++ shrinkGaps false t := by
  induction s generalizing inGap with
  | nil =>
    cases t with
    | nil => rfl
    | cons c t =>
      have hc : ¬ isGap c = true := by rw [ht c rfl]; exact Bool.false_ne_true
      change shrinkGaps inGap (c :: t) = shrinkGaps false (c :: t)
      rw [shrinkGaps, if_neg hc, shrinkGaps, if_neg hc]
  | cons c s ih =>
    rw [List.cons_append, shrinkGaps, shrinkGaps]
    split
    · split <;> rw [ih]
      rfl
    · rw [ih]
      rfl

theorem shrinkGaps_word_append (hu : ∀ c ∈ u, isGap c = false) (t : Text) :
    shrinkGaps false (u ++ t) = u ++ shrinkGaps false t := by
  induction u with
  | nil => rfl
  | cons c u ih =>
    have hc : ¬ isGap c = true := by rw [hu c List.mem_cons_self]; exact Bool.false_ne_true
    rw [List.cons_append, shrinkGaps, if_neg hc, ih fun d hd => hu d (List.mem_cons_of_mem c hd)]
    rfl

theorem count_shrinkGaps (hc : isGap c = false) (s : Text) :
    (shrinkGaps inGap s).count c = s.count c := by
  have hspace : ' ' ≠ c := by
    rintro rfl
    cases hc
  induction s generalizing inGap with
  | nil => rfl
  | cons d s ih =>
    rw [shrinkGaps]
    split
    · rename_i hd
      have hne : d ≠ c := by
        rintro rfl
        rw [hc] at hd
        cases hd
      rw [List.count_cons_of_ne hne]
      split
      · exact ih
      · rw [List.count_cons_of_ne hspace, ih]
    · rw [List.count_cons, List.count_cons, ih]

@[simp] theorem shrinkGaps_eq_nil_iff : shrinkGaps false s = [] ↔ s = [] := by
  cases s with
  | nil => exact iff_of_true rfl rfl
  | cons c s =>
    refine iff_of_false ?_ (List.cons_ne_nil c s)
    rw [shrinkGaps]
    split <;> exact List.cons_ne_nil _ _

end Shrinking

section Breaks

theorem exists_break (h : ['\n', '\n'] <:+: w) :
    ∃ a b, w = a ++ '\n' :: '\n' :: b ∧ ¬ ['\n', '\n'] <:+: a ++ ['\n'] := by
  induction w with
  | nil => cases List.eq_nil_of_infix_nil h
  | cons c w ih =>
    by_cases hp : ['\n', '\n'] <+: c :: w
    · obtain ⟨b, hb⟩ := hp
      exact ⟨[], b, hb.symm, by decide⟩
    · obtain ⟨a, b, rfl, hn⟩ := ih ((List.infix_cons_iff.1 h).resolve_left hp)
      refine ⟨c :: a, b, rfl, fun hi => ?_⟩
      rcases List.infix_cons_iff.1 hi with hi | hi
      · exact hp (hi.trans ⟨'\n' :: b, by simp⟩)
      · exact hn hi

theorem infix_of_infix_append (hu : '\n' ∉ u) (h : ['\n', '\n'] <:+: u ++ w) :
    ['\n', '\n'] <:+: w := by
  induction u with
  | nil => exact h
  | cons c u ih =>
    rcases List.infix_cons_iff.1 h with h | h
    · exact absurd (List.cons_prefix_cons.1 h).1 (List.ne_of_not_mem_cons hu)
    · exact ih (List.not_mem_of_not_mem_cons hu) h

theorem infix_of_infix_concat (hc : c ≠ '\n') (h : ['\n', '\n'] <:+: w ++ [c]) :
    ['\n', '\n'] <:+: w := by
  refine (List.infix_concat_iff.1 h).resolve_left fun hs => hc ?_
  obtain ⟨a, ha⟩ := hs
  have hl := congrArg List.getLast? ha
  rw [List.getLast?_append, List.getLast?_concat] at hl
  exact (Option.some.inj hl).symm

end Breaks

section Words

def separator (w : Text) : Text :=
  if ['\n', '\n'] <:+: w then ['\n', '\n'] else shrinkGaps false w

/-- The paragraphs of normal text. -/
def normalParagraphs (s : Text) : List Text :=
  ((Text.paragraphs s).map fun p => shrinkGaps false (Text.trim p)).filter (· ≠ [])

theorem normalize_eq (s : Text) :
    normalize s = List.intercalate ['\n', '\n'] (normalParagraphs s) := rfl

theorem normalParagraphs_of_paragraphs {p : Text} {ps : List Text}
    (h : Text.paragraphs s = p :: ps) (hp : Text.trim p ≠ []) : normalParagraphs s =
      shrinkGaps false (Text.trim p) ::
        (ps.map fun p => shrinkGaps false (Text.trim p)).filter (· ≠ []) := by
  have hne : shrinkGaps false (Text.trim p) ≠ [] := fun h => hp (shrinkGaps_eq_nil_iff.1 h)
  rw [normalParagraphs, h, List.map_cons]
  exact List.filter_cons_of_pos (decide_eq_true hne)

theorem normalParagraphs_cons (hc : Text.isWhite c = true) (s : Text) :
    normalParagraphs (c :: s) = normalParagraphs s := by
  induction hk : s.length using Nat.strongRecOn generalizing c s with
  | ind k ih =>
    by_cases hb : c = '\n' ∧ s.head? = some '\n'
    · obtain ⟨rfl, hs⟩ := hb
      obtain ⟨s, rfl⟩ := List.head?_eq_some_iff.1 hs
      have hlt : s.length < k := hk ▸ Nat.lt_succ_self s.length
      exact (ih _ hlt (c := '\n') rfl s rfl).symm
    · have hb : c = '\n' → s.head? ≠ some '\n' := fun hn hs => hb ⟨hn, hs⟩
      obtain ⟨p, ps, hp⟩ := List.exists_cons_of_ne_nil (Text.paragraphs_ne_nil s)
      rw [normalParagraphs, normalParagraphs, Text.paragraphs_cons hb, hp, Text.consHead,
        List.map_cons, List.map_cons, Text.trim_cons hc]

theorem normalParagraphs_append (hw : ∀ c ∈ w, Text.isWhite c = true) (t : Text) :
    normalParagraphs (w ++ t) = normalParagraphs t := by
  induction w with
  | nil => rfl
  | cons c w ih =>
    rw [List.cons_append, normalParagraphs_cons (hw c List.mem_cons_self),
      ih fun d hd => hw d (List.mem_cons_of_mem c hd)]

theorem normalize_white_append (hw : ∀ c ∈ w, Text.isWhite c = true) (t : Text) :
    normalize (w ++ t) = normalize t := by
  rw [normalize_eq, normalParagraphs_append hw, normalize_eq]

variable (hu : ∀ c ∈ u, Text.isWhite c = false) (hne : u ≠ [])
  (hw : ∀ c ∈ w, Text.isWhite c = true)

include hu hne in
theorem trimStart_word_append (t : Text) : Text.trimStart (u ++ t) = u ++ t := by
  cases u with
  | nil => exact absurd rfl hne
  | cons c u => exact (Text.StartsNot.cons (hu c List.mem_cons_self) _).dropWhile_eq

include hu in
theorem shrinkGaps_word : shrinkGaps false u = u := by
  have h := shrinkGaps_word_append (fun c hc => isGap_of_not_isWhite (hu c hc)) []
  simpa [shrinkGaps] using h

include hu hne hw in
theorem trim_word_append : Text.trim (u ++ w) = u := by
  rw [Text.trim, trimStart_word_append hu hne, Text.trimEnd,
    Text.dropEndWhile_append_of_forall hw, (Text.EndsNot.of_forall hu).dropEndWhile_eq]

include hu in
theorem notMem_word : '\n' ∉ u := fun h => absurd (hu '\n' h) (by decide)

include hu hne hw in
theorem normalParagraphs_word (h : ¬ ['\n', '\n'] <:+: w) : normalParagraphs (u ++ w) = [u] := by
  have hi : ¬ ['\n', '\n'] <:+: (u ++ w) ++ ([] : Text).head?.toList := by
    rw [List.head?_nil, Option.toList_none, List.append_nil]
    exact fun hi => h (infix_of_infix_append (notMem_word hu) hi)
  obtain ⟨p, ps, hp, hs⟩ := Text.paragraphs_append hi
  cases hp
  rw [List.append_nil] at hs
  have htrim := trim_word_append hu hne hw
  rw [normalParagraphs_of_paragraphs hs (by rwa [htrim]), htrim, shrinkGaps_word hu]
  rfl

include hu hne hw in
/-- A gap that holds a paragraph break ends a paragraph. -/
theorem normalParagraphs_break (h : ['\n', '\n'] <:+: w) (t : Text) :
    normalParagraphs (u ++ (w ++ t)) = u :: normalParagraphs t := by
  obtain ⟨a, b, rfl, hn⟩ := exists_break h
  have ha := fun c hc => hw c (List.mem_append_left _ hc)
  have hb : ∀ c ∈ b, Text.isWhite c = true := fun c hc =>
    hw c (List.mem_append_right a (List.mem_cons_of_mem _ (List.mem_cons_of_mem _ hc)))
  have hi : ¬ ['\n', '\n'] <:+: (u ++ a) ++ ('\n' :: '\n' :: (b ++ t)).head?.toList := by
    rw [List.append_assoc]
    exact fun hi => hn (infix_of_infix_append (notMem_word hu) hi)
  obtain ⟨p, ps, hp, hs⟩ := Text.paragraphs_append hi
  cases hp
  rw [List.append_nil, List.append_assoc] at hs
  have hsplit : (a ++ '\n' :: '\n' :: b) ++ t = a ++ '\n' :: '\n' :: (b ++ t) := by simp
  have htrim := trim_word_append hu hne ha
  rw [hsplit, normalParagraphs_of_paragraphs hs (by rwa [htrim]), htrim, shrinkGaps_word hu,
    ← normalParagraphs_append hb t]
  rfl

include hu hne hw in
theorem normalize_word : normalize (u ++ w) = u := by
  by_cases h : ['\n', '\n'] <:+: w
  · have hb := normalParagraphs_break hu hne hw h []
    rw [List.append_nil] at hb
    rw [normalize_eq, hb]
    exact List.append_nil u
  · rw [normalize_eq, normalParagraphs_word hu hne hw h]
    exact List.append_nil u

theorem exists_paragraph (ht : Text.StartsNot Text.isWhite t) (hnt : t ≠ []) :
    ∃ p ps, Text.paragraphs t = p :: ps ∧ Text.trim p = Text.trimEnd p ∧ Text.trim p ≠ [] := by
  cases t with
  | nil => exact absurd rfl hnt
  | cons c t =>
    have hc : Text.isWhite c = false := ht c rfl
    have hn : c ≠ '\n' := by
      rintro rfl
      cases hc
    obtain ⟨p, ps, hp⟩ := List.exists_cons_of_ne_nil (Text.paragraphs_ne_nil t)
    have htrim : Text.trim (c :: p) = Text.trimEnd (c :: p) :=
      congrArg Text.trimEnd (Text.StartsNot.cons hc p).dropWhile_eq
    refine ⟨c :: p, ps, ?_, htrim, fun h => ?_⟩
    · rw [Text.paragraphs_cons fun h => absurd h hn, hp]
      rfl
    · have hw := Text.dropEndWhile_eq_nil_iff.1 (htrim ▸ h) c List.mem_cons_self
      rw [hc] at hw
      cases hw

include hu hne in
/-- A gap without a paragraph break stands inside a paragraph. -/
theorem normalParagraphs_gap (h : ¬ ['\n', '\n'] <:+: w) (ht : Text.StartsNot Text.isWhite t)
    (hnt : t ≠ []) : ∃ q qs, normalParagraphs t = q :: qs ∧
      normalParagraphs (u ++ (w ++ t)) = (u ++ (shrinkGaps false w ++ q)) :: qs := by
  have hi : ¬ ['\n', '\n'] <:+: (u ++ w) ++ t.head?.toList := by
    obtain ⟨c, t, rfl⟩ := List.exists_cons_of_ne_nil hnt
    have hc : c ≠ '\n' := by
      rintro rfl
      cases ht '\n' rfl
    exact fun hi => h (infix_of_infix_append (notMem_word hu)
      (infix_of_infix_concat hc (by simpa using hi)))
  obtain ⟨p, ps, hp, htrim, hpe⟩ := exists_paragraph ht hnt
  obtain ⟨p', ps', hp', hs⟩ := Text.paragraphs_append hi
  rw [hp] at hp'
  cases hp'
  rw [List.append_assoc, List.append_assoc] at hs
  have hend : Text.trimEnd p ≠ [] := htrim ▸ hpe
  have hjoin : Text.trim (u ++ (w ++ p)) = u ++ (w ++ Text.trim p) := by
    rw [Text.trim, trimStart_word_append hu hne, htrim, ← List.append_assoc, ← List.append_assoc]
    exact Text.dropEndWhile_append_of_ne_nil hend (u ++ w)
  have hne' : Text.trim (u ++ (w ++ p)) ≠ [] := by
    rw [hjoin]
    exact List.append_ne_nil_of_left_ne_nil hne _
  have hword := fun c hc => isGap_of_not_isWhite (hu c hc)
  have hgap : Text.StartsNot isGap (Text.trim p) := fun c hc =>
    isGap_of_not_isWhite (Text.startsNot_trim p c hc)
  refine ⟨_, _, normalParagraphs_of_paragraphs hp hpe, ?_⟩
  rw [normalParagraphs_of_paragraphs hs hne', hjoin, shrinkGaps_word_append hword,
    shrinkGaps_append hgap]

include hu hne hw in
/-- Everything about normal text follows from this equation and those at its two ends. -/
theorem normalize_word_append (ht : Text.StartsNot Text.isWhite t) (hnt : t ≠ []) :
    normalize (u ++ (w ++ t)) = u ++ (separator w ++ normalize t) := by
  by_cases h : ['\n', '\n'] <:+: w
  · obtain ⟨p, ps, hp, -, hpe⟩ := exists_paragraph ht hnt
    rw [separator, if_pos h, normalize_eq, normalize_eq, normalParagraphs_break hu hne hw h,
      normalParagraphs_of_paragraphs hp hpe]
    simp [List.intercalate]
  · obtain ⟨q, qs, hq, hqs⟩ := normalParagraphs_gap hu hne h ht hnt
    rw [separator, if_neg h, normalize_eq, normalize_eq, hqs, hq]
    cases qs <;> simp [List.intercalate]

end Words

end Xml

end ApiBook
