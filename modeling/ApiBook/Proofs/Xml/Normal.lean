import ApiBook.Proofs.Xml.Gap
import ApiBook.Proofs.Xml.Source

/-! # Normal texts

The texts of all records are in normal form: paragraphs that two line feeds divide, and in each
words with single gaps, none at its ends. Normalization leaves a text as it is exactly if it is in
this form.
-/

namespace ApiBook.Xml

variable {c : Char} {s t p : Text} {ps : List Text} {inGap : Bool}

/-- A paragraph that shows what it holds and nothing else: no line feeds or tabs, spaces only
between other characters, and one at a time. -/
structure IsNormalParagraph (p : Text) : Prop where
  ne_nil : p ≠ []
  startsNot : Text.StartsNot Text.isWhite p
  endsNot : Text.EndsNot Text.isWhite p
  lineFeed : '\n' ∉ p
  tab : '\t' ∉ p
  spaces : ¬ [' ', ' '] <:+: p

/-- Normal paragraphs, two line feeds between neighbours. -/
def IsNormal (s : Text) : Prop :=
  ∃ ps, (∀ p ∈ ps, IsNormalParagraph p) ∧ s = List.intercalate ['\n', '\n'] ps

section Shrunk

/-- All gaps of a text are single spaces. The flag tells whether a gap stands in front of it. -/
structure Shrunk (inGap : Bool) (s : Text) : Prop where
  gaps : ∀ c ∈ s, isGap c = true → c = ' '
  spaces : ¬ [' ', ' '] <:+: s
  startsNot : inGap = true → Text.StartsNot isGap s

@[simp] theorem shrunk_nil : Shrunk inGap [] := ⟨nofun, by simp, fun _ => .nil⟩

@[simp] theorem shrunk_cons_space_iff :
    Shrunk inGap (' ' :: s) ↔ inGap = false ∧ Shrunk true s := by
  constructor
  · rintro ⟨hgaps, hspaces, hstart⟩
    have hrest := List.forall_mem_cons.1 hgaps
    refine ⟨?_, hrest.2, fun hi => hspaces (hi.trans (List.suffix_cons ' ' s).isInfix), ?_⟩
    · cases inGap with
      | false => rfl
      | true => cases hstart rfl ' ' rfl
    · intro _ c hc
      rw [← Bool.not_eq_true]
      intro hgap
      obtain ⟨s, rfl⟩ := List.head?_eq_some_iff.1 hc
      obtain rfl := hrest.2 c List.mem_cons_self hgap
      exact hspaces ⟨[], s, rfl⟩
  · rintro ⟨rfl, hgaps, hspaces, hstart⟩
    refine ⟨List.forall_mem_cons.2 ⟨fun _ => rfl, hgaps⟩, fun hi => ?_, nofun⟩
    rcases List.infix_cons_iff.1 hi with hi | hi
    · obtain ⟨r, rfl⟩ := (List.cons_prefix_cons.1 hi).2
      cases hstart rfl ' ' rfl
    · exact hspaces hi

theorem shrunk_cons_iff (hc : isGap c = false) : Shrunk inGap (c :: s) ↔ Shrunk false s := by
  have hne : ¬ isGap c = true := by
    rw [hc]
    exact Bool.false_ne_true
  constructor
  · rintro ⟨hgaps, hspaces, -⟩
    exact ⟨(List.forall_mem_cons.1 hgaps).2,
      fun hi => hspaces (hi.trans (List.suffix_cons c s).isInfix), nofun⟩
  · rintro ⟨hgaps, hspaces, -⟩
    refine ⟨List.forall_mem_cons.2 ⟨fun h => absurd h hne, hgaps⟩, fun hi => ?_,
      fun _ => .cons hc s⟩
    rcases List.infix_cons_iff.1 hi with hi | hi
    · obtain ⟨rfl, -⟩ := List.cons_prefix_cons.1 hi
      exact hne rfl
    · exact hspaces hi

theorem shrunk_shrinkGaps (s : Text) : Shrunk inGap (shrinkGaps inGap s) := by
  induction s generalizing inGap with
  | nil => exact shrunk_nil
  | cons c s ih =>
    rw [shrinkGaps]
    cases hc : isGap c with
    | true =>
      cases inGap with
      | true => exact ih
      | false => exact shrunk_cons_space_iff.2 ⟨rfl, ih⟩
    | false => exact (shrunk_cons_iff hc).2 ih

theorem Shrunk.shrinkGaps_eq (h : Shrunk inGap s) : shrinkGaps inGap s = s := by
  induction s generalizing inGap with
  | nil => rfl
  | cons c s ih =>
    rw [shrinkGaps]
    cases hc : isGap c with
    | true =>
      obtain rfl := h.gaps c List.mem_cons_self hc
      obtain ⟨rfl, hs⟩ := shrunk_cons_space_iff.1 h
      exact congrArg (' ' :: ·) (ih hs)
    | false => exact congrArg (c :: ·) (ih ((shrunk_cons_iff hc).1 h))

theorem startsNot_shrinkGaps (h : Text.StartsNot Text.isWhite s) :
    Text.StartsNot Text.isWhite (shrinkGaps false s) := by
  cases s with
  | nil => exact .nil
  | cons c s =>
    rw [shrinkGaps, isGap_of_not_isWhite (h c rfl)]
    exact .cons (h c rfl) _

theorem endsNot_shrinkGaps (h : Text.EndsNot Text.isWhite s) :
    Text.EndsNot Text.isWhite (shrinkGaps false s) := by
  rcases List.eq_nil_or_concat' s with rfl | ⟨s, c, rfl⟩
  · exact .nil
  · have hc : Text.isWhite c = false := h c (by simp)
    have hgap := isGap_of_not_isWhite hc
    have hlast : shrinkGaps false [c] = [c] := by simp [shrinkGaps, hgap]
    rw [shrinkGaps_append (.cons hgap []), hlast]
    exact (Text.EndsNot.singleton hc).append_of_ne_nil (List.cons_ne_nil c []) _

end Shrunk

section Paragraphs

theorem isNormalParagraph_shrinkGaps (h : Text.trim p ≠ []) :
    IsNormalParagraph (shrinkGaps false (Text.trim p)) := by
  have hs : Shrunk false (shrinkGaps false (Text.trim p)) := shrunk_shrinkGaps (Text.trim p)
  exact {
    ne_nil := mt shrinkGaps_eq_nil_iff.1 h
    startsNot := startsNot_shrinkGaps (Text.startsNot_trim p)
    endsNot := endsNot_shrinkGaps (Text.endsNot_trim p)
    lineFeed := fun hm => absurd (hs.gaps '\n' hm rfl) (by decide)
    tab := fun hm => absurd (hs.gaps '\t' hm rfl) (by decide)
    spaces := hs.spaces }

theorem IsNormalParagraph.shrunk (h : IsNormalParagraph p) : Shrunk false p where
  gaps c hc hgap := by
    simp only [isGap, Text.isBlank, Bool.or_eq_true, beq_iff_eq] at hgap
    rcases hgap with (rfl | rfl) | rfl
    · rfl
    · exact absurd hc h.tab
    · exact absurd hc h.lineFeed
  spaces := h.spaces
  startsNot := nofun

theorem paragraphs_append_of_notMem (hp : '\n' ∉ p) (r : Text) :
    ∃ q qs, Text.paragraphs r = q :: qs ∧ Text.paragraphs (p ++ r) = (p ++ q) :: qs := by
  apply Text.paragraphs_append
  intro hi
  have hlen := (infix_of_infix_append hp hi).length_le
  cases r with
  | nil => simp at hlen
  | cons c r => simp at hlen

theorem paragraphs_intercalate (h : ∀ p ∈ ps, '\n' ∉ p) (hne : ps ≠ []) :
    Text.paragraphs (List.intercalate ['\n', '\n'] ps) = ps := by
  induction ps with
  | nil => exact absurd rfl hne
  | cons p ps ih =>
    obtain ⟨hp, hps⟩ := List.forall_mem_cons.1 h
    by_cases hnil : ps = []
    · subst hnil
      obtain ⟨q, qs, hq, hs⟩ := paragraphs_append_of_notMem hp []
      cases hq
      simpa using hs
    · rw [List.intercalate_cons_of_ne_nil hnil, List.append_assoc]
      generalize hrest : List.intercalate ['\n', '\n'] ps = rest at ih ⊢
      obtain ⟨q, qs, hq, hs⟩ := paragraphs_append_of_notMem hp ('\n' :: '\n' :: rest)
      cases hq
      rw [List.append_nil] at hs
      exact hs.trans (congrArg (p :: ·) (ih hps hnil))

theorem normalParagraphs_of_forall (h : ∀ p ∈ ps, IsNormalParagraph p) (hne : ps ≠ []) :
    normalParagraphs (List.intercalate ['\n', '\n'] ps) = ps := by
  have hmap : (ps.map fun p => shrinkGaps false (Text.trim p)) = ps := by
    refine (List.map_congr_left fun p hp => ?_).trans (List.map_id ps)
    have hp := h p hp
    rw [Text.trim_eq_self_iff.2 ⟨hp.startsNot, hp.endsNot⟩]
    exact hp.shrunk.shrinkGaps_eq
  rw [normalParagraphs, paragraphs_intercalate (fun p hp => (h p hp).lineFeed) hne, hmap]
  exact List.filter_eq_self.2 fun p hp => decide_eq_true (h p hp).ne_nil

theorem isNormal_normalize (s : Text) : IsNormal (normalize s) := by
  refine ⟨normalParagraphs s, fun p hp => ?_, rfl⟩
  obtain ⟨hp, hne⟩ := List.mem_filter.1 hp
  obtain ⟨q, -, rfl⟩ := List.mem_map.1 hp
  exact isNormalParagraph_shrinkGaps (mt shrinkGaps_eq_nil_iff.2 (of_decide_eq_true hne))

/-- The normal texts are those that normalization leaves as they are. -/
theorem isNormal_iff : IsNormal s ↔ normalize s = s := by
  constructor
  · rintro ⟨ps, hps, rfl⟩
    by_cases hne : ps = []
    · subst hne
      rfl
    · rw [normalize_eq, normalParagraphs_of_forall hps hne]
  · intro h
    rw [← h]
    exact isNormal_normalize s

end Paragraphs

section Records

theorem exists_plainText {r : Record} {f : Fragment} (hr : r ∈ records s) (hf : f ∈ r.fragments) :
    ∃ t, f.text = plainText t := by
  rw [records, List.mem_mergeSort, members_eq_map] at hr
  obtain ⟨m, -, rfl⟩ := List.mem_map.1 hr
  obtain ⟨e, -, rfl⟩ := List.mem_map.1 hf
  exact ⟨e.content, rfl⟩

/-- Whatever the file, the texts of its records are in normal form, and to normalize them once more
changes nothing. -/
theorem text_normal {r : Record} {f : Fragment} (hr : r ∈ records s) (hf : f ∈ r.fragments) :
    IsNormal f.text ∧ normalize f.text = f.text := by
  obtain ⟨t, ht⟩ := exists_plainText hr hf
  have h : IsNormal f.text := by
    rw [ht]
    exact isNormal_normalize (flatten t)
  exact ⟨h, isNormal_iff.1 h⟩

/-- Gaps of every kind beside each other: from the source, a tag, a reference and a space that does
not break. -/
theorem text_normal_of_gaps :
    let file : Text :=
      "<member name=\"T:N.A\"><s> a \n<b/>\t&#10;b&#160; \n\n\n<para>&#32;</para>c\r\n</s></member>"
    let f : Fragment := { element := "s", text := "a b\n\nc" }
    let r : Record := { kind := .type, target := "N.A", fragments := [f] }
    r ∈ records file ∧ f ∈ r.fragments ∧ IsNormal f.text ∧ normalize f.text = f.text := by
  intro file f r
  have hm : members file = [r] := by decide +kernel
  have hr : r ∈ records file := by
    rw [records, List.mem_mergeSort, hm]
    exact List.mem_cons_self
  have hf : f ∈ r.fragments := List.mem_cons_self
  exact ⟨hr, hf, text_normal hr hf⟩

end Records

end ApiBook.Xml
