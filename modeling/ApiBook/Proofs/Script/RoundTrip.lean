import ApiBook.Proofs.Script.Block
import ApiBook.Proofs.Script.Names
import ApiBook.Proofs.Script.Note

/-! # Round trip of scripts

Reading a printed script gives back the document it was printed from.
-/

namespace ApiBook.Script

variable {l p s : Text} {ls ls' : List Text} {m : Member} {c : ClassDoc} {detail : Detail}
  {ms : List Member}

section Blocks

/-- Lines that can stand in a block behind its first line. -/
structure IsTail (ls : List Text) : Prop where
  endsNot : ∀ l ∈ ls, Text.EndsNot Text.isWhite l
  last : Text.EndsNot List.isEmpty ls

namespace IsTail

theorem nil : IsTail [] := ⟨fun _ h => absurd h List.not_mem_nil, .nil⟩

theorem cons (hl : Text.EndsNot Text.isWhite l) (hne : ls ≠ []) (h : IsTail ls) :
    IsTail (l :: ls) where
  endsNot := List.forall_mem_cons.2 ⟨hl, h.endsNot⟩
  last := h.last.cons hne l

theorem append (h : IsTail ls) (h' : IsTail ls') : IsTail (ls ++ ls') where
  endsNot := List.forall_mem_append.2 ⟨h.endsNot, h'.endsNot⟩
  last := h.last.append h'.last

theorem of_forall (h : ∀ l ∈ ls, Text.EndsNot Text.isWhite l ∧ l ≠ []) : IsTail ls where
  endsNot l hl := (h l hl).1
  last := .of_forall fun l hl => by simp [(h l hl).2]

theorem singleton (hl : Text.EndsNot Text.isWhite l) (hne : l ≠ []) : IsTail [l] :=
  .of_forall fun _ hm => List.mem_singleton.1 hm ▸ ⟨hl, hne⟩

theorem isBlock_cons (h : IsTail ls) (hl : Text.EndsNot Text.isWhite l) (hne : l ≠ []) :
    IsBlock (l :: ls) where
  endsNot := List.forall_mem_cons.2 ⟨hl, h.endsNot⟩
  head_ne := ⟨l, rfl, hne⟩
  last := Text.EndsNot.append (s := [l]) (.singleton (by simp [hne])) h.last

end IsTail

theorem IsPlainLine.endsNot (h : IsPlainLine l) : Text.EndsNot Text.isWhite l :=
  (Text.trim_eq_self_iff.1 h.trimmed).2

theorem isTail_fields (h : IsProse p) : IsTail (Text.fields (· == '\n') p) := by
  induction h with
  | line hl =>
    rw [Text.fields_of_notMem hl.single]
    exact .singleton hl.endsNot hl.ne_nil
  | next hl _ ih =>
    rw [Text.fields_append_cons hl.single]
    exact ih.cons hl.endsNot (Text.fields_ne_nil _ _)
  | paragraph hl _ ih =>
    rw [Text.fields_append_cons hl.single]
    exact (ih.cons .nil (Text.fields_ne_nil _ _)).cons hl.endsNot (List.cons_ne_nil _ _)

theorem isTail_proseLines (h : IsSummary s) : IsTail (proseLines s) := by
  rcases h with rfl | h
  · exact .nil
  · rw [h.proseLines_eq]
    exact isTail_fields h

theorem endsNot_paramLine {q : Param} (h : PrintableParam q) :
    Text.EndsNot Text.isWhite (paramLine q) :=
  endsNot_tagLine (endsNot_declaredText h.name h.description _) (declaredText_ne_nil h.name _ _) _

theorem isTail_paramLines {ps : List Param} (h : ∀ q ∈ ps, PrintableParam q) :
    IsTail (ps.map paramLine) := by
  refine .of_forall fun l hl => ?_
  obtain ⟨q, hq, rfl⟩ := List.mem_map.1 hl
  exact ⟨endsNot_paramLine (h q hq), List.cons_ne_nil _ _⟩

theorem isTail_detailLines (h : PrintableDetail detail) : IsTail (detailLines detail) := by
  cases detail with
  | property value =>
    cases value with
    | none => exact .nil
    | some v => exact .singleton (endsNot_defaultLine v) (defaultLine_ne_nil v)
  | event ps => exact isTail_paramLines h
  | method ps returns =>
    refine (isTail_paramLines h.1).append ?_
    cases returns with
    | none => exact .nil
    | some t =>
      obtain ⟨w, ws, rfl, hw⟩ := h.2 t rfl
      exact .singleton (endsNot_tagLine (endsNot_words hw.words) (result_ne_nil hw) _)
        (List.cons_ne_nil _ _)

theorem isBlock_memberLines (h : PrintableMember m) : IsBlock (memberLines m) :=
  ((isTail_proseLines h.summary).append (isTail_detailLines h.detail)).isBlock_cons
    (endsNot_tagLine (endsNot_declaredText h.name isDescription_nil _)
      (declaredText_ne_nil h.name _ _) _) (List.cons_ne_nil _ _)

theorem isBlock_classLines (hn : IsName c.name) (hs : IsSummary c.summary) :
    IsBlock (classLines c) :=
  (isTail_proseLines hs).isBlock_cons
    (endsNot_tagLine (endsNot_declaredText hn isDescription_nil _)
      (declaredText_ne_nil hn _ _) _) (List.cons_ne_nil _ _)

end Blocks

namespace Document

variable {d : Document} {code : List Text → Text}

/-- The block of a member adds that member behind those of other names. -/
theorem addBlock_memberLines (h : PrintableMember m) (hn : m.name ∉ d.members.map (·.name)) :
    d.addBlock (memberLines m) = { d with members := d.members ++ [m] } := by
  obtain ⟨name, summary, typeName, origin, detail⟩ := m
  obtain rfl : origin = .client := h.origin
  rw [addBlock, notes_memberLines h, addAll, List.foldl_cons, List.foldl_nil, add,
    put_eq_append hn]

theorem addBlock_classLines (hn : IsName c.name) (hs : IsSummary c.summary) :
    addBlock {} (classLines c) = { classDoc := some c } := by
  rw [addBlock, notes_classLines hn hs]
  rfl

theorem foldl_memberLines (h : ∀ m ∈ ms, PrintableMember m)
    (hn : ((d.members ++ ms).map (·.name)).Nodup) :
    (ms.map memberLines).foldl addBlock d = { d with members := d.members ++ ms } := by
  induction ms generalizing d with
  | nil => simp
  | cons m ms ih =>
    have hm : m.name ∉ d.members.map (·.name) := by
      rw [List.map_append, List.nodup_append] at hn
      exact fun hm => hn.2.2 _ hm _ List.mem_cons_self rfl
    rw [List.map_cons, List.foldl_cons, addBlock_memberLines (h m List.mem_cons_self) hm,
      ih (fun m hm => h m (List.mem_cons_of_mem _ hm)) (by simpa using hn)]
    simp

theorem isBlock_of_mem (h : d.Printable) (hl : ls ∈ d.blockLines) : IsBlock ls := by
  rcases List.mem_append.1 hl with hl | hl
  · obtain ⟨c, hc, rfl⟩ := Option.map_eq_some_iff.1 (Option.mem_toList.1 hl)
    exact isBlock_classLines (h.className c hc) (h.classSummary c hc)
  · obtain ⟨m, hm, rfl⟩ := List.mem_map.1 hl
    exact isBlock_memberLines (h.members m hm)

theorem ofLines_eq (lines : List Text) :
    ofLines lines = ((blocks lines).map Block.lines).foldl addBlock {} := by
  rw [ofLines, List.foldl_map]

/-- Reading a printed script gives the document it was printed from, whatever lines of code stand
below its blocks. -/
theorem ofLines_print (h : d.Printable) (hc : ∀ ls ∈ d.blockLines, IsCode (code ls)) :
    ofLines (d.print code) = d := by
  have hb : ∀ ls ∈ d.blockLines, IsBlock ls ∧ IsCode (code ls) :=
    fun ls hl => ⟨isBlock_of_mem h hl, hc ls hl⟩
  rw [ofLines_eq, print, blocks_flatMap_printBlock hb, blockLines, List.foldl_append]
  obtain ⟨classDoc, members⟩ := d
  cases classDoc with
  | none => exact foldl_memberLines h.members h.nodup
  | some c =>
    have hs := addBlock_classLines (h.className c rfl) (h.classSummary c rfl)
    rw [Option.map_some, Option.toList_some, List.foldl_cons, List.foldl_nil, hs]
    exact foldl_memberLines h.members h.nodup

/-- A class with two paragraphs, a property whose default value has quotes, and a method whose
result text starts like a parameter. -/
theorem ofLines_print_of_widget :
    let d : Document :=
      { classDoc := some ⟨"Ui.Widget", "A box.\n\nDrawn once."⟩
        members :=
          [{ name := "width", typeName := "Number", origin := .client,
              detail := .property (some "'auto';") },
            { name := "load", summary := "Loads\nat once.", origin := .client,
              detail := .method [⟨"url", "String", "where from"⟩, ⟨"$cb", [], []⟩]
                (some "text (loaded)") }] }
    let code : List Text → Text := fun _ => "  f();"
    (d.Printable ∧ ∀ ls ∈ d.blockLines, IsCode (code ls)) ∧ ofLines (d.print code) = d := by
  intro d code
  have hplain : ∀ l ∈ (["A box.", "Drawn once.", "Loads", "at once."] : List Text),
      IsPlainLine l := by
    intro l hl
    simp only [List.mem_cons, List.not_mem_nil, or_false] at hl
    rcases hl with rfl | rfl | rfl | rfl <;>
      exact ⟨by decide, by decide, by decide, by decide +kernel⟩
  have hclass : IsSummary ("A box.\n\nDrawn once." : Text) :=
    .inr (.paragraph (hplain "A box." (by decide)) (.line (hplain "Drawn once." (by decide))))
  have hload : IsSummary ("Loads\nat once." : Text) :=
    .inr (.next (hplain "Loads" (by decide)) (.line (hplain "at once." (by decide))))
  have hurl : PrintableParam ⟨"url", "String", "where from"⟩ :=
    ⟨by decide, ⟨by decide, by decide, by decide⟩, ⟨by decide, by decide, by decide⟩⟩
  have hcb : PrintableParam ⟨"$cb", [], []⟩ := ⟨by decide, isTypeName_nil, isDescription_nil⟩
  have htext : IsWord "text" := ⟨by decide, by simp; decide⟩
  have hloaded : IsWord "(loaded)" := ⟨by decide, by simp; decide⟩
  have hresult : IsResult "text" ["(loaded)"] :=
    ⟨List.forall_mem_cons.2 ⟨htext, List.forall_mem_singleton.2 hloaded⟩, by decide, by decide,
      by rintro v ⟨⟩; decide⟩
  have hwidth : PrintableMember d.members[0] :=
    ⟨by decide, .inl rfl, ⟨by decide, by decide, by decide⟩, rfl, by rintro v ⟨⟩; decide⟩
  have hmethod : PrintableMember d.members[1] :=
    ⟨by decide, hload, isTypeName_nil, rfl,
      List.forall_mem_cons.2 ⟨hurl, List.forall_mem_singleton.2 hcb⟩,
      by rintro t ⟨⟩; exact ⟨_, _, rfl, hresult⟩⟩
  have hd : d.Printable :=
    ⟨by rintro c ⟨⟩; decide, by rintro c ⟨⟩; exact hclass,
      List.forall_mem_cons.2 ⟨hwidth, List.forall_mem_singleton.2 hmethod⟩, by decide⟩
  have hc : ∀ ls ∈ d.blockLines, IsCode (code ls) := fun _ _ => rfl
  exact ⟨⟨hd, hc⟩, ofLines_print hd hc⟩

end Document

end ApiBook.Script
