import ApiBook.Proofs.Script.Attached

/-! # Comments that end on their own line

A block comment that ends on the line it starts on should not stay open. It does exactly when the
end shares its star with the opener, as in `/**/`: the stars behind the opener are dropped before
the end is looked for. All lines up to the next end of a comment are then comment text.
-/

namespace ApiBook

namespace Script

variable {before later : List Text} {raw body s : Text}

/-- Behind the opener of a comment stand more stars and then a slash, and no end of a comment
follows: the only end shares its star with the opener. -/
def SharesStar (body : Text) : Prop :=
  ∃ k r, body = List.replicate (k + 1) '*' ++ '/' :: r ∧ ¬ ("*/" : Text) <:+: r

theorem end_infix_cons_iff {c : Char} : ("*/" : Text) <:+: c :: s ↔
    (c = '*' ∧ ∃ r, s = '/' :: r) ∨ ("*/" : Text) <:+: s := by
  rw [List.infix_cons_iff]
  refine or_congr_left ⟨?_, ?_⟩
  · rintro ⟨r, hr⟩
    obtain ⟨hc, hs⟩ := List.cons.inj hr
    exact ⟨hc.symm, r, hs.symm⟩
  · rintro ⟨rfl, r, rfl⟩
    exact ⟨r, rfl⟩

/-- An end of a comment is lost with the stars behind the opener exactly when it shares one. -/
theorem sharesStar_iff (h : ("*/" : Text) <:+: body) :
    ¬ ("*/" : Text) <:+: body.dropWhile (· == '*') ↔ SharesStar body := by
  constructor
  · intro hd
    induction body with
    | nil => exact absurd h hd
    | cons c cs ih =>
      by_cases hc : c = '*'
      · subst hc
        rcases end_infix_cons_iff.1 h with ⟨-, r, rfl⟩ | h
        · -- The star right behind the opener is the one of the end.
          refine ⟨0, r, rfl, fun hr => hd ?_⟩
          exact end_infix_cons_iff.2 (.inr hr)
        · obtain ⟨k, r, rfl, hr⟩ := ih h hd
          exact ⟨k + 1, r, rfl, hr⟩
      · rw [List.dropWhile_cons_of_neg (by simpa using hc)] at hd
        exact absurd h hd
  · rintro ⟨k, r, rfl, hr⟩ hd
    rw [List.dropWhile_append_of_pos (by simp)] at hd
    rcases end_infix_cons_iff.1 hd with ⟨hc, -⟩ | hd
    · exact absurd hc (by decide)
    · exact hr hd

@[simp] theorem insideComment_eq_true_iff :
    (insideComment s).2 = true ↔ ¬ ("*/" : Text) <:+: s := by
  rw [← Text.around?_eq_none_iff, insideComment]
  split
  · rename_i hs
    rw [hs]
    simp
  · rename_i hs
    rw [hs]
    simp

theorem classify_opener (h : Text.trim raw = "/*" ++ body) : classify false raw =
    (.comment (unmark (insideComment (body.dropWhile (· == '*'))).1),
      (insideComment (body.dropWhile (· == '*'))).2) := by
  have hs : Text.after? "//" ("/*" ++ body) = none := rfl
  have hb : Text.after? "/*" ("/*" ++ body) = some body := Text.after?_eq_some_iff.2 rfl
  have hn : ("/*" : Text) ++ body ≠ [] := List.cons_ne_nil _ _
  rw [classify, h]
  simp only [Bool.false_eq_true, if_false, if_neg hn, hs, hb]

theorem drop_classes (before : List Text) (raw : Text) (later : List Text) :
    (classes false (before ++ raw :: later)).drop (before.length + 1) =
      classes (openBehind false (before ++ [raw])) later := by
  have happ : before ++ raw :: later = before ++ [raw] ++ later := by simp
  rw [happ, classes_append, List.drop_left' (by simp)]

theorem openBehind_opener (hb : openBehind false before = false)
    (ht : Text.trim raw = "/*" ++ body) (hc : ("*/" : Text) <:+: body) :
    openBehind false (before ++ [raw]) = true ↔ SharesStar body := by
  rw [openBehind_concat, hb, classify_opener ht, insideComment_eq_true_iff, sharesStar_iff hc]

theorem isComment_of_mem_classes (h : ∀ raw ∈ later, ¬ ("*/" : Text) <:+: Text.trim raw) :
    ∀ l ∈ classes true later, l.isComment = true := by
  induction later with
  | nil => simp [classes]
  | cons raw later ih =>
    obtain ⟨hr, hl⟩ := List.forall_mem_cons.1 h
    have hc : classify true raw =
        (.comment (unmark (dropStar (insideComment (Text.trim raw)).1)), true) := by
      rw [classify, if_pos rfl]
      exact congrArg (Prod.mk _) (insideComment_eq_true_iff.2 hr)
    rw [classes, hc]
    exact List.forall_mem_cons.2 ⟨rfl, ih hl⟩

/-- A block comment that starts outside of all others and ends on its own line is closed behind
that line, and the later lines are classified as behind a line comment, exactly when its end does
not share a star with its opener. Otherwise the lines below it are comment text up to the next end
of a comment. -/
theorem closed_on_own_line_iff (hb : openBehind false before = false)
    (ht : Text.trim raw = "/*" ++ body) (hc : ("*/" : Text) <:+: body) :
    (openBehind false (before ++ [raw]) = false ↔ ¬ SharesStar body) ∧
    ((∀ later, (classes false (before ++ raw :: later)).drop (before.length + 1) =
        (classes false (before ++ ("// c" : Text) :: later)).drop (before.length + 1)) ↔
      ¬ SharesStar body) ∧
    (SharesStar body → ∀ later, (∀ raw' ∈ later, ¬ ("*/" : Text) <:+: Text.trim raw') →
      ∀ l ∈ (classes false (before ++ raw :: later)).drop (before.length + 1),
        l.isComment = true) := by
  have hopen := openBehind_opener hb ht hc
  have hline : openBehind false (before ++ ["// c".toList]) = false := by
    rw [openBehind_concat, hb]
    decide +kernel
  have hclosed : openBehind false (before ++ [raw]) = false ↔ ¬ SharesStar body := by
    rw [← hopen, Bool.not_eq_true]
  refine ⟨hclosed, ⟨fun h => hclosed.1 ?_, fun h later => ?_⟩, fun h later hl => ?_⟩
  · have hx := h ["f();".toList]
    rw [drop_classes, drop_classes, hline] at hx
    by_contra ho
    rw [Bool.not_eq_false] at ho
    rw [ho] at hx
    exact absurd hx (by decide +kernel)
  · rw [drop_classes, drop_classes, hclosed.2 h, hline]
  · rw [drop_classes, hopen.2 h]
    exact isComment_of_mem_classes hl

/-- A second end on the line closes what the first, which shares a star, leaves open. -/
theorem closed_of_second_end :
    let before : List Text := ["/* a", "*/", "f();"]
    let raw : Text := "  /***/ b */ c"
    openBehind false before = false ∧ Text.trim raw = "/*" ++ "**/ b */ c".toList ∧
      ("*/" : Text) <:+: "**/ b */ c".toList ∧ openBehind false (before ++ [raw]) = false := by
  intro before raw
  have hb : openBehind false before = false := by decide +kernel
  have ht : Text.trim raw = "/*" ++ "**/ b */ c".toList := by decide +kernel
  have hc : ("*/" : Text) <:+: "**/ b */ c".toList := by decide +kernel
  refine ⟨hb, ht, hc, (closed_on_own_line_iff hb ht hc).1.2 ?_⟩
  rw [← sharesStar_iff hc]
  decide +kernel

/-- The empty block comment stays open and swallows what stands below it. -/
theorem empty_comment_stays_open :
    let below : List Text := ["", "f();", "// a", "g();"]
    Text.trim "/**/" = "/*" ++ "*/".toList ∧ openBehind false ["/**/"] = true ∧
      blocks ("/**/" :: below) = [] ∧ blocks ("// c" :: below) = [⟨["a"], "g();", 5⟩] := by
  decide +kernel

end Script

end ApiBook
