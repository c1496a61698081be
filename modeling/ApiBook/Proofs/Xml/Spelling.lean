import ApiBook.Proofs.Text.LineEnd
import ApiBook.Proofs.Xml.Source

/-! # Markup in both spellings

No tag asks for a line end, so both spellings of a file are divided into the same members and
elements, whose pieces are two spellings of one text.
-/

namespace ApiBook.Xml

open Text (SameLines SameReading Inline rel_bind rel_map rel_or)

variable {inWord : Bool} {c : Char} {depth : Nat} {e s t : Text}

section Tokens

theorem sameLines_skipWhite (h : SameLines s t) : SameLines (skipWhite s) (skipWhite t) :=
  h.dropWhile rfl

theorem sameLines_someWhite? (h : SameLines s t) :
    Option.Rel SameLines (someWhite? s) (someWhite? t) := by
  cases h with
  | nil => exact .none
  | char _ h =>
    rw [someWhite?, someWhite?]
    split
    · exact .some (sameLines_skipWhite h)
    · exact .none
  | @lineEnd s t h =>
    have hw : skipWhite ('\n' :: t) = skipWhite t := rfl
    refine .some ?_
    rw [hw]
    exact sameLines_skipWhite h

theorem quoted?_eq (s : Text) : quoted? s = (Text.after? ['"'] s).bind (Text.cut? '"') := by
  unfold quoted?
  split
  · rfl
  · rename_i h
    rw [Text.after?_singleton_eq_none h]
    rfl

theorem equalsQuoted?_eq (s : Text) : equalsQuoted? s =
    (Text.after? ['='] (skipWhite s)).bind fun s => quoted? (skipWhite s) := by
  unfold equalsQuoted?
  split
  · rename_i h
    rw [h]
    rfl
  · rename_i h
    rw [Text.after?_singleton_eq_none h]
    rfl

theorem sameReading_quoted? (h : SameLines s t) :
    SameReading SameLines (quoted? s) (quoted? t) := by
  rw [quoted?_eq, quoted?_eq]
  exact rel_bind (h.after? (by decide)) fun _ _ h => h.cut? (by decide) (by decide)

theorem sameReading_equalsQuoted? (h : SameLines s t) :
    SameReading SameLines (equalsQuoted? s) (equalsQuoted? t) := by
  rw [equalsQuoted?_eq, equalsQuoted?_eq]
  exact rel_bind ((sameLines_skipWhite h).after? (by decide)) fun _ _ h =>
    sameReading_quoted? (sameLines_skipWhite h)

theorem rel_afterOneOf? {keywords : List Text} (hk : ∀ k ∈ keywords, Inline k)
    (h : SameLines s t) :
    Option.Rel SameLines (afterOneOf? keywords s) (afterOneOf? keywords t) := by
  induction keywords with
  | nil => exact .none
  | cons k keywords ih =>
    have hr := h.after? (hk k List.mem_cons_self)
    rw [afterOneOf?, afterOneOf?, List.findSome?_cons, List.findSome?_cons]
    cases hs : Text.after? k s <;> cases ht : Text.after? k t <;> rw [hs, ht] at hr <;> cases hr
    · exact ih fun k' hk' => hk k' (List.mem_cons_of_mem k hk')
    · rename_i h
      exact .some h

end Tokens

section Lengths

variable {v rest : Text}

theorem length_skipWhite_le (s : Text) : (skipWhite s).length ≤ s.length :=
  (List.dropWhile_suffix _).length_le

theorem someWhite?_length_lt (h : someWhite? s = some rest) : rest.length < s.length := by
  cases s with
  | nil => cases h
  | cons c s =>
    rw [someWhite?] at h
    split at h
    · cases h
      exact Nat.lt_succ_of_le (length_skipWhite_le s)
    · cases h

theorem afterOneOf?_length_le {keywords : List Text} (h : afterOneOf? keywords s = some rest) :
    rest.length ≤ s.length := by
  obtain ⟨k, -, h⟩ := List.exists_of_findSome?_eq_some h
  rw [Text.length_after? h]
  exact Nat.le_add_left _ _

theorem equalsQuoted?_length_lt (h : equalsQuoted? s = some (v, rest)) :
    rest.length < s.length := by
  rw [equalsQuoted?_eq] at h
  obtain ⟨s', hs', h⟩ := Option.bind_eq_some_iff.1 h
  rw [quoted?_eq] at h
  obtain ⟨s'', hs'', h⟩ := Option.bind_eq_some_iff.1 h
  have h₁ := Text.length_after? hs'
  have h₂ := Text.length_after? hs''
  have h₃ := congrArg List.length (Text.cut?_eq_some h).1
  have h₄ := length_skipWhite_le s
  have h₅ := length_skipWhite_le s'
  simp only [List.length_append, List.length_cons] at h₁ h₂ h₃
  omega

end Lengths

section Markup

/-- The text inside an element without its tags, before its entities are decoded. -/
def withoutTags (s : Text) : Text :=
  Text.substitute reference? s
    |> Text.substitute paramReference?
    |> Text.substitute paraTag?
    |> Text.substitute anyTag?

theorem flatten_eq (s : Text) : flatten s = decode (withoutTags s) := rfl

theorem sameLines_shortName (h : SameLines s t) : SameLines (shortName s) (shortName t) := by
  have h : SameLines (Text.upTo '(' s) (Text.upTo '(' t) := h.takeWhile rfl
  have hc := h.cutLast? (c := '.') (by decide) (by decide)
  rw [shortName, shortName, Text.afterLast, Text.afterLast]
  generalize Text.cutLast? '.' (Text.upTo '(' s) = x,
    Text.cutLast? '.' (Text.upTo '(' t) = y at hc ⊢
  cases hc with
  | none => exact h
  | some hc => exact hc.2

theorem dropKind_of_not_isUpper (hc : c.isUpper = false) (s : Text) :
    dropKind (c :: s) = c :: s := by
  unfold dropKind
  split
  · rename_i h
    rw [← (List.cons.inj h).1, hc, if_neg Bool.false_ne_true, (List.cons.inj h).2]
  · rfl

theorem dropKind_of_ne {d : Char} (hd : d ≠ ':') (s : Text) :
    dropKind (c :: d :: s) = c :: d :: s := by
  unfold dropKind
  split
  · rename_i h
    exact absurd (List.cons.inj (List.cons.inj h).2).1 hd
  · rfl

theorem sameLines_dropKind (h : SameLines s t) : SameLines (dropKind s) (dropKind t) := by
  cases h with
  | nil => exact .nil
  | lineEnd h =>
    rw [dropKind_of_not_isUpper rfl, dropKind_of_not_isUpper rfl]
    exact .lineEnd h
  | @char c s t hc h =>
    cases hu : c.isUpper with
    | false =>
      rw [dropKind_of_not_isUpper hu, dropKind_of_not_isUpper hu]
      exact .char hc h
    | true =>
      cases h with
      | nil => exact .char hc .nil
      | lineEnd h => exact .char hc (.lineEnd h)
      | @char d s t hd h =>
        by_cases hd' : d = ':'
        · subst hd'
          simp only [dropKind, hu, if_true]
          exact h
        · rw [dropKind_of_ne hd', dropKind_of_ne hd']
          exact .char hc (.char hd h)

theorem sameReading_emptyTag? {attributes : List Text} (ha : ∀ k ∈ attributes, Inline k)
    (h : SameLines s t) :
    SameReading SameLines (emptyTag? attributes s) (emptyTag? attributes t) :=
  rel_bind (sameLines_someWhite? h) fun _ _ h => rel_bind (rel_afterOneOf? ha h) fun _ _ h =>
    rel_bind (sameReading_equalsQuoted? h) fun _ _ h =>
      rel_bind ((sameLines_skipWhite h.2).after? (by decide)) fun _ _ h' => .some ⟨h.1, h'⟩

theorem sameReading_reference? (h : SameLines s t) :
    SameReading SameLines (reference? s) (reference? t) :=
  rel_bind (h.after? (by decide)) fun _ _ h =>
    rel_bind (sameReading_emptyTag? (by decide) (h.getD_after? (by decide))) fun _ _ h =>
      .some ⟨sameLines_shortName (sameLines_dropKind h.1), h.2⟩

theorem sameReading_paramReference? (h : SameLines s t) :
    SameReading SameLines (paramReference? s) (paramReference? t) :=
  rel_bind (rel_afterOneOf? (by decide) h) fun _ _ h => sameReading_emptyTag? (by decide) h

theorem dropSlash_eq (s : Text) : dropSlash s = (Text.after? ['/'] s).getD s := by
  unfold dropSlash
  split
  · rfl
  · rename_i h
    rw [Text.after?_singleton_eq_none h]
    rfl

theorem sameLines_dropSlash (h : SameLines s t) : SameLines (dropSlash s) (dropSlash t) := by
  rw [dropSlash_eq, dropSlash_eq]
  exact h.getD_after? (by decide)

theorem paraTag?_eq (s : Text) : paraTag? s = (Text.after? ['<'] s).bind fun s =>
    (Text.after? "para" (dropSlash s)).bind fun s =>
      (Text.after? ">" (dropSlash (skipWhite s))).bind fun s => some (['\n', '\n'], s) := by
  unfold paraTag?
  split
  · rfl
  · rename_i h
    rw [Text.after?_singleton_eq_none h]
    rfl

theorem sameReading_paraTag? (h : SameLines s t) :
    SameReading SameLines (paraTag? s) (paraTag? t) := by
  rw [paraTag?_eq, paraTag?_eq]
  exact rel_bind (h.after? (by decide)) fun _ _ h =>
    rel_bind ((sameLines_dropSlash h).after? (by decide)) fun _ _ h =>
      rel_bind ((sameLines_dropSlash (sameLines_skipWhite h)).after? (by decide)) fun _ _ h =>
        .some ⟨.refl (s := ['\n', '\n']) (by decide), h⟩

theorem anyTag?_eq (s : Text) : anyTag? s = (Text.after? ['<'] s).bind fun s =>
    match dropSlash s with
    | c :: s => if c.isAlpha then (Text.cut? '>' s).map fun p => ([], p.2) else none
    | [] => none := by
  unfold anyTag?
  split
  · rfl
  · rename_i h
    rw [Text.after?_singleton_eq_none h]
    rfl

theorem sameReading_anyTag? (h : SameLines s t) :
    SameReading SameLines (anyTag? s) (anyTag? t) := by
  rw [anyTag?_eq, anyTag?_eq]
  refine rel_bind (h.after? (by decide)) fun s t h => ?_
  have h := sameLines_dropSlash h
  generalize dropSlash s = s', dropSlash t = t' at h ⊢
  cases h with
  | nil => exact .none
  | lineEnd h => exact .none
  | char hc h =>
    dsimp only
    split
    · exact rel_map (h.cut? (by decide) (by decide)) fun _ _ h => ⟨.nil, h.2⟩
    · exact .none

theorem emptyTag?_length_lt {attributes : List Text} {v rest : Text}
    (h : emptyTag? attributes s = some (v, rest)) : rest.length < s.length := by
  obtain ⟨s₁, h₁, h⟩ := Option.bind_eq_some_iff.1 h
  obtain ⟨s₂, h₂, h⟩ := Option.bind_eq_some_iff.1 h
  obtain ⟨⟨w, s₃⟩, h₃, h⟩ := Option.bind_eq_some_iff.1 h
  obtain ⟨s₄, h₄, h⟩ := Option.bind_eq_some_iff.1 h
  cases h
  have l₁ := someWhite?_length_lt h₁
  have l₂ := afterOneOf?_length_le h₂
  have l₃ := equalsQuoted?_length_lt h₃
  have l₄ := Text.length_after? h₄
  have l₅ := length_skipWhite_le s₃
  omega

theorem shortens_reference? : Text.Shortens reference? := fun s p h => by
  obtain ⟨s₁, h₁, h⟩ := Option.bind_eq_some_iff.1 h
  obtain ⟨⟨v, rest⟩, h₂, h⟩ := Option.bind_eq_some_iff.1 h
  cases h
  have l₁ := Text.length_after? h₁
  have l₂ := emptyTag?_length_lt h₂
  have l₃ : ((Text.after? "also" s₁).getD s₁).length ≤ s₁.length := by
    cases ha : Text.after? "also" s₁ with
    | none => exact le_rfl
    | some r => exact Nat.le_of_lt_succ (by rw [Text.length_after? ha, Option.getD_some]; omega)
  dsimp only
  omega

theorem shortens_paramReference? : Text.Shortens paramReference? := fun s p h => by
  obtain ⟨s₁, h₁, h⟩ := Option.bind_eq_some_iff.1 h
  have l₁ := afterOneOf?_length_le h₁
  have l₂ := emptyTag?_length_lt h
  omega

theorem length_dropSlash_le (s : Text) : (dropSlash s).length ≤ s.length := by
  unfold dropSlash
  split
  · exact Nat.le_succ _
  · exact le_rfl

theorem shortens_paraTag? : Text.Shortens paraTag? := fun s p h => by
  rw [paraTag?_eq] at h
  obtain ⟨s₁, h₁, h⟩ := Option.bind_eq_some_iff.1 h
  obtain ⟨s₂, h₂, h⟩ := Option.bind_eq_some_iff.1 h
  obtain ⟨s₃, h₃, h⟩ := Option.bind_eq_some_iff.1 h
  cases h
  have l₁ := Text.length_after? h₁
  have l₂ := Text.length_after? h₂
  have l₃ := Text.length_after? h₃
  have l₄ := length_dropSlash_le s₁
  have l₅ := length_dropSlash_le (skipWhite s₂)
  have l₆ := length_skipWhite_le s₂
  simp only [List.length_cons, List.length_nil] at l₁
  dsimp only
  omega

theorem shortens_anyTag? : Text.Shortens anyTag? := fun s p h => by
  rw [anyTag?_eq] at h
  obtain ⟨s₁, h₁, h⟩ := Option.bind_eq_some_iff.1 h
  have l₁ := Text.length_after? h₁
  have l₂ := length_dropSlash_le s₁
  split at h
  · rename_i c s₂ hs
    split at h
    · obtain ⟨⟨v, rest⟩, hc, h⟩ := Option.map_eq_some_iff.1 h
      cases h
      have l₃ := congrArg List.length (Text.cut?_eq_some hc).1
      rw [hs, List.length_cons] at l₂
      rw [List.length_append, List.length_cons] at l₃
      dsimp only
      omega
    · cases h
  · cases h

/-- Without its tags, an inside keeps the line ends outside tags in their spelling. -/
theorem sameLines_withoutTags (h : SameLines s t) :
    SameLines (withoutTags s) (withoutTags t) := by
  have h := h.substitute (fun _ _ => sameReading_reference?) shortens_reference?
    onlyAt_reference? (by decide)
  have h := h.substitute (fun _ _ => sameReading_paramReference?) shortens_paramReference?
    onlyAt_paramReference? (by decide)
  have h := h.substitute (fun _ _ => sameReading_paraTag?) shortens_paraTag?
    onlyAt_paraTag? (by decide)
  exact h.substitute (fun _ _ => sameReading_anyTag?) shortens_anyTag?
    onlyAt_anyTag? (by decide)

end Markup

section Tags

theorem nameAttribute?_cons (inWord : Bool) (c : Char) (s : Text) :
    nameAttribute? inWord (c :: s) =
      ((if inWord then none else (Text.after? "name" (c :: s)).bind equalsQuoted?).map Prod.fst).or
        (nameAttribute? (Text.isWord c) s) := by
  rw [nameAttribute?]
  split
  · rename_i h
    rw [h]
    rfl
  · rename_i h
    rw [h]
    rfl

theorem nameAttribute?_lineEnd (hc : c = '\r' ∨ c = '\n') (s : Text) :
    nameAttribute? inWord (c :: s) = nameAttribute? false s := by
  rw [nameAttribute?_cons]
  rcases hc with rfl | rfl <;> cases inWord <;> rfl

theorem rel_nameAttribute? (h : SameLines s t) : Option.Rel SameLines
    (nameAttribute? inWord s) (nameAttribute? inWord t) := by
  induction h generalizing inWord with
  | nil => exact .none
  | @char c s t hc h ih =>
    rw [nameAttribute?_cons, nameAttribute?_cons]
    refine rel_or (rel_map (R := fun x y => SameLines x.1 y.1 ∧ SameLines x.2 y.2) ?_
      fun _ _ => And.left) ih
    split
    · exact .none
    · exact rel_bind ((SameLines.char hc h).after? (by decide)) fun _ _ =>
        sameReading_equalsQuoted?
  | lineEnd _ ih =>
    rw [nameAttribute?_lineEnd (.inr rfl), nameAttribute?_lineEnd (.inl rfl),
      nameAttribute?_lineEnd (.inr rfl)]
    exact ih

/-- Start tags in two spellings. -/
structure SameTag (x y : StartTag) : Prop where
  inline : Inline x.element
  element_eq : x.element = y.element
  attributes : SameLines x.attributes y.attributes
  selfClosed_eq : x.selfClosed = y.selfClosed

theorem startTag?_cons_of_ne (hc : c ≠ '<') (s : Text) : startTag? (c :: s) = none := by
  unfold startTag?
  split
  · rename_i h
    exact absurd (List.cons.inj h).1 hc
  · rfl

theorem inline_element (hc : c.isAlpha = true) (s : Text) :
    Inline (c :: s.takeWhile isElementChar) := by
  have h : ∀ d ∈ c :: s.takeWhile isElementChar, isElementChar d = true :=
    List.forall_mem_cons.2
      ⟨isElementChar_of_isAlpha hc, List.all_eq_true.1 List.all_takeWhile⟩
  exact ⟨fun hr => absurd (h _ hr) (by decide), fun hn => absurd (h _ hn) (by decide)⟩

theorem sameReading_startTag? (h : SameLines s t) :
    SameReading SameTag (startTag? s) (startTag? t) := by
  cases h with
  | nil => exact .none
  | lineEnd h =>
    rw [startTag?_cons_of_ne (by decide), startTag?_cons_of_ne (by decide)]
    exact .none
  | @char c s t hc h =>
    by_cases hlt : c = '<'
    · subst hlt
      cases h with
      | nil => exact .none
      | @lineEnd s t h => exact .none
      | @char d s t hd h =>
        rw [startTag?, startTag?, h.takeWhile_eq (q := isElementChar) rfl rfl]
        split
        · rename_i hd
          have hin := inline_element hd t
          have hdrop := h.dropWhile (q := isElementChar) rfl
          have hcut := hdrop.cut? (c := '>') (by decide) (by decide)
          generalize Text.cut? '>' (s.dropWhile isElementChar) = x,
            Text.cut? '>' (t.dropWhile isElementChar) = y at hcut ⊢
          cases hcut with
          | none => exact .none
          | some hcut =>
            obtain ⟨h, hrest⟩ := hcut
            dsimp only
            rw [← h.getLast?_eq]
            split
            · rename_i hl
              exact .some ⟨⟨hin, rfl, h.dropLast (by rw [hl]; decide), rfl⟩, hrest⟩
            · exact .some ⟨⟨hin, rfl, h, rfl⟩, hrest⟩
        · exact .none
    · rw [startTag?_cons_of_ne hlt, startTag?_cons_of_ne hlt]
      exact .none

theorem sameReading_firstStartTag? (h : SameLines s t) :
    SameReading SameTag (firstStartTag? s) (firstStartTag? t) := by
  induction h with
  | nil => exact .none
  | char hc h ih => exact rel_or (sameReading_startTag? (.char hc h)) ih
  | lineEnd h ih =>
    rw [firstStartTag?, firstStartTag?, firstStartTag?, startTag?_cons_of_ne (by decide),
      startTag?_cons_of_ne (by decide), startTag?_cons_of_ne (by decide)]
    exact ih

end Tags

section Contents

theorem opensAt_eq (he : Inline e) (h : SameLines s t) : opensAt e s = opensAt e t := by
  have hlt : Inline (['<'] ++ e) := .append (by decide) he
  have hr : Option.Rel SameLines (Text.after? ('<' :: e) s) (Text.after? ('<' :: e) t) :=
    h.after? hlt
  unfold opensAt
  generalize Text.after? ('<' :: e) s = x, Text.after? ('<' :: e) t = y at hr ⊢
  cases hr with
  | none => rfl
  | some hr => cases hr <;> rfl

theorem inline_endTag (he : Inline e) : Inline (endTag e) :=
  .append (.append (by decide) he) (by decide)

theorem sameReading_contentOf? (he : Inline e) (h : SameLines s t) :
    SameReading SameLines (contentOf? e depth s) (contentOf? e depth t) := by
  induction h generalizing depth with
  | nil => exact .none
  | @char c s t hc h ih =>
    have hcons : ∀ d, SameReading SameLines
        ((contentOf? e d s).map fun p => (c :: p.1, p.2))
        ((contentOf? e d t).map fun p => (c :: p.1, p.2)) := fun d =>
      rel_map ih fun _ _ h => ⟨.char hc h.1, h.2⟩
    have ha := (SameLines.char hc h).after? (inline_endTag he)
    rw [contentOf?, contentOf?, opensAt_eq he (.char hc h)]
    generalize Text.after? (endTag e) (c :: s) = x, Text.after? (endTag e) (c :: t) = y at ha ⊢
    cases ha with
    | none => exact hcons _
    | some ha =>
      dsimp only
      split
      · exact .some ⟨.nil, ha⟩
      · exact hcons _
  | lineEnd h ih =>
    rw [contentOf?_cons_of_ne (by decide), contentOf?_cons_of_ne (by decide),
      contentOf?_cons_of_ne (by decide), Option.map_map]
    exact rel_map ih fun _ _ h => ⟨.lineEnd h.1, h.2⟩

structure SameElement (x y : SourceElement) : Prop where
  element_eq : x.element = y.element
  name : Option.Rel SameLines x.name y.name
  content : SameLines x.content y.content

theorem sameReading_sourceElement? (h : SameLines s t) :
    SameReading SameElement (sourceElement? s) (sourceElement? t) := by
  refine rel_bind (sameReading_firstStartTag? h) fun ⟨x, s⟩ ⟨y, t⟩ ⟨hxy, h⟩ => ?_
  have hname : Option.Rel SameLines (nameAttribute? false x.attributes)
      (nameAttribute? false y.attributes) := rel_nameAttribute? hxy.attributes
  dsimp only at hxy h ⊢
  rw [← hxy.element_eq, ← hxy.selfClosed_eq]
  split
  · exact .some ⟨⟨rfl, hname, .nil⟩, h⟩
  · exact rel_map (sameReading_contentOf? hxy.inline h) fun _ _ h => ⟨⟨rfl, hname, h.1⟩, h.2⟩

theorem sourceElements_forall₂ (h : SameLines s t) :
    List.Forall₂ SameElement (sourceElements s) (sourceElements t) := by
  induction hk : s.length using Nat.strongRecOn generalizing s t with
  | ind k ih =>
    have hread := sameReading_sourceElement? h
    cases hs : sourceElement? s <;> cases ht : sourceElement? t <;> rw [hs, ht] at hread <;>
      cases hread
    · rw [sourceElements_of_none hs, sourceElements_of_none ht]
      exact .nil
    · rename_i h
      rw [sourceElements_of_some hs, sourceElements_of_some ht]
      exact .cons h.1 (ih _ (hk ▸ (sourceElement?_eq_some hs).1) h.2 rfl)

end Contents

section Members

theorem memberBody?_cons (c : Char) (s : Text) : memberBody? (c :: s) =
    ((memberEnd? (c :: s)).map fun rest => ([], rest)).or
      ((memberBody? s).map fun p => (c :: p.1, p.2)) := by
  cases h : memberEnd? (c :: s) with
  | none => exact memberBody?_of_none h
  | some rest => exact memberBody?_of_some h

theorem rel_memberEnd? (h : SameLines s t) :
    Option.Rel SameLines (memberEnd? s) (memberEnd? t) :=
  rel_bind (h.after? (by decide)) fun _ _ h => (sameLines_skipWhite h).after? (by decide)

theorem sameReading_memberBody? (h : SameLines s t) :
    SameReading SameLines (memberBody? s) (memberBody? t) := by
  induction h with
  | nil => exact .none
  | char hc h ih =>
    rw [memberBody?_cons, memberBody?_cons]
    exact rel_or (rel_map (rel_memberEnd? (.char hc h)) fun _ _ h => ⟨.nil, h⟩)
      (rel_map ih fun _ _ h => ⟨.char hc h.1, h.2⟩)
  | lineEnd h ih =>
    rw [memberBody?_of_none (onlyAt_memberEnd? _ _ (by decide)),
      memberBody?_of_none (onlyAt_memberEnd? _ _ (by decide)),
      memberBody?_of_none (onlyAt_memberEnd? _ _ (by decide)), Option.map_map]
    exact rel_map ih fun _ _ h => ⟨.lineEnd h.1, h.2⟩

structure SameMember (x y : SourceMember) : Prop where
  id : SameLines x.id y.id
  elements : List.Forall₂ SameElement x.elements y.elements

theorem sameReading_sourceMember? (h : SameLines s t) :
    SameReading SameMember (sourceMember? s) (sourceMember? t) := by
  refine rel_bind (h.after? (by decide)) fun s t h => rel_bind (sameLines_someWhite? h) fun s t h =>
    rel_bind (h.after? (by decide)) fun s t h =>
      rel_bind (sameReading_equalsQuoted? h) fun ⟨x, s⟩ ⟨y, t⟩ ⟨hid, h⟩ => ?_
  have h := sameLines_skipWhite h
  have hclosed := h.after? (p := "/>") (by decide)
  dsimp only at hid h hclosed ⊢
  generalize Text.after? "/>" (skipWhite s) = x', Text.after? "/>" (skipWhite t) = y' at hclosed ⊢
  cases hclosed with
  | some hclosed => exact .some ⟨⟨hid, .nil⟩, hclosed⟩
  | none =>
    exact rel_bind (h.after? (by decide)) fun s t h =>
      rel_bind (sameReading_memberBody? h) fun p q h =>
        .some ⟨⟨hid, sourceElements_forall₂ h.1⟩, h.2⟩

theorem memberBody?_length_le {body rest : Text} (h : memberBody? s = some (body, rest)) :
    rest.length ≤ s.length := by
  induction s generalizing body with
  | nil => cases h
  | cons c s ih =>
    rw [memberBody?_cons, Option.or_eq_some_iff] at h
    rcases h with h | ⟨-, h⟩
    · obtain ⟨r, hr, h⟩ := Option.map_eq_some_iff.1 h
      cases h
      obtain ⟨s', hs', h⟩ := Option.bind_eq_some_iff.1 hr
      have h₁ := Text.length_after? hs'
      have h₂ := Text.length_after? h
      have h₃ := length_skipWhite_le s'
      omega
    · obtain ⟨p, hp, h⟩ := Option.map_eq_some_iff.1 h
      cases h
      exact Nat.le_succ_of_le (ih hp)

theorem shortens_sourceMember? : Text.Shortens sourceMember? := fun s p h => by
  obtain ⟨s₁, h₁, h⟩ := Option.bind_eq_some_iff.1 h
  obtain ⟨s₂, h₂, h⟩ := Option.bind_eq_some_iff.1 h
  obtain ⟨s₃, h₃, h⟩ := Option.bind_eq_some_iff.1 h
  obtain ⟨⟨id, s₄⟩, h₄, h⟩ := Option.bind_eq_some_iff.1 h
  have hlt : (skipWhite s₄).length < s.length := by
    have l₁ := Text.length_after? h₁
    have l₂ := someWhite?_length_lt h₂
    have l₃ := Text.length_after? h₃
    have l₄ := equalsQuoted?_length_lt h₄
    have l₅ := length_skipWhite_le s₄
    omega
  dsimp only at h
  split at h
  · rename_i rest hr
    cases h
    have l := Text.length_after? hr
    dsimp only
    omega
  · obtain ⟨s₅, h₅, h⟩ := Option.bind_eq_some_iff.1 h
    obtain ⟨⟨body, rest⟩, h₆, h⟩ := Option.bind_eq_some_iff.1 h
    cases h
    have l₅ := Text.length_after? h₅
    have l₆ := memberBody?_length_le h₆
    dsimp only
    omega

theorem onlyAt_sourceMember? : Text.OnlyAt '<' sourceMember? := fun c cs h => by
  have ha : Text.after? "<member" (c :: cs) = none := Text.after?_cons_of_ne h
  rw [sourceMember?, ha]
  rfl

theorem sourceMembers_forall₂ (h : SameLines s t) :
    List.Forall₂ SameMember (sourceMembers s) (sourceMembers t) :=
  h.collect (fun _ _ => sameReading_sourceMember?) shortens_sourceMember? onlyAt_sourceMember?
    (by decide)

end Members

end ApiBook.Xml
