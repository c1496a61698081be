import ApiBook.Proofs.Script.Description
import ApiBook.Proofs.Script.Tag

/-! # Remainders of result lines

What stands behind the type on the last result line with text is the result text of a method. It is
divided like the declaration of a parameter and put together again with one space. It is kept whole
unless it starts with a name, and brackets around the name, a gap other than one space or a dash
behind the gap are lost.
-/

namespace ApiBook.Script

variable {s t name tag line : Text} {above front back below : List Text}

/-- The text behind a type in braces, all of it when there is none. -/
def behindType : Text → Text
  | '{' :: s => (Text.cut? '}' s).elim ('{' :: s) Prod.snd
  | s => s

theorem behindType_of_head? (h : s.head? ≠ some '{') : behindType s = s := by
  unfold behindType
  split
  · exact absurd rfl h
  · rfl

/-- What a tag says behind the type and the blanks that follow it. -/
def TagLine.remainder : TagLine → Text
  | .tag _ rest => Text.dropBlanks (behindType rest)
  | _ => []

/-- A text that reads like the declaration of a parameter: a name, to which a square bracket may
stick at either side, and a description behind a gap that starts with a blank. -/
structure NamedText where
  left : Text
  name : Text
  right : Text
  gap : Text
  description : Text
  left_eq : left = [] ∨ left = ['[']
  isName : IsName name
  right_eq : right = [] ∨ right = [']']
  blank : ∀ c ∈ gap.head?, Text.isBlank c = true
  white : ∀ c ∈ gap, Text.isWhite c = true
  gap_eq_nil_iff : gap = [] ↔ description = []
  startsNot : Text.StartsNot Text.isWhite description

namespace NamedText

variable {x : NamedText}

def text (x : NamedText) : Text := x.left ++ (x.name ++ (x.right ++ (x.gap ++ x.description)))

/-- The name and the description without a dash in front, with one space between them. -/
def joined (x : NamedText) : Text := x.name ++ descriptionPart (dropDash x.description)

/-- Nothing sticks to the name, one space is the gap and the description starts with no dash. -/
structure IsPlain (x : NamedText) : Prop where
  left : x.left = []
  right : x.right = []
  gap : x.gap = [] ∨ x.gap = [' ']
  notDash : x.description.head? ≠ some '-'

theorem head?_gap_append_ne {a : Char} (ha : Text.isBlank a = false) (x : NamedText) :
    (x.gap ++ x.description).head? ≠ some a := by
  have hb := x.blank
  cases hg : x.gap with
  | nil => simp [x.gap_eq_nil_iff.1 hg]
  | cons b g =>
    rw [hg] at hb
    rintro ⟨⟩
    exact Bool.false_ne_true (ha.symm.trans (hb a rfl))

theorem startsNot_isNameChar (x : NamedText) :
    Text.StartsNot isNameChar (x.right ++ (x.gap ++ x.description)) := by
  rcases x.right_eq with hr | hr
  · rw [hr, List.nil_append]
    intro c hc
    cases hn : isNameChar c with
    | false => rfl
    | true =>
      have hb := Text.isBlank_of_not_isWhite (isWhite_of_isNameChar hn)
      exact absurd hc (x.head?_gap_append_ne hb)
  · rw [hr]
    exact .cons rfl _

@[simp] theorem dropBracket_text (x : NamedText) :
    dropBracket '[' x.text = x.name ++ (x.right ++ (x.gap ++ x.description)) := by
  rw [text]
  rcases x.left_eq with hl | hl
  · rw [hl, List.nil_append]
    exact dropBracket_of_head? (x.isName.head?_append_ne rfl _)
  · rw [hl]
    rfl

@[simp] theorem dropBracket_right (x : NamedText) :
    dropBracket ']' (x.right ++ (x.gap ++ x.description)) = x.gap ++ x.description := by
  rcases x.right_eq with hr | hr
  · rw [hr, List.nil_append]
    exact dropBracket_of_head? (x.head?_gap_append_ne rfl)
  · rw [hr]
    rfl

theorem splitName?_text (hn : '\n' ∉ x.text) :
    splitName? x.text = some (x.name, Text.dropBlanks (x.gap ++ x.description)) := by
  have hsingle : '\n' ∉ x.gap ++ x.description := by
    simp only [text, List.mem_append, not_or] at hn ⊢
    exact hn.2.2.2
  have hname := x.isName
  rw [splitName?, dropBracket_text]
  cases h : x.name with
  | nil => exact (h ▸ hname : IsName []).elim
  | cons c cs =>
    rw [h] at hname
    have hcs := List.all_eq_true.1 hname.2
    simp only [List.cons_append, hname.1, if_true,
      Text.dropWhile_append hcs x.startsNot_isNameChar,
      Text.takeWhile_append hcs x.startsNot_isNameChar, dropBracket_right]
    cases hgap : x.gap ++ x.description with
    | nil => rfl
    | cons b rest =>
      have hb : Text.isBlank b = true := by
        by_contra hb
        exact x.head?_gap_append_ne (Bool.not_eq_true _ ▸ hb) (hgap ▸ rfl)
      have hrest : '\n' ∉ Text.dropBlanks rest := fun h => hsingle <| by
        rw [hgap]
        exact List.mem_cons_of_mem b ((List.dropWhile_suffix _).mem h)
      have hdrop : Text.dropBlanks (b :: rest) = Text.dropBlanks rest :=
        List.dropWhile_cons_of_pos hb
      simp only [hb, isSingleLine_iff.2 hrest, Bool.and_self, if_true, hdrop]

theorem joined_of_ne_nil (h : dropDash x.description ≠ []) :
    x.joined = x.name ++ ' ' :: dropDash x.description := by
  rw [joined, descriptionPart, if_neg h]

theorem length_joined_le (x : NamedText) :
    x.joined.length ≤ x.name.length + (dropDash x.description).length + 1 := by
  rw [joined, descriptionPart]
  split <;> simp [Nat.add_assoc]

theorem length_dropDash_lt (h : t.head? = some '-') : (dropDash t).length < t.length := by
  obtain ⟨t, rfl⟩ := List.head?_eq_some_iff.1 h
  exact Nat.lt_succ_of_le (List.dropWhile_suffix _).length_le

@[simp] theorem length_text (x : NamedText) : x.text.length =
    x.left.length + x.name.length + x.right.length + x.gap.length + x.description.length := by
  simp only [text, List.length_append]
  omega

/-- Whatever is lost makes the text shorter, so only a gap of another single blank is left. -/
theorem isPlain_of_joined (h : x.joined = x.text) : x.IsPlain := by
  have hlen := congrArg List.length h
  rw [length_text] at hlen
  by_cases hd : x.description = []
  · have hj : x.joined = x.name := by simp [joined, hd, dropDash, descriptionPart]
    rw [hj] at hlen
    have hl : x.left = [] := List.length_eq_zero_iff.1 (by omega)
    have hr : x.right = [] := List.length_eq_zero_iff.1 (by omega)
    exact ⟨hl, hr, .inl (x.gap_eq_nil_iff.2 hd), by simp [hd]⟩
  · have hg : 0 < x.gap.length := List.length_pos_iff.2 fun hg => hd (x.gap_eq_nil_iff.1 hg)
    have hdash : x.description.head? ≠ some '-' := fun hdash => by
      have hlt := length_dropDash_lt hdash
      have hle := x.length_joined_le
      omega
    have hkeep := dropDash_of_head? hdash
    have hj := joined_of_ne_nil (hkeep.symm ▸ hd)
    rw [hkeep] at hj
    rw [hj, List.length_append, List.length_cons] at hlen
    have hl : x.left = [] := List.length_eq_zero_iff.1 (by omega)
    have hr : x.right = [] := List.length_eq_zero_iff.1 (by omega)
    obtain ⟨b, hb⟩ : ∃ b, x.gap = [b] := List.length_eq_one_iff.1 (by omega)
    have hspace : b = ' ' := by
      rw [hj, text, hl, hr, hb] at h
      simpa [eq_comm] using h
    exact ⟨hl, hr, .inr (hspace ▸ hb), hdash⟩

theorem IsPlain.joined_eq (h : x.IsPlain) : x.joined = x.text := by
  rw [joined, text, h.left, h.right, dropDash_of_head? h.notDash, descriptionPart]
  by_cases hd : x.description = []
  · simp [hd, x.gap_eq_nil_iff.2 hd]
  · have hg : x.gap = [' '] := h.gap.resolve_left fun hg => hd (x.gap_eq_nil_iff.1 hg)
    simp [hd, hg]

end NamedText

theorem exists_bracket (b : Char) (s : Text) :
    ∃ a, (a = [] ∨ a = [b]) ∧ s = a ++ dropBracket b s := by
  cases s with
  | nil => exact ⟨[], .inl rfl, rfl⟩
  | cons c s =>
    by_cases hc : c = b
    · exact ⟨[b], .inr rfl, by simp [dropBracket, hc]⟩
    · exact ⟨[], .inl rfl, by simp [dropBracket, hc]⟩

section Gaps

variable {rest : Text}

theorem blank_of_gap (hb : ∀ b ∈ rest.head?, Text.isBlank b = true) :
    ∀ b ∈ (rest.takeWhile Text.isWhite).head?, Text.isBlank b = true := by
  cases rest with
  | nil => exact hb
  | cons c rest =>
    rw [List.takeWhile_cons_of_pos (Text.isWhite_of_isBlank (hb c rfl))]
    exact hb

theorem gap_eq_nil_iff (hb : ∀ b ∈ rest.head?, Text.isBlank b = true)
    (he : Text.EndsNot Text.isWhite rest) :
    rest.takeWhile Text.isWhite = [] ↔ rest.dropWhile Text.isWhite = [] := by
  cases rest with
  | nil => exact Iff.rfl
  | cons c rest =>
    have hc := Text.isWhite_of_isBlank (hb c rfl)
    exact iff_of_false (by simp [hc]) fun hd => absurd (he.eq_nil_of_dropWhile hd) (by simp)

end Gaps

/-- Whatever is divided into a name and a description is a named text. -/
theorem exists_namedText {p : Text × Text} (h : splitName? s = some p)
    (he : Text.EndsNot Text.isWhite s) : ∃ x : NamedText, x.text = s := by
  obtain ⟨left, hl, hs⟩ := exists_bracket '[' s
  rw [splitName?] at h
  cases hd : dropBracket '[' s with
  | nil => simp [hd] at h
  | cons c cs =>
    simp only [hd] at h
    split at h
    · rename_i hc
      obtain ⟨right, hr, hrest⟩ := exists_bracket ']' (cs.dropWhile isNameChar)
      have hname : IsName (c :: cs.takeWhile isNameChar) :=
        ⟨hc, List.all_takeWhile⟩
      have happ : s = left ++ ((c :: cs.takeWhile isNameChar) ++
          (right ++ dropBracket ']' (cs.dropWhile isNameChar))) := by
        rw [← hrest, List.cons_append, List.takeWhile_append_dropWhile, ← hd]
        exact hs
      generalize dropBracket ']' (cs.dropWhile isNameChar) = rest at h happ
      have hblank : ∀ b ∈ rest.head?, Text.isBlank b = true := by
        rintro b hb
        obtain ⟨rest, rfl⟩ := List.head?_eq_some_iff.1 hb
        by_contra hn
        simp [hn] at h
      have hends : Text.EndsNot Text.isWhite rest := by
        rw [happ, ← List.append_assoc, ← List.append_assoc] at he
        exact he.of_append
      exact ⟨⟨left, c :: cs.takeWhile isNameChar, right, _, _, hl, hname, hr,
        blank_of_gap hblank, fun _ => List.all_eq_true.1 List.all_takeWhile _,
        gap_eq_nil_iff hblank hends, Text.startsNot_dropWhile Text.isWhite rest⟩,
        by rw [NamedText.text, List.takeWhile_append_dropWhile, ← happ]⟩
    · cases h

section Lines

variable {raw rest : Text}

theorem tagParts?_rest (h : tagParts? s = some (name, rest)) :
    '\n' ∉ rest ∧ Text.trim rest = rest := by
  unfold tagParts? at h
  split at h
  · rename_i c cs
    simp only at h
    split at h
    · split at h
      · rename_i hs
        simp only [Option.some.injEq, Prod.mk.injEq] at h
        obtain ⟨-, rfl⟩ := h
        exact ⟨fun hn => isSingleLine_iff.1 hs (Text.mem_of_mem_trim hn),
          Text.trim_eq_self_iff.2 ⟨Text.startsNot_trim _, Text.endsNot_trim _⟩⟩
      · cases h
    · cases h
  · cases h

/-- The text behind a tag is a single line without white space at either end. -/
theorem rest_of_ofText (h : TagLine.ofText raw = .tag name rest) :
    '\n' ∉ rest ∧ Text.trim rest = rest := by
  simp only [TagLine.ofText] at h
  split at h
  · cases h
  · split at h
    · cases h
    · split at h
      · rename_i hp
        cases h
        exact tagParts?_rest hp
      · cases h

theorem splitType_snd (hn : '\n' ∉ s) (hs : Text.StartsNot Text.isWhite s) :
    (splitType s).2 = Text.dropBlanks (behindType s) := by
  by_cases hb : s.head? = some '{'
  · obtain ⟨t, rfl⟩ := List.head?_eq_some_iff.1 hb
    cases hc : Text.cut? '}' t with
    | none => simp [splitType, behindType, hc, hs.dropBlanks_eq]
    | some p =>
      obtain ⟨typeName, rest⟩ := p
      have hmem : '\n' ∉ Text.dropBlanks rest := fun h => hn <| by
        rw [(Text.cut?_eq_some hc).1]
        have hr := (List.dropWhile_suffix _).mem h
        simp [hr]
      simp [splitType, behindType, hc, isSingleLine_iff.2 hmem]
  · rw [splitType_of_head? hb, behindType_of_head? hb, hs.dropBlanks_eq]

theorem behindType_suffix (s : Text) : behindType s <:+ s := by
  unfold behindType
  split
  · rename_i t
    cases hc : Text.cut? '}' t with
    | none => exact List.suffix_refl _
    | some p =>
      refine ⟨'{' :: (p.1 ++ ['}']), ?_⟩
      simp [(Text.cut?_eq_some hc).1]
  · exact List.suffix_refl _

theorem remainder_of_ofText (h : TagLine.ofText raw = .tag name rest) :
    (splitType rest).2 = (TagLine.ofText raw).remainder ∧
      '\n' ∉ (TagLine.ofText raw).remainder ∧
      Text.EndsNot Text.isWhite (TagLine.ofText raw).remainder := by
  obtain ⟨hn, ht⟩ := rest_of_ofText h
  obtain ⟨hs, he⟩ := Text.trim_eq_self_iff.1 ht
  have hsuf : Text.dropBlanks (behindType rest) <:+ rest :=
    (List.dropWhile_suffix _).trans (behindType_suffix rest)
  rw [h]
  refine ⟨splitType_snd hn hs, fun hm => hn (hsuf.mem hm), ?_⟩
  obtain ⟨front, hfront⟩ := hsuf
  rw [← hfront] at he
  exact he.of_append

end Lines

section Results

variable {x : NamedText} {d : Declared} {rest : Text}

theorem resultText_of_text (hr : (splitType rest).2 = x.text) (hn : '\n' ∉ x.text)
    (he : Text.EndsNot Text.isWhite x.text) :
    Declaration.resultText (Declared.ofText rest) = x.joined := by
  have hd : Text.EndsNot Text.isWhite x.description := by
    simp only [NamedText.text, ← List.append_assoc] at he
    exact he.of_append
  have htrim : Text.trim (Text.dropBlanks (x.gap ++ x.description)) = x.description := by
    rw [Text.trim_dropBlanks, Text.trim_append x.white]
    exact Text.trim_eq_self_iff.2 ⟨x.startsNot, hd⟩
  simp only [Declared.ofText, hr, NamedText.splitName?_text hn, htrim, Declaration.resultText,
    NamedText.joined, descriptionPart]
  split <;> simp

theorem resultText_of_forall_ne (hx : ∀ x : NamedText, x.text ≠ (splitType rest).2)
    (he : Text.EndsNot Text.isWhite (splitType rest).2) :
    Declaration.resultText (Declared.ofText rest) = Text.trim (splitType rest).2 := by
  cases hs : splitName? (splitType rest).2 with
  | none => simp only [Declared.ofText, hs, Declaration.resultText]
  | some p =>
    obtain ⟨x, h⟩ := exists_namedText hs he
    exact absurd h (hx x)

theorem NamedText.startsNot_text (x : NamedText) : Text.StartsNot Text.isWhite x.text := by
  rw [text]
  rcases x.left_eq with hl | hl
  · rw [hl, List.nil_append]
    exact startsNot_name_append x.isName _
  · rw [hl]
    exact .cons rfl _

theorem NamedText.joined_ne_nil (x : NamedText) : x.joined ≠ [] :=
  List.append_ne_nil_of_left_ne_nil x.isName.ne_nil _

theorem resultText_eq_trim_iff (hn : '\n' ∉ (splitType rest).2)
    (he : Text.EndsNot Text.isWhite (splitType rest).2) :
    Declaration.resultText (Declared.ofText rest) = Text.trim (splitType rest).2 ↔
      ∀ x : NamedText, x.text = (splitType rest).2 → x.IsPlain := by
  constructor
  · intro h x hx
    rw [← hx] at hn he
    rw [resultText_of_text hx.symm hn he, ← hx,
      Text.trim_eq_self_iff.2 ⟨x.startsNot_text, he⟩] at h
    exact x.isPlain_of_joined h
  · intro h
    by_cases hx : ∃ x : NamedText, x.text = (splitType rest).2
    · obtain ⟨x, hx⟩ := hx
      have hp := h x hx
      rw [← hx] at hn he
      rw [resultText_of_text hx.symm hn he, ← hx,
        Text.trim_eq_self_iff.2 ⟨x.startsNot_text, he⟩, hp.joined_eq]
    · exact resultText_of_forall_ne (fun x h => hx ⟨x, h⟩) he

theorem resultText_eq_nil_iff (hn : '\n' ∉ (splitType rest).2)
    (he : Text.EndsNot Text.isWhite (splitType rest).2) :
    Declaration.resultText (Declared.ofText rest) = [] ↔ (splitType rest).2 = [] := by
  by_cases hx : ∃ x : NamedText, x.text = (splitType rest).2
  · obtain ⟨x, hx⟩ := hx
    rw [← hx] at hn he
    rw [resultText_of_text hx.symm hn he, ← hx]
    refine iff_of_false x.joined_ne_nil (List.append_ne_nil_of_right_ne_nil _ ?_)
    exact List.append_ne_nil_of_left_ne_nil x.isName.ne_nil _
  · rw [resultText_of_forall_ne (fun x h => hx ⟨x, h⟩) he]
    exact ⟨he.eq_nil_of_trim, fun h => by rw [h]; rfl⟩

end Results

section Pieces

variable {l : TagLine} {ls : List TagLine} {r : Declared}

theorem TagLine.piece_of_returns (h : l.keyword? = some .returns) :
    l.piece = .result l.declared := by
  cases l with
  | blank | text _ | default _ => cases h
  | tag name rest =>
    have hk : Keyword.ofName name = .returns := Option.some.inj h
    simp only [piece, hk, declared]

theorem TagLine.returns_of_piece (h : l.piece = .result r) :
    l.keyword? = some .returns ∧ r = l.declared := by
  cases l with
  | blank | text _ | default _ => cases h
  | tag name rest =>
    simp only [piece] at h
    split at h
    · cases hn : (Declared.ofText rest).name <;> simp [hn] at h
    · rename_i hk
      exact ⟨congrArg some hk, (Piece.result.inj h).symm⟩
    all_goals cases h

theorem resultTexts_eq_nil
    (h : ∀ l ∈ ls, l.keyword? = some .returns → Declaration.resultText l.declared = []) :
    Piece.resultTexts (ls.map TagLine.piece) = [] := by
  rw [Piece.resultTexts, List.filter_eq_nil_iff]
  intro t ht
  obtain ⟨r, hr, rfl⟩ := List.mem_map.1 ht
  rw [Piece.results, List.filterMap_map, List.mem_filterMap] at hr
  obtain ⟨l, hl, hr⟩ := hr
  cases hp : l.piece <;> simp [hp] at hr
  obtain ⟨hk, hd⟩ := TagLine.returns_of_piece hp
  rw [← hr, hd, h l hl hk]
  simp

theorem getLast?_resultTexts {front back : List TagLine} (hk : l.keyword? = some .returns)
    (ht : Declaration.resultText l.declared ≠ [])
    (hb : ∀ l ∈ back, l.keyword? = some .returns → Declaration.resultText l.declared = []) :
    (Piece.resultTexts ((front ++ l :: back).map TagLine.piece)).getLast? =
      some (Declaration.resultText l.declared) := by
  have happ : Piece.resultTexts ((front ++ l :: back).map TagLine.piece) =
      Piece.resultTexts (front.map TagLine.piece) ++ Declaration.resultText l.declared ::
        Piece.resultTexts (back.map TagLine.piece) := by
    simp [Piece.resultTexts, Piece.results, TagLine.piece_of_returns hk, ht]
  rw [happ, resultTexts_eq_nil hb, List.getLast?_concat]

end Pieces

section ResultLines

variable {k : Keyword}

def TagLine.result (l : TagLine) : Text := Declaration.resultText l.declared

theorem TagLine.opens_of_returns {l : TagLine} (h : l.keyword? = some .returns) :
    l.opens = false := by
  rw [opens, h]
  rfl

theorem exists_tag {l : TagLine} (h : l.keyword? = some k) : ∃ name rest, l = .tag name rest := by
  cases l with
  | blank | text _ | default _ => cases h
  | tag name rest => exact ⟨name, rest, rfl⟩

theorem result_of_text (hk : (TagLine.ofText line).keyword? = some k) {x : NamedText}
    (hx : x.text = (TagLine.ofText line).remainder) : (TagLine.ofText line).result = x.joined := by
  obtain ⟨name, rest, h⟩ := exists_tag hk
  obtain ⟨hs, hn, he⟩ := remainder_of_ofText h
  rw [← hx] at hs hn he
  rw [TagLine.result, h]
  exact resultText_of_text hs hn he

theorem result_eq_remainder_iff (hk : (TagLine.ofText line).keyword? = some k) :
    (TagLine.ofText line).result = Text.trim (TagLine.ofText line).remainder ↔
      ∀ x : NamedText, x.text = (TagLine.ofText line).remainder → x.IsPlain := by
  obtain ⟨name, rest, h⟩ := exists_tag hk
  obtain ⟨hs, hn, he⟩ := remainder_of_ofText h
  rw [← hs] at hn he ⊢
  rw [TagLine.result, h]
  exact resultText_eq_trim_iff hn he

theorem result_eq_nil_iff (hk : (TagLine.ofText line).keyword? = some k) :
    (TagLine.ofText line).result = [] ↔ (TagLine.ofText line).remainder = [] := by
  obtain ⟨name, rest, h⟩ := exists_tag hk
  obtain ⟨hs, hn, he⟩ := remainder_of_ofText h
  rw [← hs] at hn he ⊢
  rw [TagLine.result, h]
  exact resultText_eq_nil_iff hn he

/-- The last result line with text in the segment of a method gives its result text. The text is
all that the line says behind the type, white space at the ends apart, exactly when what looks like
a name at its start is plain; otherwise it is that name and the description, with one space between
them. -/
theorem result_keeps_remainder_iff (above : List Text)
    (hm : (TagLine.ofText tag).keyword? = some .method)
    (hn : (TagLine.ofText tag).declared.name = some name)
    (hbody : ∀ l ∈ front ++ back, (TagLine.ofText l).opens = false) (hbelow : StartsAtTag below)
    (hline : (TagLine.ofText line).keyword? = some .returns)
    (ht : (TagLine.ofText line).remainder ≠ [])
    (hback : ∀ l ∈ back, (TagLine.ofText l).keyword? = some .returns →
      (TagLine.ofText l).remainder = []) :
    ∃ d type ps text rest, notes (above ++ tag :: ((front ++ line :: back) ++ below)) =
        notes above ++ .declared d :: rest ∧
      d.name = name ∧ d.subject = .member type (.method ps (some text)) ∧
      (∀ x : NamedText, x.text = (TagLine.ofText line).remainder → text = x.joined) ∧
      (text = Text.trim (TagLine.ofText line).remainder ↔
        ∀ x : NamedText, x.text = (TagLine.ofText line).remainder → x.IsPlain) := by
  have ho : (TagLine.ofText tag).opens = true := by
    rw [TagLine.opens, hm]
    rfl
  have hc : ∀ l ∈ (front ++ line :: back).map TagLine.ofText, l.opens = false := by
    have hl := TagLine.opens_of_returns hline
    simpa [or_imp, forall_and, hl] using hbody
  have hlast : (Piece.resultTexts (((front ++ line :: back).map TagLine.ofText).map
      TagLine.piece)).getLast? = some (TagLine.ofText line).result := by
    rw [List.map_append, List.map_cons]
    refine getLast?_resultTexts hline (fun h => ht ((result_eq_nil_iff hline).1 h)) ?_
    intro l hl hk
    obtain ⟨raw, hraw, rfl⟩ := List.mem_map.1 hl
    exact (result_eq_nil_iff hk).2 (hback raw hraw hk)
  obtain ⟨lead, waiting, rest, hnotes⟩ := notes_append_tag above ho hc hbelow
  generalize hs : Segment.mk _ _ ho hc = s at hnotes
  have hfill : ∃ type ps, (s.subject waiting).fill s.pieces =
      .member type (.method ps (some (TagLine.ofText line).result)) := by
    rw [← hs]
    simp only [Segment.subject, hm, Subject.fill, Segment.pieces, hlast]
    exact ⟨_, _, rfl⟩
  obtain ⟨type, ps, hfill⟩ := hfill
  have hname : s.opener.declared.name = some name := hs ▸ hn
  rw [hnotes, Segment.notes, Segment.declaration?, hname, hfill]
  exact ⟨_, type, ps, _, _, rfl, rfl, rfl, fun x => result_of_text hline,
    result_eq_remainder_iff hline⟩

/-- A result text above it is replaced, a type without a text below it does not matter, and a dash
inside a description stays. -/
theorem result_keeps_remainder_of_dash :
    let above : List Text := ["@event Shown"]
    let front : List Text := ["Opens.", "@return [value] of the box"]
    let back : List Text := ["@param {A} a - first", "@returns {B}"]
    let below : List Text := ["@property Width"]
    ∃ d type ps rest, notes (above ++ "@method open".toList ::
        ((front ++ "@returns {Number} Nothing useful - really ".toList :: back) ++ below)) =
          notes above ++ .declared d :: rest ∧
      d.name = "open".toList ∧
      d.subject = .member type (.method ps (some "Nothing useful - really".toList)) := by
  intro above front back below
  have hm : (TagLine.ofText "@method open").keyword? = some .method := by decide +kernel
  have hn : (TagLine.ofText "@method open").declared.name = some "open".toList := by
    decide +kernel
  have hbody : ∀ l ∈ front ++ back, (TagLine.ofText l).opens = false := by decide +kernel
  have hbelow : StartsAtTag below := by
    intro l hl
    obtain rfl := Option.some.inj hl
    decide +kernel
  have hline : (TagLine.ofText "@returns {Number} Nothing useful - really ").keyword? =
      some .returns := by decide +kernel
  have hr : (TagLine.ofText "@returns {Number} Nothing useful - really ").remainder =
      "Nothing useful - really".toList := by decide +kernel
  have hback : ∀ l ∈ back, (TagLine.ofText l).keyword? = some .returns →
      (TagLine.ofText l).remainder = [] := by decide +kernel
  have hplain := (result_eq_remainder_iff hline).1 (by decide +kernel)
  obtain ⟨d, type, ps, text, rest, hd, hname, hsubject, -, htext⟩ :=
    result_keeps_remainder_iff above hm hn hbody hbelow hline (by rw [hr]; decide) hback
  refine ⟨d, type, ps, rest, hd, hname, hsubject.trans ?_⟩
  rw [htext.2 hplain, hr]
  rfl

/-- The dash behind the first word of a result text is lost. -/
theorem dash_lost_behind_name :
    notes ["@method f", "@returns value - the result"] =
        [.declared ⟨"f", [], .member [] (.method [] (some "value the result"))⟩] ∧
      (TagLine.ofText "@returns value - the result").remainder =
        "value - the result".toList := by
  decide +kernel

end ResultLines

end ApiBook.Script
