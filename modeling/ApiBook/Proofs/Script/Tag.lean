import ApiBook.Proofs.Script.Printer
import ApiBook.Proofs.Text.Spans

/-! # Reading printed lines

Every printed line is read as what it was printed for, and a declaration gives back its type, its
name and its description.
-/

namespace ApiBook.Script

variable {c : Char} {k n s t d v : Text}

section Names

theorem isNameChar_of_isNameStart (h : isNameStart c = true) : isNameChar c = true := by
  simp only [isNameStart, Bool.or_eq_true, beq_iff_eq] at h
  rcases h with (h | rfl) | rfl
  · rw [isNameChar, Text.isWord_of_isAlpha h]
    rfl
  · rfl
  · rfl

theorem isWhite_of_isNameChar (h : isNameChar c = true) : Text.isWhite c = false :=
  Text.isWhite_of_isWord_or rfl rfl h

theorem IsName.ne_nil (h : IsName n) : n ≠ [] := by
  rintro rfl
  exact h

theorem IsName.isNameChar (h : IsName n) : ∀ c ∈ n, isNameChar c = true := by
  cases n with
  | nil => exact h.elim
  | cons c n =>
    intro d hd
    rcases List.mem_cons.1 hd with rfl | hd
    · exact isNameChar_of_isNameStart h.1
    · exact List.all_eq_true.1 h.2 d hd

theorem IsName.notWhite (h : IsName n) : ∀ c ∈ n, Text.isWhite c = false :=
  fun c hc => isWhite_of_isNameChar (h.isNameChar c hc)

theorem IsName.notMem (h : IsName n) (hc : Script.isNameChar c = false) : c ∉ n :=
  fun hm => Bool.false_ne_true (hc.symm.trans (h.isNameChar c hm))

theorem IsName.head?_append_ne (h : IsName n) (hc : isNameStart c = false) (s : Text) :
    (n ++ s).head? ≠ some c := by
  cases n with
  | nil => exact h.elim
  | cons d n =>
    intro he
    have hd : isNameStart d = true := h.1
    rw [Option.some.inj he, hc] at hd
    exact Bool.noConfusion hd

end Names

section TagLines

/-- Tag names that are printed: an ASCII letter, then tag characters, in lower case. -/
structure IsKeyword (k : Text) : Prop where
  start : ∃ c ∈ k.head?, c.isAlpha
  chars : k.tail.all isTagChar
  endsNot : Text.EndsNot (· == '-') k.tail
  lower : k.map Char.toLower = k

def keywords : List Text := ["class", "property", "event", "method", "param", "returns"]

theorem isKeyword_of_mem (h : k ∈ keywords) : IsKeyword k := by
  simp only [keywords, List.mem_cons, List.not_mem_nil, or_false] at h
  rcases h with rfl | rfl | rfl | rfl | rfl | rfl <;>
    exact ⟨⟨_, rfl, rfl⟩, rfl, by rintro c ⟨⟩; rfl, rfl⟩

@[simp] theorem isSingleLine_iff : isSingleLine s = true ↔ '\n' ∉ s := by
  simp [isSingleLine]

theorem tagParts?_tagLine (hk : IsKeyword k) (ht : Text.trim t = t) (hn : '\n' ∉ t) :
    tagParts? (tagLine k t) = some (k, t) := by
  obtain ⟨c, hc, ha⟩ := hk.start
  obtain ⟨cs, rfl⟩ : ∃ cs, k = c :: cs := List.head?_eq_some_iff.1 hc
  have htake : (cs ++ ' ' :: t).takeWhile isTagChar = cs :=
    Text.takeWhile_append (List.all_eq_true.1 hk.chars) (.cons rfl t)
  have hend : Text.dropEndWhile (· == '-') cs = cs := hk.endsNot.dropEndWhile_eq
  have hdrop : (cs ++ ' ' :: t).drop ((c :: cs).length - 1) = ' ' :: t :=
    List.drop_left
  have hsingle : isSingleLine (' ' :: t) = true := isSingleLine_iff.2 (by simp [hn])
  rw [tagLine, List.cons_append, tagParts?]
  simp only [ha, htake, hend, hdrop, hsingle, if_true, hk.lower, Text.trim_cons (c := ' ') rfl,
    ht]

theorem endsNot_tagLine (ht : Text.EndsNot Text.isWhite t) (hne : t ≠ []) (k : Text) :
    Text.EndsNot Text.isWhite (tagLine k t) :=
  ((ht.cons hne ' ').append_of_ne_nil (List.cons_ne_nil _ _) k).cons
    (List.append_ne_nil_of_right_ne_nil k (List.cons_ne_nil _ _)) '@'

theorem ofText_tagLine (hk : IsKeyword k) (ht : Text.trim t = t) (hne : t ≠ []) (hn : '\n' ∉ t) :
    TagLine.ofText (tagLine k t) = .tag k t := by
  have htrim : Text.trim (tagLine k t) = tagLine k t :=
    Text.trim_eq_self_iff.2
      ⟨.cons rfl _, endsNot_tagLine (Text.trim_eq_self_iff.1 ht).2 hne k⟩
  have hd : defaultValue? (tagLine k t) = none := rfl
  rw [TagLine.ofText]
  simp only [htrim, hd, tagParts?_tagLine hk ht hn]
  exact if_neg (List.cons_ne_nil _ _)

end TagLines

section Defaults

theorem defaultLine_eq (v : Text) : defaultLine v =
    'D' :: 'e' :: 'f' :: 'a' :: 'u' :: 'l' :: 't' :: ':' :: ' ' :: quoted v := by
  unfold defaultLine
  simp

theorem endsNot_quoted {p : Char → Bool} (h : p '\'' = false) (v : Text) :
    Text.EndsNot p (quoted v) :=
  (Text.EndsNot.singleton h).append_of_ne_nil (List.cons_ne_nil _ _) ('\'' :: v)

@[simp] theorem unquote_quoted (v : Text) : unquote (' ' :: quoted v) = v := by
  have htrim : Text.trim (' ' :: quoted v) = quoted v := by
    rw [Text.trim_cons rfl]
    exact Text.trim_eq_self_iff.2 ⟨.cons rfl _, endsNot_quoted rfl v⟩
  have hsemi : Text.dropEndWhile (· == ';') (quoted v) = quoted v :=
    (endsNot_quoted rfl v).dropEndWhile_eq
  have hwhite : Text.trimEnd (quoted v) = quoted v := (endsNot_quoted rfl v).dropEndWhile_eq
  simp only [unquote, htrim, hsemi, hwhite]
  simp [quoted]

theorem defaultValue?_defaultLine (h : '\n' ∉ v) : defaultValue? (defaultLine v) = some v := by
  have ha : afterIgnoringCase? "default" (defaultLine v) = some (':' :: ' ' :: quoted v) := by
    rw [defaultLine_eq]
    rfl
  have hw : dropValueWord (':' :: ' ' :: quoted v) = ':' :: ' ' :: quoted v := if_pos rfl
  have hb : Text.dropBlanks (':' :: ' ' :: quoted v) = ':' :: ' ' :: quoted v := rfl
  have hs : isSingleLine (' ' :: quoted v) = true := isSingleLine_iff.2 (by simp [quoted, h])
  rw [defaultValue?, ha]
  simp only [Option.bind_eq_bind, Option.bind_some, hw, hb, hs, if_true, unquote_quoted]

@[simp] theorem defaultLine_ne_nil (v : Text) : defaultLine v ≠ [] := by
  rw [defaultLine_eq]
  exact List.cons_ne_nil _ _

theorem endsNot_defaultLine (v : Text) : Text.EndsNot Text.isWhite (defaultLine v) := by
  rw [defaultLine_eq]
  exact (endsNot_quoted rfl v).append_of_ne_nil (List.cons_ne_nil _ _)
    ['D', 'e', 'f', 'a', 'u', 'l', 't', ':', ' ']

theorem ofText_defaultLine (h : '\n' ∉ v) : TagLine.ofText (defaultLine v) = .default v := by
  have htrim : Text.trim (defaultLine v) = defaultLine v := by
    refine Text.trim_eq_self_iff.2 ⟨?_, endsNot_defaultLine v⟩
    rw [defaultLine_eq]
    exact .cons rfl _
  rw [TagLine.ofText]
  simp only [htrim, defaultLine_ne_nil, if_false, defaultValue?_defaultLine h]

end Defaults

section Declarations

theorem splitType_of_head? (h : s.head? ≠ some '{') : splitType s = ([], s) := by
  unfold splitType
  split
  · exact absurd rfl h
  · rfl

theorem splitType_typePart (ht : IsTypeName t) (hh : s.head? ≠ some '{')
    (hs : Text.StartsNot Text.isWhite s) (hn : '\n' ∉ s) :
    splitType (typePart t ++ s) = (t, s) := by
  unfold typePart
  split
  · rename_i h
    rw [h]
    exact splitType_of_head? hh
  · have hcut : Text.cut? '}' (t ++ '}' :: ' ' :: s) = some (t, ' ' :: s) :=
      Text.cut?_append ht.notBrace
    have hdrop : Text.dropBlanks (' ' :: s) = s := hs.dropBlanks_eq
    have happ : '{' :: (t ++ ['}', ' ']) ++ s = '{' :: (t ++ '}' :: ' ' :: s) := by simp
    rw [happ, splitType, hcut]
    simp only [hdrop, isSingleLine_iff.2 hn, if_true, ht.trimmed]

theorem dropBracket_of_head? {b : Char} (h : s.head? ≠ some b) : dropBracket b s = s := by
  cases s with
  | nil => rfl
  | cons c s => exact if_neg fun hc => h (congrArg some hc)

theorem IsDescription.startsNot (h : IsDescription d) : Text.StartsNot Text.isWhite d :=
  (Text.trim_eq_self_iff.1 h.trimmed).1

theorem startsNot_descriptionPart (d : Text) : Text.StartsNot isNameChar (descriptionPart d) := by
  unfold descriptionPart
  split
  · exact .nil
  · exact .cons rfl d

theorem splitName?_descriptionPart (hn : IsName n) (hd : IsDescription d) :
    splitName? (n ++ descriptionPart d) = some (n, d) := by
  have hb := hn.head?_append_ne (c := '[') rfl (descriptionPart d)
  cases n with
  | nil => exact hn.elim
  | cons c n =>
    have hcs := List.all_eq_true.1 hn.2
    rw [splitName?, dropBracket_of_head? hb]
    simp only [List.cons_append, hn.1, if_true,
      Text.dropWhile_append hcs (startsNot_descriptionPart d),
      Text.takeWhile_append hcs (startsNot_descriptionPart d)]
    by_cases h : d = []
    · rw [h]
      rfl
    · have hp : descriptionPart d = ' ' :: d := if_neg h
      have hc : dropBracket ']' (' ' :: d) = ' ' :: d := rfl
      have hblank : Text.isBlank ' ' = true := rfl
      simp only [hp, hc, hd.startsNot.dropBlanks_eq, isSingleLine_iff.2 hd.single, hblank,
        Bool.and_self, if_true]

theorem dropDash_of_head? (h : s.head? ≠ some '-') : dropDash s = s := by
  unfold dropDash
  split
  · exact absurd rfl h
  · rfl

theorem startsNot_name_append (hn : IsName n) (s : Text) :
    Text.StartsNot Text.isWhite (n ++ s) := by
  cases n with
  | nil => exact hn.elim
  | cons c n => exact .cons (hn.notWhite c List.mem_cons_self) _

theorem endsNot_descriptionPart (hd : Text.EndsNot Text.isWhite d) :
    Text.EndsNot Text.isWhite (descriptionPart d) := by
  unfold descriptionPart
  split
  · exact .nil
  · rename_i hne
    exact hd.cons hne ' '

theorem notMem_descriptionPart (hd : '\n' ∉ d) : '\n' ∉ descriptionPart d := by
  unfold descriptionPart
  split
  · exact List.not_mem_nil
  · simp [hd]

/-- The parts of a declaration are read back. -/
theorem ofText_declaredText (ht : IsTypeName t) (hn : IsName n) (hd : IsDescription d) :
    Declared.ofText (declaredText t n d) = ⟨t, some n, d⟩ := by
  have hh := hn.head?_append_ne (c := '{') rfl (descriptionPart d)
  have hs : '\n' ∉ n ++ descriptionPart d := by
    rw [List.mem_append]
    exact fun h => h.elim (hn.notMem rfl) (notMem_descriptionPart hd.single)
  rw [Declared.ofText, declaredText, splitType_typePart ht hh (startsNot_name_append hn _) hs]
  simp only [splitName?_descriptionPart hn hd, hd.trimmed, dropDash_of_head? hd.notDash]

theorem startsNot_declaredText (hn : IsName n) (t d : Text) :
    Text.StartsNot Text.isWhite (declaredText t n d) := by
  unfold declaredText typePart
  split
  · exact startsNot_name_append hn _
  · exact .cons rfl _

theorem endsNot_declaredText (hn : IsName n) (hd : IsDescription d) (t : Text) :
    Text.EndsNot Text.isWhite (declaredText t n d) := by
  have hd := endsNot_descriptionPart (Text.trim_eq_self_iff.1 hd.trimmed).2
  exact ((Text.EndsNot.of_forall hn.notWhite).append hd).append_of_ne_nil
    (List.append_ne_nil_of_left_ne_nil hn.ne_nil _) _

theorem declaredText_ne_nil (hn : IsName n) (t d : Text) : declaredText t n d ≠ [] :=
  List.append_ne_nil_of_right_ne_nil _ (List.append_ne_nil_of_left_ne_nil hn.ne_nil _)

theorem notMem_declaredText (ht : IsTypeName t) (hn : IsName n) (hd : IsDescription d) :
    '\n' ∉ declaredText t n d := by
  have hname : '\n' ∉ n := hn.notMem rfl
  have hrest := notMem_descriptionPart hd.single
  unfold declaredText typePart
  split <;> simp [hname, hrest, ht.single]

theorem ofText_declaredTag (hk : k ∈ keywords) (ht : IsTypeName t) (hn : IsName n)
    (hd : IsDescription d) :
    TagLine.ofText (tagLine k (declaredText t n d)) = .tag k (declaredText t n d) := by
  refine ofText_tagLine (isKeyword_of_mem hk) ?_ (declaredText_ne_nil hn t d)
    (notMem_declaredText ht hn hd)
  exact Text.trim_eq_self_iff.2 ⟨startsNot_declaredText hn t d, endsNot_declaredText hn hd t⟩

theorem isTypeName_nil : IsTypeName [] := ⟨rfl, List.not_mem_nil, List.not_mem_nil⟩

theorem isDescription_nil : IsDescription [] := ⟨rfl, List.not_mem_nil, fun h => nomatch h⟩

end Declarations

end ApiBook.Script
