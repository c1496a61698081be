import ApiBook.Proofs.Xml.Attribute

/-! # Nesting of elements

The top-level elements of a forest are read one by one, however deep elements nest inside them, up
to the first one that holds a tag of its own name which closes itself although it has attributes:
such a tag is taken for a start tag, so the end of the element is not found.
-/

namespace ApiBook.Xml

variable {b : Bool} {c : Char} {d k l : Nat} {e n s t x y rest : Text} {as : List Attribute}

section Tags

theorem notMem_name {a : Char} (he : IsElementName e) (ha : isElementChar a = false) : a ∉ e :=
  fun h => Bool.false_ne_true (ha.symm.trans (isElementChar_of_mem he h))

theorem opensAt_startTag (he : IsElementName e) (hn : IsElementName n)
    (hc : isElementChar c = false) (s : Text) :
    opensAt e ('<' :: (n ++ c :: s)) = (decide (n = e) && (c == '>' || Text.isWhite c)) := by
  by_cases hne : n = e
  · have ha : Text.after? ('<' :: e) ('<' :: (e ++ c :: s)) = some (c :: s) :=
      Text.after?_append ('<' :: e) (c :: s)
    simp only [hne, decide_true, Bool.true_and, opensAt, ha]
  · simp only [hne, decide_false, Bool.false_and]
    unfold opensAt
    split
    · rename_i a r ha
      have happ := (List.cons.inj (Text.after?_eq_some_iff.1 ha)).2
      rcases List.append_eq_append_iff.1 happ with ⟨m, hm, hr⟩ | ⟨m, hm, hr⟩
      · cases m with
        | nil => exact absurd (hm.trans (List.append_nil n)).symm hne
        | cons f m =>
          obtain ⟨rfl, -⟩ := List.cons.inj hr
          exact absurd (hm ▸ List.mem_append_right n List.mem_cons_self) (notMem_name he hc)
      · cases m with
        | nil => exact absurd (hm.trans (List.append_nil e)) hne
        | cons f m =>
          obtain ⟨rfl, -⟩ := List.cons.inj hr
          have ha := isElementChar_of_mem hn (hm ▸ List.mem_append_right e List.mem_cons_self)
          have hg : a ≠ '>' := by
            rintro rfl
            exact absurd ha (by decide)
          simp [hg, isWhite_of_isElementChar ha]
    · rfl

theorem after?_endTag_startTag (hn : IsElementName n) (e s : Text) :
    Text.after? (endTag e) ('<' :: (n ++ s)) = none := by
  cases n with
  | nil => exact hn.elim
  | cons a n =>
    have ha : a ≠ '/' := by
      rintro rfl
      exact absurd hn.1 (by decide)
    exact Text.after?_cons_of_ne (p := e ++ ">") ha

theorem after?_endTag_of_ne (he : IsElementName e) (hn : IsElementName n) (hne : n ≠ e)
    (s : Text) : Text.after? (endTag e) (endTag n ++ s) = none := by
  refine Option.eq_none_iff_forall_ne_some.2 fun r hr => hne ?_
  have h : n ++ '>' :: s = e ++ '>' :: r := by
    simpa [endTag] using Text.after?_eq_some_iff.1 hr
  have hc := Text.cut?_append (b := s) (notMem_name hn (a := '>') rfl)
  rw [h, Text.cut?_append (notMem_name he rfl)] at hc
  exact (Prod.mk.inj (Option.some.inj hc)).1.symm

theorem endTag_eq (n : Text) : endTag n = '<' :: ('/' :: (n ++ ['>'])) := by
  simp [endTag]

theorem opensAt_endTag (he : IsElementName e) (n s : Text) : opensAt e (endTag n ++ s) = false := by
  cases e with
  | nil => exact he.elim
  | cons a e =>
    have ha : '/' ≠ a := by
      rintro rfl
      exact absurd he.1 (by decide)
    have h : Text.after? ('<' :: a :: e) ('<' :: '/' :: (n ++ '>' :: s)) = none :=
      Text.after?_cons_of_ne (p := e) ha
    have happ : endTag n ++ s = '<' :: '/' :: (n ++ '>' :: s) := by simp [endTag_eq]
    rw [opensAt, happ, h]

end Tags

section Depth

/-- Reading the text, in whatever follows, leaves `k` more elements open. -/
def Opens (e : Text) (k : Nat) (x : Text) : Prop :=
  ∀ d s, contentOf? e d (x ++ s) = (contentOf? e (d + k) s).map fun p => (x ++ p.1, p.2)

namespace Opens

theorem nil : Opens e 0 [] := fun d s => by
  cases h : contentOf? e d s <;> simp [h]

theorem append (hx : Opens e k x) (hy : Opens e l y) : Opens e (k + l) (x ++ y) := fun d s => by
  rw [List.append_assoc, hx, hy, Option.map_map, Nat.add_assoc]
  congr 1
  funext p
  exact congrArg (·, p.2) (List.append_assoc x y p.1).symm

theorem of_notMem (h : '<' ∉ x) : Opens e 0 x := by
  induction x with
  | nil => exact .nil
  | cons c x ih =>
    have hc : c ≠ '<' := (List.ne_of_not_mem_cons h).symm
    intro d s
    rw [List.cons_append, contentOf?_cons_of_ne hc, ih (List.not_mem_of_not_mem_cons h),
      Option.map_map]
    rfl

theorem tag (ha : ∀ s, Text.after? (endTag e) ('<' :: (x ++ s)) = none)
    (ho : ∀ s, opensAt e ('<' :: (x ++ s)) = b) (hx : '<' ∉ x) :
    Opens e (if b then 1 else 0) ('<' :: x) := fun d s => by
  rw [List.cons_append, contentOf?_of_none (ha s), ho, of_notMem hx, Option.map_map]
  cases b <;> rfl

end Opens

theorem contentOf?_endTag_append (he : IsElementName e) (d : Nat) (s : Text) :
    contentOf? e (d + 1) (endTag e ++ s) =
      (contentOf? e d s).map fun p => (endTag e ++ p.1, p.2) := by
  have happ (t : Text) : endTag e ++ t = '<' :: ('/' :: (e ++ ['>']) ++ t) := by simp [endTag]
  have hm : '<' ∉ '/' :: (e ++ ['>']) := by simp [notMem_name he (a := '<') rfl]
  have ha := Text.after?_append (endTag e) s
  rw [happ] at ha ⊢
  rw [contentOf?, ha]
  simp only [Nat.add_eq_zero_iff, Nat.one_ne_zero, and_false, if_false, Nat.add_sub_cancel]
  rw [Opens.of_notMem hm, Option.map_map]
  rfl

end Depth

section Elements

theorem notMem_printAttributes {a : Char} (ha : a = '<' ∨ a = '>') (as : List Attribute) :
    a ∉ printAttributes as := by
  have hw : Text.isWord a = false := by rcases ha with rfl | rfl <;> decide
  simp only [printAttributes, List.mem_flatMap, not_exists, not_and]
  intro x _ hm
  have hk : a ∉ x.key := fun h => Bool.false_ne_true (hw.symm.trans (x.isWord_of_mem a h))
  have hv : a ∉ x.value := fun h => by
    rcases ha with rfl | rfl
    · exact x.plain.2.1 h
    · exact x.plain.2.2 h
  rcases ha with rfl | rfl <;> simp [Attribute.print, hk, hv] at hm

theorem printAttributes_append (as : List Attribute) (c : Char) (s : Text) :
    ∃ t, printAttributes as ++ c :: s = (if as = [] then c else ' ') :: t := by
  cases as with
  | nil => exact ⟨s, rfl⟩
  | cons a as => exact ⟨_, rfl⟩

theorem opensAt_tag (he : IsElementName e) (hn : IsElementName n) (hc : isElementChar c = false)
    (as : List Attribute) (s : Text) :
    opensAt e ('<' :: (n ++ (printAttributes as ++ c :: s))) =
      (decide (n = e) && (decide (as ≠ []) || (c == '>' || Text.isWhite c))) := by
  obtain ⟨t, ht⟩ := printAttributes_append as c s
  rw [ht]
  split
  · rename_i h
    rw [opensAt_startTag he hn hc]
    simp [h]
  · rename_i h
    rw [opensAt_startTag he hn rfl]
    simp [h, Text.isWhite]

theorem opens_startTag (he : IsElementName e) (hn : IsElementName n) (as : List Attribute) :
    Opens e (if n = e then 1 else 0) ('<' :: (n ++ (printAttributes as ++ ['>']))) := by
  have happ (s : Text) : '<' :: (n ++ (printAttributes as ++ ['>']) ++ s) =
      '<' :: (n ++ (printAttributes as ++ '>' :: s)) := by simp
  have h : Opens e (if decide (n = e) then 1 else 0)
      ('<' :: (n ++ (printAttributes as ++ ['>']))) := by
    refine .tag (fun s => ?_) (fun s => ?_) ?_
    · rw [happ, after?_endTag_startTag hn]
    · rw [happ, opensAt_tag he hn rfl]
      simp
    · simp [notMem_name hn (a := '<') rfl, notMem_printAttributes (.inl rfl) as]
  simpa using h

theorem opens_emptyTag (he : IsElementName e) (hn : IsElementName n) (as : List Attribute) :
    Opens e (if n = e ∧ as ≠ [] then 1 else 0)
      ('<' :: (n ++ (printAttributes as ++ ['/', '>']))) := by
  have happ (s : Text) : '<' :: (n ++ (printAttributes as ++ ['/', '>']) ++ s) =
      '<' :: (n ++ (printAttributes as ++ '/' :: '>' :: s)) := by simp
  have h : Opens e (if decide (n = e ∧ as ≠ []) then 1 else 0)
      ('<' :: (n ++ (printAttributes as ++ ['/', '>']))) := by
    refine .tag (fun s => ?_) (fun s => ?_) ?_
    · rw [happ, after?_endTag_startTag hn]
    · rw [happ, opensAt_tag he hn rfl]
      simp [Text.isWhite]
    · simp [notMem_name hn (a := '<') rfl, notMem_printAttributes (.inl rfl) as]
  simpa using h

theorem opens_element (he : IsElementName e) (hn : IsElementName n) (as : List Attribute)
    (hx : Opens e k x) :
    Opens e k ('<' :: (n ++ (printAttributes as ++ ['>'])) ++ (x ++ endTag n)) := by
  have hs := opens_startTag he hn as
  by_cases hne : n = e
  · subst hne
    rw [if_pos rfl] at hs
    intro d s
    rw [List.append_assoc, hs, List.append_assoc, hx, Nat.add_right_comm,
      contentOf?_endTag_append he, Option.map_map, Option.map_map]
    congr 1
    funext p
    simp
  · rw [if_neg hne] at hs
    have hend : Opens e 0 (endTag n) := by
      have hm : '<' ∉ '/' :: (n ++ ['>']) := by simp [notMem_name hn (a := '<') rfl]
      have ha (s : Text) := after?_endTag_of_ne he hn hne s
      have ho (s : Text) := opensAt_endTag he n s
      rw [endTag_eq] at ha ho ⊢
      exact .tag ha ho hm
    simpa using hs.append (hx.append hend)

/-- A forest leaves open the elements that seem to begin with tags which close themselves. -/
theorem opens_print (he : IsElementName e) (f : Forest) : Opens e (f.unbalanced e) f.print := by
  induction f with
  | nil => exact .nil
  | text t rest ih =>
    have h := (Opens.of_notMem t.2.1).append ih
    rwa [Nat.zero_add] at h
  | empty n as rest ih =>
    have h := (opens_emptyTag he n.2 as).append ih
    simpa [Forest.print, Forest.unbalanced] using h
  | element n as content rest ihc ihr =>
    have h := (opens_element he n.2 as ihc).append ihr
    simpa [Forest.print, Forest.unbalanced] using h

end Elements

/-- Whether the end of the element is found. -/
def Child.closes (c : Child) : Bool := c.content.all fun f => f.unbalanced c.name == 0

def Child.text (c : Child) : Text := c.content.elim [] fun f => plainText f.print

def Child.read (c : Child) : Fragment := ⟨c.name, (foundName c.attributes).map decode, c.text⟩

def Child.fragment (c : Child) : Fragment := ⟨c.name, (nameOf c.attributes).map decode, c.text⟩

section Division

theorem startsNot_printAttributes_append (hc : isElementChar c = false) (as : List Attribute)
    (s : Text) : Text.StartsNot isElementChar (printAttributes as ++ c :: s) := by
  obtain ⟨t, ht⟩ := printAttributes_append as c s
  rw [ht]
  split
  · exact .cons hc t
  · exact .cons rfl t

theorem getLast?_printAttributes (as : List Attribute) :
    (printAttributes as).getLast? ≠ some '/' := by
  rcases List.eq_nil_or_concat as with rfl | ⟨as, a, rfl⟩
  · exact nofun
  · have happ : printAttributes (as ++ [a]) =
        printAttributes as ++ ' ' :: (a.key ++ '=' :: '"' :: a.value) ++ ['"'] := by
      simp [printAttributes, Attribute.print]
    rw [List.concat_eq_append, happ, List.getLast?_concat]
    decide

theorem firstStartTag?_append (hs : '<' ∉ s) (rest : Text) :
    firstStartTag? (s ++ rest) = firstStartTag? rest := by
  induction s with
  | nil => rfl
  | cons c s ih =>
    have hc : startTag? (c :: (s ++ rest)) = none := by
      unfold startTag?
      split
      · rename_i h
        exact absurd (List.cons.inj h).1 (List.ne_of_not_mem_cons hs).symm
      · rfl
    rw [List.cons_append, firstStartTag?, hc, Option.none_or, ih (List.not_mem_of_not_mem_cons hs)]

theorem elements_append (hs : '<' ∉ s) (rest : Text) : elements (s ++ rest) = elements rest :=
  elements_congr (firstStartTag?_append hs rest)

theorem startTag?_closed (hn : IsElementName n) (as : List Attribute) (rest : Text) :
    startTag? ('<' :: (n ++ (printAttributes as ++ '/' :: '>' :: rest))) =
      some (⟨n, printAttributes as, true⟩, rest) := by
  have hh := startsNot_printAttributes_append (c := '/') rfl as ('>' :: rest)
  have hcut : Text.cut? '>' (printAttributes as ++ '/' :: '>' :: rest) =
      some (printAttributes as ++ ['/'], rest) := by
    have hm : '>' ∉ printAttributes as ++ ['/'] := by
      simp [notMem_printAttributes (.inr rfl) as]
    rw [← Text.cut?_append hm]
    simp
  cases n with
  | nil => exact hn.elim
  | cons c cs =>
    have hcs := List.all_eq_true.1 hn.2
    rw [List.cons_append, startTag?, if_pos hn.1, Text.dropWhile_append hcs hh,
      Text.takeWhile_append hcs hh, hcut]
    simp

theorem contentOf?_print (hn : IsElementName n) (f : Forest) (rest : Forest) :
    contentOf? n 0 (f.print ++ (endTag n ++ rest.print)) =
      if f.unbalanced n = 0 then some (f.print, rest.print) else none := by
  rw [opens_print hn f, Nat.zero_add]
  cases h : f.unbalanced n with
  | zero =>
    have hend : contentOf? n 0 (endTag n ++ rest.print) = some ([], rest.print) :=
      contentOf?_of_some (Text.after?_append (endTag n) rest.print)
    rw [hend, Option.map_some, List.append_nil]
    rfl
  | succ k =>
    have hrest : contentOf? n k rest.print = none := by
      have h := opens_print hn rest k []
      rw [List.append_nil] at h
      rw [h]
      rfl
    rw [contentOf?_endTag_append hn, hrest]
    rfl

theorem elements_empty (hn : IsElementName n) (as : List Attribute) (rest : Text) :
    elements ('<' :: (n ++ (printAttributes as ++ '/' :: '>' :: rest))) =
      ⟨n, (foundName as).map decode, []⟩ :: elements rest := by
  have h := firstStartTag?_of_some (startTag?_closed hn as rest)
  simp [elements_of_selfClosed h rfl]

theorem elements_element (hn : IsElementName n) (as : List Attribute) (f rest : Forest) :
    elements ('<' :: (n ++ (printAttributes as ++
        '>' :: (f.print ++ (endTag n ++ rest.print))))) =
      if f.unbalanced n = 0 then
        ⟨n, (foundName as).map decode, plainText f.print⟩ :: elements rest.print
      else [] := by
  have hs := startTag?_append hn (notMem_printAttributes (.inr rfl) as)
    (getLast?_printAttributes as) (f.print ++ (endTag n ++ rest.print))
    (startsNot_printAttributes_append rfl as _)
  have h := firstStartTag?_of_some hs
  have hc := contentOf?_print hn f rest
  split
  · rename_i hf
    rw [if_pos hf] at hc
    simp [elements_of_some h rfl hc]
  · rename_i hf
    rw [if_neg hf] at hc
    rw [elements_of_unclosed h rfl hc]

theorem elements_print_eq (f : Forest) :
    elements f.print = (f.children.takeWhile Child.closes).map Child.read := by
  induction f with
  | nil => exact elements_of_none rfl
  | text t rest ih => exact (elements_append t.2.1 rest.print).trans ih
  | empty n as rest ih =>
    rw [Forest.print, elements_empty n.2, ih, Forest.children,
      List.takeWhile_cons_of_pos (by rfl)]
    rfl
  | element n as content rest _ ih =>
    rw [Forest.print, elements_element n.2, Forest.children]
    by_cases h : content.unbalanced n = 0
    · have hc : Child.closes ⟨n, as, some content⟩ = true := beq_iff_eq.2 h
      rw [if_pos h, List.takeWhile_cons_of_pos hc, List.map_cons, ih]
      rfl
    · have hc : ¬ Child.closes ⟨n, as, some content⟩ = true := fun hc => h (beq_iff_eq.1 hc)
      rw [if_neg h, List.takeWhile_cons_of_neg hc]
      rfl

end Division

/-- A forest is divided into its top-level elements, up to the first one whose end is not found. The
division is right if every end is found and no value in front of another attribute feigns the
attribute `name`. -/
theorem elements_print (f : Forest) :
    elements f.print = (f.children.takeWhile Child.closes).map Child.read ∧
      ((∀ c ∈ f.children, c.closes ∧ ∀ a ∈ c.attributes.dropLast, ¬ FeignsName a.value) →
        elements f.print = f.children.map Child.fragment) := by
  refine ⟨elements_print_eq f, fun h => ?_⟩
  have hall : f.children.takeWhile Child.closes = f.children :=
    List.takeWhile_eq_self_iff.2 fun c hc => (h c hc).1
  rw [elements_print_eq, hall]
  refine List.map_congr_left fun c hc => ?_
  rw [Child.read, Child.fragment, foundName_eq (h c hc).2]

/-- A paragraph in its like, with tags in it that close themselves, and a parameter whose last
attribute feigns a name. -/
theorem elements_print_of_nested :
    let f : Forest :=
      .text ⟨"\n ", by decide⟩ <| .element ⟨"para", by decide⟩ []
        (.text ⟨"outer ", by decide⟩ <|
          .element ⟨"para", by decide⟩ [⟨"k", "v", by decide, by decide, by decide⟩]
            (.text ⟨"inner", by decide⟩ .nil) <|
          .empty ⟨"para", by decide⟩ [] <|
          .empty ⟨"parameter", by decide⟩ [⟨"k", "v", by decide, by decide, by decide⟩] .nil) <|
      .element ⟨"param", by decide⟩
        [⟨"filename", "name", by decide, by decide, by decide⟩,
          ⟨"name", "a&amp;b", by decide, by decide, by decide⟩,
          ⟨"k", "x name =", by decide, by decide, by decide⟩]
        (.text ⟨"x", by decide⟩ .nil) <|
      .empty ⟨"remarks", by decide⟩ [] .nil
    (∀ c ∈ f.children, c.closes ∧ ∀ a ∈ c.attributes.dropLast, ¬ FeignsName a.value) ∧
      elements f.print =
        [⟨"para", none, "outer inner"⟩, ⟨"param", some "a&b".toList, "x"⟩,
          ⟨"remarks", none, []⟩] := by
  intro f
  have h : ∀ c ∈ f.children, c.closes ∧ ∀ a ∈ c.attributes.dropLast, ¬ FeignsName a.value := by
    decide +kernel
  have hf : f.children.map Child.fragment = [⟨"para", none, "outer inner"⟩,
      ⟨"param", some "a&b".toList, "x"⟩, ⟨"remarks", none, []⟩] := by
    decide +kernel
  exact ⟨h, ((elements_print f).2 h).trans hf⟩

/-- An element is lost with all that follow, as it holds a tag of its own name that closes itself; a
value that ends like the start of the attribute `name` hides this attribute. -/
theorem elements_print_of_unbalanced :
    let f : Forest := .element ⟨"summary", by decide⟩ []
      (.empty ⟨"summary", by decide⟩ [⟨"k", "v", by decide, by decide, by decide⟩] .nil)
      (.empty ⟨"returns", by decide⟩ [] .nil)
    let g : Forest := .empty ⟨"param", by decide⟩
      [⟨"k", "name=", by decide, by decide, by decide⟩,
        ⟨"name", "x", by decide, by decide, by decide⟩] .nil
    f.print = "<summary><summary k=\"v\"/></summary><returns/>".toList ∧ elements f.print = [] ∧
      f.children.map Child.fragment = [⟨"summary", none, []⟩, ⟨"returns", none, []⟩] ∧
      g.print = "<param k=\"name=\" name=\"x\"/>".toList ∧
      elements g.print = [⟨"param", some " name=".toList, []⟩] ∧
      g.children.map Child.fragment = [⟨"param", some "x".toList, []⟩] := by
  decide +kernel

end ApiBook.Xml
