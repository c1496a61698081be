import ApiBook.Proofs.Xml.Element
import ApiBook.Proofs.Xml.Forest

/-! # Reading the attribute `name`

The attribute `name` is looked for in the whole text behind the name of an element. It is found
unless a value in front of it ends like the start of such an attribute: the closing quote of that
value then passes for an opening one.
-/

namespace ApiBook.Xml

variable {c : Char} {s v x rest : Text} {a : Attribute} {as : List Attribute} {inWord : Bool}

/-- A value at whose end an attribute `name` seems to begin. -/
def FeignsName (value : Text) : Prop :=
  ∃ before gap gap', value = before ++ ("name" ++ (gap ++ '=' :: gap')) ∧
    Text.EndsNot Text.isWord before ∧ (∀ c ∈ gap, Text.isWhite c) ∧ ∀ c ∈ gap', Text.isWhite c

section Signs

/-- The text is `name` and an equals sign, with white space allowed around the sign. -/
def isNameSign (s : Text) : Bool :=
  match (Text.after? "name" s).map skipWhite with
  | some ('=' :: gap) => skipWhite gap == []
  | _ => false

def endsInSign (inWord : Bool) : Text → Bool
  | [] => false
  | c :: cs => (!inWord && isNameSign (c :: cs)) || endsInSign (Text.isWord c) cs

@[simp] theorem skipWhite_eq_nil_iff : skipWhite s = [] ↔ ∀ c ∈ s, Text.isWhite c :=
  List.dropWhile_eq_nil_iff

theorem isNameSign_iff : isNameSign s = true ↔ ∃ gap gap', s = "name" ++ (gap ++ '=' :: gap') ∧
    (∀ c ∈ gap, Text.isWhite c) ∧ ∀ c ∈ gap', Text.isWhite c := by
  constructor
  · intro h
    unfold isNameSign at h
    split at h
    · rename_i gap' hr
      obtain ⟨r, hr, hgap⟩ := Option.map_eq_some_iff.1 hr
      refine ⟨r.takeWhile Text.isWhite, gap', ?_, List.all_eq_true.1 List.all_takeWhile,
        skipWhite_eq_nil_iff.1 (beq_iff_eq.1 h)⟩
      rw [← hgap, skipWhite, Text.trimStart, List.takeWhile_append_dropWhile]
      exact Text.after?_eq_some_iff.1 hr
    · cases h
  · rintro ⟨gap, gap', rfl, hg, hg'⟩
    have hs : skipWhite (gap ++ '=' :: gap') = '=' :: gap' := Text.dropWhile_append hg (.cons rfl _)
    rw [isNameSign, Text.after?_append, Option.map_some, hs]
    exact beq_iff_eq.2 (skipWhite_eq_nil_iff.2 hg')

theorem endsInSign_iff : endsInSign inWord v = true ↔ ∃ before sign, v = before ++ sign ∧
    isNameSign sign = true ∧ (before = [] → inWord = false) ∧ Text.EndsNot Text.isWord before := by
  induction v generalizing inWord with
  | nil =>
    refine iff_of_false Bool.false_ne_true ?_
    rintro ⟨before, sign, h, hs, -⟩
    rw [(List.append_eq_nil_iff.1 h.symm).2] at hs
    cases hs
  | cons c v ih =>
    rw [endsInSign, Bool.or_eq_true, Bool.and_eq_true, Bool.not_eq_true', ih]
    constructor
    · rintro (⟨hw, hs⟩ | ⟨before, sign, rfl, hs, hw, he⟩)
      · exact ⟨[], c :: v, rfl, hs, fun _ => hw, .nil⟩
      · refine ⟨c :: before, sign, rfl, hs, nofun, ?_⟩
        cases before with
        | nil => exact .singleton (hw rfl)
        | cons d before => exact he.cons (List.cons_ne_nil _ _) c
    · rintro ⟨before, sign, h, hs, hw, he⟩
      cases before with
      | nil => exact .inl ⟨hw rfl, h ▸ hs⟩
      | cons d before =>
        obtain ⟨rfl, rfl⟩ := List.cons.inj h
        refine .inr ⟨before, sign, rfl, hs, ?_, Text.EndsNot.of_append (s := [c]) he⟩
        rintro rfl
        exact he c rfl

theorem feignsName_iff : FeignsName v ↔ endsInSign false v = true := by
  rw [endsInSign_iff]
  constructor
  · rintro ⟨before, gap, gap', h, he, hg, hg'⟩
    exact ⟨before, _, h, isNameSign_iff.2 ⟨gap, gap', rfl, hg, hg'⟩, fun _ => rfl, he⟩
  · rintro ⟨before, sign, h, hs, -, he⟩
    obtain ⟨gap, gap', rfl, hg, hg'⟩ := isNameSign_iff.1 hs
    exact ⟨before, gap, gap', h, he, hg, hg'⟩

instance : DecidablePred FeignsName := fun _ => decidable_of_iff _ feignsName_iff.symm

end Signs

/-- The value found as `name`: the first attribute with this key gives it, unless a value that
feigns the name comes first. Then the text up to the next quote is found, if there is a next
attribute. -/
def foundName : List Attribute → Option Text
  | [] => none
  | a :: as =>
    if a.key = "name" then some a.value
    else if FeignsName a.value then as.head?.map fun b => ' ' :: (b.key ++ ['='])
    else foundName as

section Reading

theorem skipWhite_append_cons (hc : Text.isWhite c = false) (s rest : Text) :
    skipWhite (s ++ c :: rest) = skipWhite s ++ c :: rest := by
  induction s with
  | nil => exact (Text.StartsNot.cons hc rest).dropWhile_eq
  | cons d s ih =>
    by_cases hd : Text.isWhite d = true
    · have h (t : Text) : skipWhite (d :: t) = skipWhite t := List.dropWhile_cons_of_pos hd
      rw [List.cons_append, h, h, ih]
    · have h (t : Text) : skipWhite (d :: t) = d :: t := List.dropWhile_cons_of_neg hd
      rw [List.cons_append, h, h, List.cons_append]

theorem notMem_skipWhite (h : '"' ∉ s) : '"' ∉ skipWhite s := fun hm =>
  h ((List.dropWhile_suffix _).mem hm)

theorem quoted?_skipWhite_append (h : '"' ∉ s) (rest : Text) :
    quoted? (skipWhite (s ++ '"' :: rest)) =
      if skipWhite s = [] then Text.cut? '"' rest else none := by
  have hs := notMem_skipWhite h
  rw [skipWhite_append_cons rfl]
  split
  · rename_i hnil
    rw [hnil]
    rfl
  · cases hw : skipWhite s with
    | nil => contradiction
    | cons d t =>
      have hd : d ≠ '"' := (List.ne_of_not_mem_cons (hw ▸ hs)).symm
      unfold quoted?
      split
      · rename_i heq
        exact absurd (List.cons.inj heq).1 hd
      · rfl

/-- Behind the rest of a value, an attribute is found if the rest feigns it. -/
theorem bind_equalsQuoted?_append (h : '"' ∉ s) (rest : Text) :
    (Text.after? "name" (s ++ '"' :: rest)).bind equalsQuoted? =
      if isNameSign s then Text.cut? '"' rest else none := by
  rw [Text.after?_append_cons (by decide), isNameSign]
  cases hr : Text.after? "name" s with
  | none => rfl
  | some r =>
    have hm : '"' ∉ r := fun hm => h <| by
      rw [Text.after?_eq_some_iff.1 hr]
      exact List.mem_append_right _ hm
    have hw := notMem_skipWhite hm
    rw [Option.map_some, Option.bind_some, equalsQuoted?, skipWhite_append_cons rfl,
      Option.map_some]
    cases hs : skipWhite r with
    | nil => rfl
    | cons d t =>
      rw [hs] at hw
      by_cases hd : d = '='
      · subst hd
        have ht := quoted?_skipWhite_append (List.not_mem_of_not_mem_cons hw) rest
        simpa using ht
      · simp [hd]

theorem nameAttribute?_value (hv : '"' ∉ v) (rest : Text) :
    nameAttribute? inWord (v ++ '"' :: rest) =
      (if endsInSign inWord v then (Text.cut? '"' rest).map Prod.fst else none).or
        (nameAttribute? false rest) := by
  induction v generalizing inWord with
  | nil =>
    have ha : Text.after? "name" ('"' :: rest) = none := Text.after?_cons_of_ne (by decide)
    have hw : Text.isWord '"' = false := by decide
    rw [List.nil_append, nameAttribute?, ha, hw]
    cases inWord <;> rfl
  | cons c v ih =>
    have hb := bind_equalsQuoted?_append hv rest
    rw [List.cons_append] at hb
    rw [List.cons_append, nameAttribute?, hb, ih (List.not_mem_of_not_mem_cons hv), endsInSign]
    cases inWord <;> cases isNameSign (c :: v) <;> cases Text.cut? '"' rest <;> simp

theorem nameAttribute?_inWord (hx : ∀ c ∈ x, Text.isWord c = true) (hc : Text.isWord c = false)
    (rest : Text) : nameAttribute? true (x ++ c :: rest) = nameAttribute? false rest := by
  induction x with
  | nil => simp [nameAttribute?, hc]
  | cons d x ih =>
    obtain ⟨hd, hx⟩ := List.forall_mem_cons.1 hx
    simp [nameAttribute?, hd, ih hx]

theorem bind_equalsQuoted?_key (hk : ∀ c ∈ s, Text.isWord c = true) (hn : s ≠ "name")
    (rest : Text) : (Text.after? "name" (s ++ '=' :: rest)).bind equalsQuoted? = none := by
  rw [Text.after?_append_cons (by decide)]
  cases hr : Text.after? "name" s with
  | none => rfl
  | some r =>
    have hs := Text.after?_eq_some_iff.1 hr
    cases r with
    | nil => exact absurd (hs.trans (List.append_nil _)) hn
    | cons d r =>
      have hd : Text.isWord d = true := hk d (hs ▸ List.mem_append_right _ List.mem_cons_self)
      have hw : Text.isWhite d = false := by
        cases hw : Text.isWhite d with
        | false => rfl
        | true => exact hd.symm.trans (Text.isWord_of_isWhite hw)
      have he : d ≠ '=' := by
        rintro rfl
        exact absurd hd (by decide)
      have hskip : skipWhite (d :: (r ++ '=' :: rest)) = d :: (r ++ '=' :: rest) :=
        (Text.StartsNot.cons hw _).dropWhile_eq
      simp [equalsQuoted?, hskip, he]

theorem nameAttribute?_print (a : Attribute) (rest : Text) :
    nameAttribute? false (a.print ++ rest) =
      if a.key = "name" then some a.value
      else (if FeignsName a.value then (Text.cut? '"' rest).map Prod.fst else none).or
        (nameAttribute? false rest) := by
  have hv := a.plain.1
  have hp : a.print ++ rest = ' ' :: (a.key ++ '=' :: '"' :: (a.value ++ '"' :: rest)) := by
    simp [Attribute.print]
  have hspace (t : Text) : nameAttribute? false (' ' :: t) = nameAttribute? false t := rfl
  have hquote (t : Text) : nameAttribute? false ('"' :: t) = nameAttribute? false t := rfl
  rw [hp, hspace]
  by_cases hk : a.key = "name"
  · have hq : equalsQuoted? ('=' :: '"' :: (a.value ++ '"' :: rest)) = some (a.value, rest) :=
      Text.cut?_append hv
    rw [if_pos hk, hk]
    exact nameAttribute?_of_some (by rw [← hq]; rfl)
  · rw [if_neg hk]
    have hb := bind_equalsQuoted?_key a.isWord_of_mem hk ('"' :: (a.value ++ '"' :: rest))
    cases hkey : a.key with
    | nil => exact absurd hkey a.ne_nil
    | cons c k =>
      have hw := a.isWord_of_mem
      rw [hkey] at hb hw
      obtain ⟨hc, hk⟩ := List.forall_mem_cons.1 hw
      rw [List.cons_append] at hb
      rw [List.cons_append, nameAttribute?, hb, hc]
      simp only [Bool.false_eq_true, if_false]
      rw [nameAttribute?_inWord hk (by decide), hquote, nameAttribute?_value hv]
      simp only [feignsName_iff]

@[simp] theorem nameAttribute?_printAttributes (as : List Attribute) :
    nameAttribute? false (printAttributes as) = foundName as := by
  induction as with
  | nil => rfl
  | cons a as ih =>
    rw [printAttributes, List.flatMap_cons, nameAttribute?_print, foundName]
    split
    · rfl
    · cases as with
      | nil => split <;> rfl
      | cons b bs =>
        have hb : Text.cut? '"' ((b :: bs).flatMap Attribute.print) =
            some (' ' :: (b.key ++ ['=']), b.value ++ '"' :: bs.flatMap Attribute.print) := by
          have hk : '"' ∉ ' ' :: (b.key ++ ['=']) := by
            have hkey : '"' ∉ b.key := fun h => absurd (b.isWord_of_mem _ h) (by decide)
            simp [hkey]
          rw [← Text.cut?_append hk]
          simp [Attribute.print]
        split
        · rw [hb]
          rfl
        · exact ih

end Reading

def nameOf (as : List Attribute) : Option Text :=
  (as.find? (·.key == "name".toList)).map Attribute.value

theorem nameOf_cons (h : a.key ≠ "name") : nameOf (a :: as) = nameOf as :=
  congrArg (Option.map Attribute.value) (List.find?_cons_of_neg (by simpa using h))

/-- Only values in front of another attribute can be in the way. -/
theorem foundName_eq (h : ∀ a ∈ as.dropLast, ¬ FeignsName a.value) : foundName as = nameOf as := by
  induction as with
  | nil => rfl
  | cons a as ih =>
    by_cases hk : a.key = "name"
    · simp [foundName, nameOf, hk]
    · rw [foundName, if_neg hk, nameOf_cons hk]
      cases as with
      | nil => exact ite_self none
      | cons b bs =>
        rw [List.dropLast_cons_cons] at h
        obtain ⟨ha, h⟩ := List.forall_mem_cons.1 h
        rw [if_neg ha, ih h]

end ApiBook.Xml
