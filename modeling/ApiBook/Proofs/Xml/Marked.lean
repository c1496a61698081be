import ApiBook.Proofs.Text.Spans
import ApiBook.Proofs.Xml.Gap
import Mathlib.Algebra.GroupWithZero.Nat
import Mathlib.Data.List.DropRight

/-! # Texts with marked line ends

A text whose line ends come from its source is written with a line feed for each of them or with a
carriage return and a line feed. Gaps of normal text hold line feeds but no carriage returns, so
both spellings give the same normal text if the line ends are gaps where white space goes anyway: in
front of the text, behind it and around a paragraph break. Elsewhere the longer spelling leaves the
more carriage returns.
-/

namespace ApiBook.Xml

open Text (splits)

section Agreement

variable {α β γ : Type} {p q : Prop} {n : α → Nat} {x y : α}

/-- Under the condition both values are the same, and otherwise the second counts for more. -/
def AgreeIff (p : Prop) (n : α → Nat) (x y : α) : Prop := (p ∧ x = y) ∨ (¬ p ∧ n x < n y)

namespace AgreeIff

theorem iff (h : AgreeIff p n x y) : y = x ↔ p := by
  rcases h with ⟨hp, rfl⟩ | ⟨hp, hlt⟩
  · exact iff_of_true rfl hp
  · refine iff_of_false ?_ hp
    rintro rfl
    exact Nat.lt_irrefl _ hlt

theorem refl (hp : p) (x : α) : AgreeIff p n x x := .inl ⟨hp, rfl⟩

theorem congr (h : AgreeIff p n x y) (hpq : q ↔ p) : AgreeIff q n x y := by
  rwa [AgreeIff, hpq]

theorem map {m : β → Nat} {f : α → β} (hf : ∀ a, m (f a) = n a) (h : AgreeIff p n x y) :
    AgreeIff p m (f x) (f y) := by
  rw [AgreeIff, hf, hf]
  exact h.imp_left fun h => ⟨h.1, congrArg f h.2⟩

theorem map₂ {m : β → Nat} {k : γ → Nat} {f : α → β → γ} {x' y' : β}
    (hf : ∀ a b, k (f a b) = n a + m b) (h : AgreeIff p n x y) (h' : AgreeIff q m x' y') :
    AgreeIff (p ∧ q) k (f x x') (f y y') := by
  rcases h with ⟨hp, rfl⟩ | ⟨hp, hlt⟩ <;> rcases h' with ⟨hq, rfl⟩ | ⟨hq, hlt'⟩
  · exact .inl ⟨⟨hp, hq⟩, rfl⟩
  · exact .inr ⟨fun h => hq h.2, by rw [hf, hf]; omega⟩
  · exact .inr ⟨fun h => hp h.1, by rw [hf, hf]; omega⟩
  · exact .inr ⟨fun h => hp h.1, by rw [hf, hf]; omega⟩

theorem append {c : Char} {s t s' t' : Text} (h : AgreeIff p (List.count c) s t)
    (h' : AgreeIff q (List.count c) s' t') :
    AgreeIff (p ∧ q) (List.count c) (s ++ s') (t ++ t') :=
  map₂ (f := fun s t => s ++ t) (fun _ _ => List.count_append) h h'

theorem map_forall₂ {R : β → β → Prop} {P : β → Prop} {f : β → α} {as bs : List β}
    (hf : ∀ a b, R a b → AgreeIff (P b) n (f a) (f b)) (h : List.Forall₂ R as bs) :
    AgreeIff (∀ b ∈ bs, P b) (fun l => (l.map n).sum) (as.map f) (bs.map f) := by
  induction h with
  | nil => exact .refl (fun _ h => nomatch h) _
  | cons hr _ ih =>
    refine (map₂ (f := List.cons) (fun a l => ?_) (hf _ _ hr) ih).congr List.forall_mem_cons
    rw [List.map_cons, List.sum_cons]

end AgreeIff

end Agreement

section Vanishing

variable {a b w : Text}

/-- Whether a line end between two texts goes when both are made normal: there is no word on one
side, or the white space around the line end holds a paragraph break. -/
def Vanishes (a b : Text) : Prop :=
  a.all Text.isWhite ∨ b.all Text.isWhite ∨
    ['\n', '\n'] <:+: a.rtakeWhile Text.isWhite ∨ ['\n', '\n'] <:+: b.takeWhile Text.isWhite

instance (a b : Text) : Decidable (Vanishes a b) := inferInstanceAs (Decidable (_ ∨ _ ∨ _ ∨ _))

theorem rtakeWhile_append {p : Char → Bool} (ha : Text.EndsNot p a) (hw : ∀ c ∈ w, p c = true) :
    (a ++ w).rtakeWhile p = w := by
  have hs : Text.StartsNot p a.reverse := fun c hc => ha c (by rwa [List.head?_reverse] at hc)
  rw [List.rtakeWhile, List.reverse_append,
    Text.takeWhile_append (fun c hc => hw c (List.mem_reverse.1 hc)) hs, List.reverse_reverse]

theorem vanishes_append_iff {c : Char} (hc : c ∈ a) (hw : Text.isWhite c = false) (x b : Text) :
    Vanishes (x ++ a) b ↔ Vanishes a b := by
  have hfalse (s : Text) (hs : c ∈ s) : s.all Text.isWhite ↔ False :=
    iff_false_intro fun h => by rw [List.all_eq_true.1 h c hs] at hw; cases hw
  have htake : (x ++ a).rtakeWhile Text.isWhite = a.rtakeWhile Text.isWhite := by
    obtain ⟨s, t, rfl⟩ := List.append_of_mem hc
    simp only [List.rtakeWhile, List.reverse_append, List.reverse_cons, List.append_assoc,
      List.cons_append, Text.takeWhile_append_cons hw]
  rw [Vanishes, Vanishes, hfalse _ (List.mem_append_right x hc), hfalse _ hc, htake]

theorem infix_append_cons_iff {c : Char} (hc : c ≠ '\n') (a b : Text) :
    ['\n', '\n'] <:+: a ++ c :: b ↔ ['\n', '\n'] <:+: a ∨ ['\n', '\n'] <:+: b := by
  constructor
  · intro h
    induction a with
    | nil =>
      rcases List.infix_cons_iff.1 h with h | h
      · exact absurd (List.cons_prefix_cons.1 h).1.symm hc
      · exact .inr h
    | cons d a ih =>
      rcases List.infix_cons_iff.1 h with h | h
      · left
        cases a with
        | nil => exact absurd (List.cons_prefix_cons.1 (List.cons_prefix_cons.1 h).2).1.symm hc
        | cons f a =>
          obtain ⟨hd, hp⟩ := List.cons_prefix_cons.1 h
          rw [← hd, ← (List.cons_prefix_cons.1 hp).1]
          exact ⟨[], a, rfl⟩
      · exact (ih h).imp_left fun h => h.trans (List.suffix_cons d a).isInfix
  · rintro (h | h)
    · exact h.trans (List.prefix_append a _).isInfix
    · exact h.trans ((List.suffix_cons c b).trans (List.suffix_append a _)).isInfix

theorem vanishes_gap_iff {u t : Text} (hu : ∀ c ∈ u, Text.isWhite c = false) (hnu : u ≠ [])
    (ha : ∀ c ∈ a, Text.isWhite c = true) (hb : ∀ c ∈ b, Text.isWhite c = true)
    (ht : Text.StartsNot Text.isWhite t) (hnt : t ≠ []) :
    Vanishes (u ++ a) ('\n' :: (b ++ t)) ↔ ['\n', '\n'] <:+: a ++ '\r' :: '\n' :: b := by
  have hleft : (u ++ a).all Text.isWhite ↔ False := by
    obtain ⟨c, u, rfl⟩ := List.exists_cons_of_ne_nil hnu
    refine iff_false_intro fun h => ?_
    have hc := List.all_eq_true.1 h c (List.mem_append_left _ List.mem_cons_self)
    rw [hu c List.mem_cons_self] at hc
    cases hc
  have hright : ('\n' :: (b ++ t)).all Text.isWhite ↔ False := by
    obtain ⟨c, t, rfl⟩ := List.exists_cons_of_ne_nil hnt
    refine iff_false_intro fun h => ?_
    have hmem : c ∈ '\n' :: (b ++ c :: t) :=
      List.mem_cons_of_mem _ (List.mem_append_right _ List.mem_cons_self)
    have hc := List.all_eq_true.1 h c hmem
    rw [ht c rfl] at hc
    cases hc
  have hnb : ∀ c ∈ '\n' :: b, Text.isWhite c = true := List.forall_mem_cons.2 ⟨rfl, hb⟩
  rw [Vanishes, hleft, hright, false_or, false_or, rtakeWhile_append (.of_forall hu) ha,
    ← List.cons_append, Text.takeWhile_append hnb ht, infix_append_cons_iff (by decide)]

end Vanishing

/-- A text in which the line ends of its source stand apart as `none`. -/
abbrev Marked := List (Option Char)

namespace Marked

variable {e : Text} {m u w t : Marked}

def spell (e : Text) (m : Marked) : Text := m.flatMap fun x => x.elim e ([·])

abbrev lf (m : Marked) : Text := m.spell ['\n']

abbrev crlf (m : Marked) : Text := m.spell ['\r', '\n']

def isWhite (x : Option Char) : Bool := x.all Text.isWhite

@[simp] theorem spell_nil (e : Text) : spell e [] = [] := rfl

@[simp] theorem spell_append (e : Text) (m m' : Marked) :
    spell e (m ++ m') = spell e m ++ spell e m' := List.flatMap_append

@[simp] theorem spell_cons_none (e : Text) (m : Marked) :
    spell e (none :: m) = e ++ spell e m := rfl

@[simp] theorem spell_cons_some (e : Text) (c : Char) (m : Marked) :
    spell e (some c :: m) = c :: spell e m := rfl

@[simp] theorem spell_map_some (e s : Text) : spell e (s.map some) = s := by
  induction s with
  | nil => rfl
  | cons c s ih => simp [ih]

@[simp] theorem lf_append (m m' : Marked) : lf (m ++ m') = lf m ++ lf m' := spell_append _ m m'

@[simp] theorem crlf_append (m m' : Marked) :
    crlf (m ++ m') = crlf m ++ crlf m' := spell_append _ m m'

@[simp] theorem lf_map_some (s : Text) : lf (s.map some) = s := spell_map_some _ s

@[simp] theorem crlf_map_some (s : Text) : crlf (s.map some) = s := spell_map_some _ s

theorem isWhite_of_mem_spell (he : ∀ c ∈ e, Text.isWhite c = true)
    (hw : ∀ x ∈ w, isWhite x = true) : ∀ c ∈ spell e w, Text.isWhite c = true := by
  intro c hc
  obtain ⟨x, hx, hc⟩ := List.mem_flatMap.1 hc
  cases x with
  | none => exact he c hc
  | some d =>
    rw [List.mem_singleton.1 hc]
    exact hw _ hx

theorem exists_eq_map_some (hu : ∀ x ∈ u, isWhite x = false) :
    ∃ s : Text, u = s.map some ∧ ∀ c ∈ s, Text.isWhite c = false := by
  induction u with
  | nil => exact ⟨[], rfl, nofun⟩
  | cons x u ih =>
    obtain ⟨s, rfl, hs⟩ := ih fun y hy => hu y (List.mem_cons_of_mem x hy)
    have hx := hu x List.mem_cons_self
    cases x with
    | none => cases hx
    | some c => exact ⟨c :: s, rfl, List.forall_mem_cons.2 ⟨hx, hs⟩⟩

theorem exists_cons_of_startsNot (ht : Text.StartsNot isWhite t) (hnt : t ≠ []) :
    ∃ c t', t = some c :: t' ∧ Text.isWhite c = false := by
  obtain ⟨x, t', rfl⟩ := List.exists_cons_of_ne_nil hnt
  have hx := ht x rfl
  cases x with
  | none => cases hx
  | some c => exact ⟨c, t', rfl, hx⟩

theorem startsNot_spell (ht : Text.StartsNot isWhite t) (hnt : t ≠ []) (e : Text) :
    Text.StartsNot Text.isWhite (spell e t) ∧ spell e t ≠ [] := by
  obtain ⟨c, t', rfl, hc⟩ := exists_cons_of_startsNot ht hnt
  exact ⟨.cons hc _, List.cons_ne_nil _ _⟩

theorem lf_eq_crlf (hm : none ∉ m) : lf m = crlf m := by
  induction m with
  | nil => rfl
  | cons x m ih =>
    cases x with
    | none => exact absurd List.mem_cons_self hm
    | some c => exact congrArg (c :: ·) (ih (List.not_mem_of_not_mem_cons hm))

@[simp] theorem count_crlf (m : Marked) :
    (crlf m).count '\r' = (lf m).count '\r' + m.count none := by
  induction m with
  | nil => rfl
  | cons x m ih =>
    cases x with
    | none =>
      simp [ih, Nat.add_assoc]
    | some c =>
      simp [List.count_cons, ih, Nat.add_right_comm]

theorem head?_lf (h : (crlf m).head? = some '\n') : (lf m).head? = some '\n' := by
  cases m with
  | nil => exact h
  | cons x m =>
    cases x with
    | none => rfl
    | some c => exact h

theorem infix_lf (h : ['\n', '\n'] <:+: crlf m) : ['\n', '\n'] <:+: lf m := by
  have hhead {s t : Text} (hst : s.head? = some '\n' → t.head? = some '\n')
      (h : ['\n', '\n'] <+: '\n' :: s) : ['\n', '\n'] <:+: '\n' :: t := by
    obtain ⟨r, hr⟩ := (List.cons_prefix_cons.1 h).2
    obtain ⟨t', rfl⟩ := List.head?_eq_some_iff.1 (hst (hr ▸ rfl))
    exact ⟨[], t', rfl⟩
  induction m with
  | nil => exact h
  | cons x m ih =>
    have hlater (d : Char) (h : ['\n', '\n'] <:+: crlf m) : ['\n', '\n'] <:+: d :: lf m :=
      (ih h).trans (List.suffix_cons d _).isInfix
    cases x with
    | none =>
      rcases List.infix_cons_iff.1 h with h | h
      · exact absurd (List.cons_prefix_cons.1 h).1 (by decide)
      · rcases List.infix_cons_iff.1 h with h | h
        · exact hhead head?_lf h
        · exact hlater _ h
    | some c =>
      rcases List.infix_cons_iff.1 h with h | h
      · obtain rfl := (List.cons_prefix_cons.1 h).1
        exact hhead head?_lf h
      · exact hlater _ h

theorem agreeIff_separator (w : Marked) : AgreeIff (none ∈ w → ['\n', '\n'] <:+: crlf w)
    (List.count '\r') (separator (lf w)) (separator (crlf w)) := by
  by_cases hi : ['\n', '\n'] <:+: crlf w
  · rw [separator, separator, if_pos hi, if_pos (infix_lf hi)]
    exact .refl (fun _ => hi) _
  by_cases hn : none ∈ w
  · refine .inr ⟨fun h => hi (h hn), ?_⟩
    have hle : (separator (lf w)).count '\r' ≤ (lf w).count '\r' := by
      rw [separator]
      split
      · exact Nat.zero_le _
      · exact (count_shrinkGaps rfl _).le
    have hsep : separator (crlf w) = shrinkGaps false (crlf w) := if_neg hi
    have hpos := List.count_pos_iff.2 hn
    rw [hsep, count_shrinkGaps rfl, count_crlf]
    omega
  · rw [lf_eq_crlf hn]
    exact .refl (fun h => absurd h hn) _

/-- Every line end goes when the text is made normal. -/
def LineEndsVanish (m : Marked) : Prop :=
  ∀ p ∈ splits none m, Vanishes (crlf p.1) ('\n' :: crlf p.2)

/-- In front of a word, only the line ends of the first part need not go by themselves. -/
theorem lineEndsVanish_append_iff (ht : Text.StartsNot isWhite t) (hnt : t ≠ []) (m : Marked) :
    LineEndsVanish (m ++ t) ↔
      (∀ p ∈ splits none m, Vanishes (crlf p.1) ('\n' :: crlf (p.2 ++ t))) ∧ LineEndsVanish t := by
  have hrest : (∀ p ∈ (splits none t).map fun p => (m ++ p.1, p.2),
      Vanishes (crlf p.1) ('\n' :: crlf p.2)) ↔ LineEndsVanish t := by
    rw [List.forall_mem_map]
    refine forall₂_congr fun p hp => ?_
    obtain ⟨c, t', rfl, hc⟩ := exists_cons_of_startsNot ht hnt
    have hp := Text.mem_splits_iff.1 hp
    obtain ⟨a, b⟩ := p
    cases a with
    | nil => cases hp
    | cons x a =>
      obtain rfl := (List.cons.inj hp).1
      dsimp only
      rw [crlf_append]
      exact vanishes_append_iff List.mem_cons_self hc _ _
  rw [LineEndsVanish, Text.splits_append, List.forall_mem_append, List.forall_mem_map, hrest]

theorem isWhite_crlf (hw : ∀ x ∈ w, isWhite x = true) : ∀ c ∈ crlf w, Text.isWhite c = true :=
  isWhite_of_mem_spell (List.all_eq_true.1 rfl) hw

theorem lineEndsVanish_white (hw : ∀ x ∈ w, isWhite x = true) : LineEndsVanish w := by
  intro p hp
  rw [Text.mem_splits_iff.1 hp] at hw
  exact .inl (List.all_eq_true.2 (isWhite_crlf fun x hx => hw x (List.mem_append_left _ hx)))

theorem lineEndsVanish_front (hw : ∀ x ∈ w, isWhite x = true)
    (ht : Text.StartsNot isWhite t) (hnt : t ≠ []) :
    LineEndsVanish (w ++ t) ↔ LineEndsVanish t := by
  rw [lineEndsVanish_append_iff ht hnt, and_iff_right]
  intro p hp
  rw [Text.mem_splits_iff.1 hp] at hw
  exact .inl (List.all_eq_true.2 (isWhite_crlf fun x hx => hw x (List.mem_append_left _ hx)))

section Words

theorem splits_word_append (s : Text) (w : Marked) : splits none (s.map some ++ w) =
    (splits none w).map fun p => (s.map some ++ p.1, p.2) := by
  rw [Text.splits_append, Text.splits_of_notMem (by simp)]
  rfl

theorem lineEndsVanish_word (hw : ∀ x ∈ w, isWhite x = true) (s : Text) :
    LineEndsVanish (s.map some ++ w) := by
  rw [LineEndsVanish, splits_word_append, List.forall_mem_map]
  intro p hp
  rw [Text.mem_splits_iff.1 hp] at hw
  have hb := isWhite_crlf fun x hx =>
    hw x (List.mem_append_right p.1 (List.mem_cons_of_mem none hx))
  exact .inr (.inl (List.all_eq_true.2 (List.forall_mem_cons.2 ⟨rfl, hb⟩)))

theorem lineEndsVanish_gap {s : Text} (hs : ∀ c ∈ s, Text.isWhite c = false)
    (hw : ∀ x ∈ w, isWhite x = true) (hns : s ≠ []) (ht : Text.StartsNot isWhite t) (hnt : t ≠ []) :
    LineEndsVanish (s.map some ++ (w ++ t)) ↔
      (none ∈ w → ['\n', '\n'] <:+: crlf w) ∧ LineEndsVanish t := by
  rw [← List.append_assoc, lineEndsVanish_append_iff ht hnt, splits_word_append,
    List.forall_mem_map]
  refine and_congr_left fun _ => ?_
  have hgap : ∀ p ∈ splits none w, (Vanishes (crlf (s.map some ++ p.1))
      ('\n' :: crlf (p.2 ++ t)) ↔ ['\n', '\n'] <:+: crlf w) := by
    intro p hp
    have hp := Text.mem_splits_iff.1 hp
    rw [hp] at hw
    obtain ⟨hst, hnst⟩ := startsNot_spell ht hnt ['\r', '\n']
    have ha := isWhite_crlf fun x hx => hw x (List.mem_append_left _ hx)
    have hb := isWhite_crlf fun x hx => hw x (List.mem_append_right _ (List.mem_cons_of_mem _ hx))
    rw [crlf_append, crlf_append, crlf_map_some, vanishes_gap_iff hs hns ha hb hst hnst, hp,
      crlf_append]
    rfl
  constructor
  · intro h hn
    obtain ⟨a, b, hab⟩ := List.append_of_mem hn
    have hp : (a, b) ∈ splits none w := Text.mem_splits_iff.2 hab
    exact (hgap _ hp).1 (h _ hp)
  · intro h p hp
    exact (hgap p hp).2 (h (Text.mem_splits_iff.1 hp ▸ List.mem_append_right _ List.mem_cons_self))

end Words

/-- Normal text is the same in both spellings if every line end goes, and otherwise has carriage
returns of line ends in the longer one. -/
theorem agreeIff_normalize (m : Marked) : AgreeIff m.LineEndsVanish (List.count '\r')
    (normalize (lf m)) (normalize (crlf m)) := by
  have hlf (w : Marked) (hw : ∀ x ∈ w, isWhite x = true) : ∀ c ∈ lf w, Text.isWhite c = true :=
    isWhite_of_mem_spell (List.all_eq_true.1 rfl) hw
  induction m using Text.words_induction isWhite with
  | white w hw =>
    have hl := normalize_white_append (hlf w hw) []
    have hc := normalize_white_append (isWhite_crlf hw) []
    rw [List.append_nil] at hl hc
    rw [hl, hc]
    exact .refl (lineEndsVanish_white hw) _
  | front w t hw ht hnt ih =>
    rw [lf_append, normalize_white_append (hlf w hw), crlf_append,
      normalize_white_append (isWhite_crlf hw)]
    exact ih.congr (lineEndsVanish_front hw ht hnt)
  | word u w hu hnu hw =>
    obtain ⟨s, rfl, hs⟩ := exists_eq_map_some hu
    have hns : s ≠ [] := fun h => hnu (by rw [h]; rfl)
    rw [lf_append, lf_map_some, normalize_word hs hns (hlf w hw), crlf_append,
      crlf_map_some, normalize_word hs hns (isWhite_crlf hw)]
    exact .refl (lineEndsVanish_word hw s) _
  | gap u w t hu hnu hw ht hnt ih =>
    obtain ⟨s, rfl, hs⟩ := exists_eq_map_some hu
    have hns : s ≠ [] := fun h => hnu (by rw [h]; rfl)
    obtain ⟨hl, hnl⟩ := startsNot_spell ht hnt ['\n']
    obtain ⟨hc, hnc⟩ := startsNot_spell ht hnt ['\r', '\n']
    rw [lf_append, lf_append, lf_map_some,
      normalize_word_append hs hns (hlf w hw) hl hnl, crlf_append, crlf_append, crlf_map_some,
      normalize_word_append hs hns (isWhite_crlf hw) hc hnc]
    have hall := (AgreeIff.refl trivial s).append ((agreeIff_separator w).append ih)
    exact hall.congr ((lineEndsVanish_gap hs hw hns ht hnt).trans (iff_of_eq (true_and _)).symm)

end Marked

end ApiBook.Xml
