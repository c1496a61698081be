import ApiBook.Proofs.Text.Offset
import ApiBook.Proofs.Xml.Nesting
import Mathlib.Data.Finset.Card
import Mathlib.Order.Bounds.Basic
import Mathlib.Order.Interval.Finset.Nat

/-! # Balanced tags

The end of an element is the first end tag of its name in front of which, from the start tag on, as
many elements of this name begin as end. Passing the next tag leaves the same end to be looked for,
with one more or one less element open.
-/

namespace ApiBook.Xml

open Text (size StandsAt IsOffset)

variable {a body e s : Text} {d i j k p q : Nat}

/-- An end tag of the element starts at an offset of the body. -/
def ClosesAt (e body : Text) (i : Nat) : Prop := StandsAt (endTag e) body i

/-- A start tag of the element, closed or with attributes, starts at an offset of the body. -/
def OpensAt (e body : Text) (i : Nat) : Prop :=
  ∃ c, (c = '>' ∨ Text.isWhite c = true) ∧ StandsAt ('<' :: (e ++ [c])) body i

section Occurrences

theorem opensAt_eq_true_iff : opensAt e s = true ↔
    ∃ c, (c = '>' ∨ Text.isWhite c = true) ∧ '<' :: (e ++ [c]) <+: s := by
  constructor
  · intro h
    unfold opensAt at h
    split at h
    · rename_i c r ha
      refine ⟨c, by simpa using h, r, ?_⟩
      rw [Text.after?_eq_some_iff.1 ha]
      simp
    · exact absurd h Bool.false_ne_true
  · rintro ⟨c, hc, r, rfl⟩
    have ha : Text.after? ('<' :: e) ('<' :: (e ++ [c]) ++ r) = some (c :: r) :=
      Text.after?_eq_some_iff.2 (by simp)
    rw [opensAt, ha]
    simpa using hc

@[simp] theorem opensAt_size_iff : OpensAt e (a ++ s) (size a) ↔ opensAt e s = true := by
  simp [OpensAt, opensAt_eq_true_iff]

theorem opensAt_iff : OpensAt e body i ↔ ∃ x ∈ Text.splitAt? i body, opensAt e x.2 = true := by
  simp only [Option.mem_def, Prod.exists, Text.splitAt?_eq_some_iff]
  constructor
  · intro h
    obtain ⟨c, hc, a, b, rfl, rfl⟩ := h
    exact ⟨a, _, ⟨rfl, rfl⟩, opensAt_eq_true_iff.2 ⟨c, hc, List.prefix_append _ b⟩⟩
  · rintro ⟨a, s, ⟨rfl, rfl⟩, h⟩
    exact opensAt_size_iff.2 h

instance : DecidablePred (ClosesAt e body) := inferInstanceAs (DecidablePred (StandsAt _ body))

instance : DecidablePred (OpensAt e body) := fun _ => decidable_of_iff _ opensAt_iff.symm

theorem OpensAt.standsAt (h : OpensAt e body i) : StandsAt ('<' :: e) body i := by
  obtain ⟨c, -, h⟩ := h
  exact h.of_prefix ⟨[c], rfl⟩

@[simp] theorem closesAt_size_iff : ClosesAt e (a ++ s) (size a) ↔ endTag e <+: s :=
  Text.standsAt_append_self_iff

theorem closesAt_size_iff_after? :
    ClosesAt e (a ++ s) (size a) ↔ ∃ r, Text.after? (endTag e) s = some r := by
  simp only [closesAt_size_iff, Text.after?_eq_some_iff]
  exact exists_congr fun r => eq_comm

theorem ClosesAt.standsAt (h : ClosesAt e body i) :
    StandsAt ('<' :: ('/' :: (e ++ ['>']))) body i := by
  rwa [← endTag_eq]

theorem ClosesAt.not_opensAt (he : IsElementName e) (h : ClosesAt e body i) :
    ¬ OpensAt e body i := by
  obtain ⟨a, b, rfl, rfl⟩ := h
  simp [opensAt_endTag he]

end Occurrences

section Tally

variable {P : Nat → Prop} [DecidablePred P]

/-- The number of places of a kind from one number up to another. -/
def tally (P : Nat → Prop) [DecidablePred P] (i j : Nat) : Nat := ((Finset.Ico i j).filter P).card

@[simp] theorem tally_self : tally P i i = 0 := by simp [tally]

theorem tally_add_tally (hij : i ≤ j) (hjk : j ≤ k) : tally P i j + tally P j k = tally P i k := by
  have hd : Disjoint ((Finset.Ico i j).filter P) ((Finset.Ico j k).filter P) :=
    (Finset.Ico_disjoint_Ico_consecutive i j k).mono (Finset.filter_subset P _)
      (Finset.filter_subset P _)
  simp only [tally]
  rw [← Finset.card_union_of_disjoint hd, ← Finset.filter_union,
    Finset.Ico_union_Ico_eq_Ico hij hjk]

theorem tally_eq_zero (h : ∀ q, i ≤ q → q < j → ¬ P q) : tally P i j = 0 := by
  rw [tally, Finset.card_eq_zero, Finset.filter_eq_empty_iff]
  intro q hq
  obtain ⟨hi, hj⟩ := Finset.mem_Ico.1 hq
  exact h q hi hj

theorem tally_eq_one (hi : i ≤ k) (hj : k < j) (hk : P k)
    (h : ∀ q, i ≤ q → q < j → P q → q = k) : tally P i j = 1 := by
  rw [tally, Finset.card_eq_one]
  refine ⟨k, Finset.ext fun q => ?_⟩
  simp only [Finset.mem_filter, Finset.mem_Ico, Finset.mem_singleton]
  constructor
  · rintro ⟨⟨hiq, hqj⟩, hq⟩
    exact h q hiq hqj hq
  · rintro rfl
    exact ⟨⟨hi, hj⟩, hk⟩

theorem tally_eq_ite (hij : i < j) (h : ∀ q, i ≤ q → q < j → P q → q = i) :
    tally P i j = if P i then 1 else 0 := by
  split
  · rename_i hi
    exact tally_eq_one le_rfl hij hi h
  · rename_i hi
    exact tally_eq_zero fun q hiq hqj hq => hi (h q hiq hqj hq ▸ hq)

end Tally

/-- With `depth` elements open at `i`, the end tag at `p` closes the last of them. -/
structure EndsAt (e body : Text) (depth i p : Nat) : Prop where
  le : i ≤ p
  closes : ClosesAt e body p
  balanced : depth + tally (OpensAt e body) i p = tally (ClosesAt e body) i p + 1

/-- An end tag in front of which, from `start` on, as many elements of its name begin as end. -/
structure BalancedEnd (e body : Text) (start p : Nat) : Prop where
  le : start ≤ p
  closes : ClosesAt e body p
  balanced : tally (OpensAt e body) start p = tally (ClosesAt e body) start p

@[simp] theorem endsAt_one_iff : EndsAt e body 1 i p ↔ BalancedEnd e body i p := by
  constructor
  · rintro ⟨hle, hc, hbal⟩
    exact ⟨hle, hc, by omega⟩
  · rintro ⟨hle, hc, hbal⟩
    exact ⟨hle, hc, by omega⟩

/-- No tag of the element starts from one offset up to another. -/
def NoTags (e body : Text) (i j : Nat) : Prop :=
  ∀ q, i ≤ q → q < j → ¬ OpensAt e body q ∧ ¬ ClosesAt e body q

section Passing

theorem NoTags.tally_opens (h : NoTags e body i j) : tally (OpensAt e body) i j = 0 :=
  tally_eq_zero fun q hi hj => (h q hi hj).1

theorem NoTags.tally_closes (h : NoTags e body i j) : tally (ClosesAt e body) i j = 0 :=
  tally_eq_zero fun q hi hj => (h q hi hj).2

/-- The first tag is the only one that starts in front of its end. -/
theorem NoTags.eq_of_lt {w : Text} (h : NoTags e body i j) (hj : StandsAt ('<' :: w) body j)
    (hw : '<' ∉ w) (hi : i ≤ q) (hq : q < j + size ('<' :: w))
    (htag : OpensAt e body q ∨ ClosesAt e body q) : q = j := by
  have hstands : ∃ v, StandsAt ('<' :: v) body q := by
    rcases htag with ho | hc
    · exact ⟨_, ho.standsAt⟩
    · exact ⟨_, hc.standsAt⟩
  obtain ⟨v, hv⟩ := hstands
  rcases Nat.lt_trichotomy q j with hlt | rfl | hlt
  · obtain ⟨ho, hc⟩ := h q hi hlt
    exact (htag.elim ho hc).elim
  · rfl
  · have := hj.le_of_lt hw hv hlt
    omega

/-- What is looked for stays the same when tags are passed that leave other elements open. -/
theorem endsAt_iff_of_passed {d' : Nat} (hij : i ≤ j)
    (hd : d + tally (OpensAt e body) i j = d' + tally (ClosesAt e body) i j)
    (h : ∀ q, q < j → ¬ EndsAt e body d i q) : EndsAt e body d i p ↔ EndsAt e body d' j p := by
  constructor
  · intro hp
    have hjp : j ≤ p := by
      by_contra hlt
      exact h p (by omega) hp
    have ho := tally_add_tally (P := OpensAt e body) hij hjp
    have hc := tally_add_tally (P := ClosesAt e body) hij hjp
    have hbal := hp.balanced
    exact ⟨hjp, hp.closes, by omega⟩
  · intro hp
    have ho := tally_add_tally (P := OpensAt e body) hij hp.le
    have hc := tally_add_tally (P := ClosesAt e body) hij hp.le
    have hbal := hp.balanced
    exact ⟨hij.trans hp.le, hp.closes, by omega⟩

theorem endsAt_iff_of_opens (he : IsElementName e) (hij : i ≤ j) (h : NoTags e body i j)
    (ho : OpensAt e body j) :
    EndsAt e body d i p ↔ EndsAt e body (d + 1) (j + size ('<' :: e)) p := by
  have hpos := Text.size_pos (List.cons_ne_nil '<' e)
  have honly {q : Nat} := h.eq_of_lt (q := q) ho.standsAt (notMem_name he rfl)
  have hclose : ∀ q, i ≤ q → q < j + size ('<' :: e) → ¬ ClosesAt e body q := by
    intro q hi hq hc
    obtain rfl := honly hi hq (.inr hc)
    exact hc.not_opensAt he ho
  have hone : tally (OpensAt e body) i (j + size ('<' :: e)) = 1 :=
    tally_eq_one hij (by omega) ho fun q hi hq hoq => honly hi hq (.inl hoq)
  refine endsAt_iff_of_passed (by omega) ?_ fun q hq hend => hclose q hend.le hq hend.closes
  rw [hone, tally_eq_zero hclose]

theorem endsAt_iff_of_closes (he : IsElementName e) (hij : i ≤ j) (h : NoTags e body i j)
    (hc : ClosesAt e body j) (hd : d ≠ 0) :
    EndsAt e body (d + 1) i p ↔ EndsAt e body d (j + size (endTag e)) p := by
  have hpos : 0 < size (endTag e) := Text.size_pos (by simp [endTag])
  have hm : '<' ∉ '/' :: (e ++ ['>']) := by simp [notMem_name he (a := '<') rfl]
  have honly {q : Nat} := h.eq_of_lt (q := q) hc.standsAt hm
  rw [← endTag_eq] at honly
  have hopen : ∀ q, i ≤ q → q < j + size (endTag e) → ¬ OpensAt e body q := by
    intro q hi hq ho
    obtain rfl := honly hi hq (.inl ho)
    exact hc.not_opensAt he ho
  have hone : tally (ClosesAt e body) i (j + size (endTag e)) = 1 :=
    tally_eq_one hij (by omega) hc fun q hi hq hcq => honly hi hq (.inr hcq)
  refine endsAt_iff_of_passed (by omega) ?_ fun q hq hend => ?_
  · rw [tally_eq_zero hopen, hone]
  · obtain rfl := honly hend.le hq (.inr hend.closes)
    have hbal := hend.balanced
    rw [h.tally_opens, h.tally_closes] at hbal
    omega

theorem isLeast_of_closes (hij : i ≤ j) (h : NoTags e body i j) (hc : ClosesAt e body j) :
    IsLeast {p | EndsAt e body 1 i p} j := by
  constructor
  · refine ⟨hij, hc, ?_⟩
    rw [h.tally_opens, h.tally_closes]
  · intro q hq
    by_contra hlt
    exact (h q hq.le (by omega)).2 hq.closes

end Passing

end ApiBook.Xml
