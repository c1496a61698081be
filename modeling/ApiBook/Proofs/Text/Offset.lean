import ApiBook.Text.Offset
import Mathlib.Data.List.Basic

/-! # What stands at an offset

A sequence that starts with a character which it has nowhere else does not overlap itself, nor the
next sequence that starts with this character. So all places where it starts are found from the
left.
-/

namespace ApiBook.Text

variable {c : Char} {i j k next : Nat} {a b m p q r s t u v w x y : Text}

/-- A number of bytes behind which the text can be cut. -/
def IsOffset (s : Text) (i : Nat) : Prop := ∃ a b, s = a ++ b ∧ size a = i

/-- A sequence starts at an offset. -/
def StandsAt (p s : Text) (i : Nat) : Prop := ∃ a b, s = a ++ (p ++ b) ∧ size a = i

theorem standsAt_iff : StandsAt p s i ↔ ∃ x ∈ splitAt? i s, p <+: x.2 := by
  simp only [StandsAt, Option.mem_def, Prod.exists, splitAt?_eq_some_iff]
  constructor
  · rintro ⟨a, b, hs, hi⟩
    exact ⟨a, p ++ b, ⟨hs, hi⟩, List.prefix_append p b⟩
  · rintro ⟨a, _, ⟨hs, hi⟩, b, rfl⟩
    exact ⟨a, b, hs, hi⟩

instance : DecidablePred (StandsAt p s) := fun _ => decidable_of_iff _ standsAt_iff.symm

section Cuts

theorem exists_append_of_size_le (h : a ++ b = x ++ y) (hle : size a ≤ size x) :
    ∃ m, x = a ++ m ∧ b = m ++ y := by
  rcases List.append_eq_append_iff.1 h with h | ⟨m, rfl, rfl⟩
  · exact h
  · have hm : m = [] := by
      by_contra hm
      have := size_pos hm
      rw [size_append] at hle
      omega
    subst hm
    exact ⟨[], by simp, by simp⟩

theorem isOffset_append (a b : Text) : IsOffset (a ++ b) (size a) := ⟨a, b, rfl, rfl⟩

/-- No offset is inside of a character. -/
theorem IsOffset.le_or_le (h : IsOffset (a ++ c :: b) i) : i ≤ size a ∨ size (a ++ [c]) ≤ i := by
  obtain ⟨x, y, hs, rfl⟩ := h
  rcases Nat.le_total (size x) (size a) with hle | hle
  · exact .inl hle
  · obtain ⟨m, rfl, hm⟩ := exists_append_of_size_le hs hle
    cases m with
    | nil => exact .inl (by simp)
    | cons d m =>
      obtain ⟨rfl, -⟩ := List.cons.inj hm
      exact .inr (by simp)

theorem StandsAt.isOffset (h : StandsAt p s i) : IsOffset s i := by
  obtain ⟨a, b, rfl, rfl⟩ := h
  exact isOffset_append a _

theorem StandsAt.isOffset_behind (h : StandsAt p s i) : IsOffset s (i + size p) := by
  obtain ⟨a, b, rfl, rfl⟩ := h
  rw [← size_append, ← List.append_assoc]
  exact isOffset_append _ b

theorem StandsAt.le_size (h : StandsAt p s i) : i + size p ≤ size s := by
  obtain ⟨a, b, rfl, rfl⟩ := h
  simp only [size_append]
  omega

@[simp] theorem standsAt_append_iff : StandsAt p (a ++ s) (size a + k) ↔ StandsAt p s k := by
  constructor
  · rintro ⟨x, y, h, hsize⟩
    obtain ⟨m, rfl, rfl⟩ := exists_append_of_size_le h (by omega)
    exact ⟨m, y, rfl, by rw [size_append] at hsize; omega⟩
  · rintro ⟨x, y, rfl, rfl⟩
    exact ⟨a ++ x, y, (List.append_assoc a x _).symm, size_append a x⟩

@[simp] theorem standsAt_append_self_iff : StandsAt p (a ++ s) (size a) ↔ p <+: s := by
  rw [← Nat.add_zero (size a), standsAt_append_iff, standsAt_iff]
  simp [splitAt?]

theorem standsAt_cons_iff : StandsAt p (c :: s) k ↔
    k = 0 ∧ p <+: c :: s ∨ ∃ j, k = c.utf8Size + j ∧ StandsAt p s j := by
  constructor
  · rintro ⟨a, b, hs, rfl⟩
    cases a with
    | nil => exact .inl ⟨rfl, b, hs.symm⟩
    | cons d a =>
      obtain ⟨rfl, rfl⟩ := List.cons.inj hs
      exact .inr ⟨size a, rfl, a, b, rfl, rfl⟩
  · rintro (⟨rfl, b, hs⟩ | ⟨j, rfl, hj⟩)
    · exact ⟨[], b, hs.symm, rfl⟩
    · exact (standsAt_append_iff (a := [c])).2 hj

theorem StandsAt.of_prefix (hp : q <+: p) (h : StandsAt p s i) : StandsAt q s i := by
  obtain ⟨t, rfl⟩ := hp
  obtain ⟨a, b, rfl, rfl⟩ := h
  exact ⟨a, t ++ b, by rw [List.append_assoc], rfl⟩

theorem StandsAt.append (h : StandsAt p s i) (t : Text) : StandsAt p (s ++ t) i := by
  obtain ⟨a, b, rfl, rfl⟩ := h
  exact ⟨a, b ++ t, by simp, rfl⟩

theorem StandsAt.of_append (h : StandsAt p (s ++ t) i) (hle : i + size p ≤ size s) :
    StandsAt p s i := by
  obtain ⟨a, b, h, rfl⟩ := h
  rw [← List.append_assoc] at h
  obtain ⟨m, rfl, -⟩ := exists_append_of_size_le h.symm (by simp; omega)
  exact ⟨a, m, List.append_assoc a p m, rfl⟩

end Cuts

section Overlaps

/-- Nothing that starts with the same character starts inside of the sequence. -/
theorem StandsAt.le_of_lt (h : StandsAt (c :: w) s i) (hw : c ∉ w) (h' : StandsAt (c :: v) s j)
    (hij : i < j) : i + size (c :: w) ≤ j := by
  obtain ⟨a, b, rfl, rfl⟩ := h
  obtain ⟨x, y, hs, rfl⟩ := h'
  obtain ⟨m, rfl, hm⟩ := exists_append_of_size_le hs (by omega)
  rw [size_append]
  cases m with
  | nil => simp at hij
  | cons d m =>
    obtain ⟨rfl, htail⟩ := List.cons.inj hm
    have htail : w ++ b = m ++ c :: (v ++ y) := htail
    rcases List.append_eq_append_iff.1 htail with ⟨n, rfl, -⟩ | ⟨n, rfl, hn⟩
    · simp
    · cases n with
      | nil => simp
      | cons d n =>
        obtain ⟨rfl, -⟩ := List.cons.inj hn
        exact absurd (List.mem_append_right m List.mem_cons_self) hw

end Overlaps

section Search

theorem le_of_around? (h : around? p s = some (a, b)) (hs : s = x ++ (p ++ y)) :
    size a ≤ size x := by
  induction s generalizing a x with
  | nil =>
    have ha := (around?_eq_some h).symm
    simp only [List.append_eq_nil_iff] at ha
    simp [ha.1.1]
  | cons c s ih =>
    rw [around?] at h
    split at h
    · cases h
      exact Nat.zero_le _
    · rename_i hnone
      simp only [Option.map_eq_some_iff, Prod.mk.injEq] at h
      obtain ⟨⟨a, b⟩, h, rfl, rfl⟩ := h
      cases x with
      | nil =>
        rw [hs] at hnone
        exact absurd (after?_eq_some_iff.2 rfl) (hnone ▸ Option.some_ne_none y).symm
      | cons d x =>
        obtain ⟨rfl, rfl⟩ := List.cons.inj hs
        exact Nat.add_le_add_left (ih h rfl) _

theorem offset?_eq_some (h : offset? p s = some i) :
    StandsAt p s i ∧ ∀ j < i, ¬ StandsAt p s j := by
  simp only [offset?, Option.map_eq_some_iff, Prod.exists] at h
  obtain ⟨a, b, h, rfl⟩ := h
  refine ⟨⟨a, b, ?_, rfl⟩, ?_⟩
  · rw [around?_eq_some h, List.append_assoc]
  · rintro j hj ⟨x, y, hs, rfl⟩
    exact Nat.not_le_of_lt hj (le_of_around? h hs)

theorem offset?_eq_none (h : offset? p s = none) (i : Nat) : ¬ StandsAt p s i := by
  rintro ⟨a, b, hs, -⟩
  rw [offset?, Option.map_eq_none_iff, around?_eq_none_iff] at h
  exact h ⟨a, b, by rw [hs, List.append_assoc]⟩

theorem of_mem_offsetsFrom (h : k ∈ offsetsFrom p i next s) : ∃ j, k = i + j ∧ StandsAt p s j := by
  induction s generalizing i next with
  | nil => exact absurd h List.not_mem_nil
  | cons c s ih =>
    have hrest {next : Nat} (h : k ∈ offsetsFrom p (i + c.utf8Size) next s) :
        ∃ j, k = i + j ∧ StandsAt p (c :: s) j := by
      obtain ⟨j, rfl, hj⟩ := ih h
      exact ⟨c.utf8Size + j, Nat.add_assoc i _ j, standsAt_cons_iff.2 (.inr ⟨j, rfl, hj⟩)⟩
    rw [offsetsFrom] at h
    split at h
    · rename_i hp
      rcases List.mem_cons.1 h with rfl | h
      · exact ⟨0, rfl, standsAt_cons_iff.2 (.inl ⟨rfl, hp.2⟩)⟩
      · exact hrest h
    · exact hrest h

theorem pairwise_offsetsFrom (p : Text) (i next : Nat) (s : Text) :
    (offsetsFrom p i next s).Pairwise (· < ·) := by
  induction s generalizing i next with
  | nil => exact .nil
  | cons c s ih =>
    rw [offsetsFrom]
    split
    · refine .cons (fun k hk => ?_) (ih _ _)
      obtain ⟨j, rfl, -⟩ := of_mem_offsetsFrom hk
      have := c.utf8Size_pos
      omega
    · exact ih _ _

/-- Behind each place that is found the search goes on at the end of the sequence, where the next
place may be at the earliest. -/
theorem mem_offsetsFrom (hw : c ∉ w) (hnext : ∀ j, StandsAt (c :: w) s j → next ≤ i + j)
    (h : StandsAt (c :: w) s k) : i + k ∈ offsetsFrom (c :: w) i next s := by
  induction s generalizing i next k with
  | nil =>
    have := h.le_size
    have := size_pos (List.cons_ne_nil c w)
    simp only [size_nil] at *
    omega
  | cons d s ih =>
    have hshift {j : Nat} (hj : StandsAt (c :: w) s j) :
        StandsAt (c :: w) (d :: s) (d.utf8Size + j) := standsAt_cons_iff.2 (.inr ⟨j, rfl, hj⟩)
    rw [offsetsFrom]
    rcases standsAt_cons_iff.1 h with ⟨rfl, hp⟩ | ⟨k, rfl, hk⟩
    · rw [if_pos ⟨hnext 0 h, hp⟩]
      exact List.mem_cons_self
    · rw [← Nat.add_assoc]
      split
      · rename_i hp
        have hhead : StandsAt (c :: w) (d :: s) 0 := standsAt_cons_iff.2 (.inl ⟨rfl, hp.2⟩)
        have hd := d.utf8Size_pos
        refine List.mem_cons_of_mem _ (ih (fun j hj => ?_) hk)
        have := hhead.le_of_lt hw (hshift hj) (by omega)
        omega
      · refine ih (fun j hj => ?_) hk
        have := hnext _ (hshift hj)
        omega

theorem mem_offsets_iff (hw : c ∉ w) : k ∈ offsets (c :: w) s ↔ StandsAt (c :: w) s k := by
  constructor
  · intro h
    obtain ⟨j, rfl, hj⟩ := of_mem_offsetsFrom h
    rwa [Nat.zero_add]
  · intro h
    rw [← Nat.zero_add k]
    exact mem_offsetsFrom hw (fun j _ => Nat.zero_le _) h

end Search

section Find

theorem find?_eq_some_of_pairwise {f : Nat → Bool} {xs : List Nat} (hxs : xs.Pairwise (· < ·))
    (h : xs.find? f = some k) : k ∈ xs ∧ f k = true ∧ ∀ j ∈ xs, j < k → f j = false := by
  obtain ⟨hk, as, bs, rfl, has⟩ := List.find?_eq_some_iff_append.1 h
  refine ⟨by simp, hk, ?_⟩
  intro j hj hlt
  rcases List.mem_append.1 hj with hj | hj
  · simpa using has j hj
  · rcases List.mem_cons.1 hj with rfl | hj
    · exact absurd hlt (Nat.lt_irrefl j)
    · have := (List.pairwise_cons.1 (List.pairwise_append.1 hxs).2.1).1 j hj
      omega

end Find

end ApiBook.Text
