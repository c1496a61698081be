import ApiBook.Text.Blank
import ApiBook.Text.Word

/-! # Relations between classes

No white space character is a word character, and every ASCII letter is one.
-/

namespace ApiBook.Text

variable {c : Char}

theorem toNat_of_isWhite (h : isWhite c = true) :
    c.toNat ∈ 32 :: List.range' 9 5 ∨
      c.toNat ∈ whiteRanges.flatMap fun r => List.range' r.1 (r.2 + 1 - r.1) := by
  unfold isWhite at h
  split at h
  · simp only [Bool.or_eq_true, beq_iff_eq, Bool.and_eq_true, decide_eq_true_eq] at h
    refine Or.inl (List.mem_cons.2 ?_)
    rcases h with rfl | h
    · exact Or.inl rfl
    · exact Or.inr (List.mem_range'_1.2 (by omega))
  · obtain ⟨r, hr, h⟩ := (inRanges_iff _ _).1 h
    exact Or.inr (List.mem_flatMap.2 ⟨r, hr, List.mem_range'_1.2 (by omega)⟩)

theorem isWord_of_isWhite (h : isWhite c = true) : isWord c = false := by
  have hlow : ∀ n ∈ 32 :: List.range' 9 5, isWord (Char.ofNat n) = false := by decide +kernel
  have hhigh : ∀ n ∈ whiteRanges.flatMap fun r => List.range' r.1 (r.2 + 1 - r.1),
      isWord (Char.ofNat n) = false := by decide +kernel
  rw [← Char.ofNat_toNat c]
  exact (toNat_of_isWhite h).elim (hlow _) (hhigh _)

theorem isWhite_of_isWord_or {a b : Char} (ha : isWhite a = false) (hb : isWhite b = false)
    (h : (isWord c || c == a || c == b) = true) : isWhite c = false := by
  cases hw : isWhite c with
  | false => rfl
  | true =>
    simp only [isWord_of_isWhite hw, Bool.false_or, Bool.or_eq_true, beq_iff_eq] at h
    rcases h with rfl | rfl
    · exact hw.symm.trans ha
    · exact hw.symm.trans hb

theorem isBlank_of_not_isWhite (h : isWhite c = false) : isBlank c = false := by
  cases hb : isBlank c with
  | false => rfl
  | true => exact (isWhite_of_isBlank hb).symm.trans h

theorem isWord_of_isAlpha (h : c.isAlpha = true) : isWord c = true := by
  have hc : c.toNat < 128 := by
    have h : (decide ('A'.val ≤ c.val ∧ c.val ≤ 'Z'.val) ||
        decide ('a'.val ≤ c.val) && decide (c.val ≤ 'z'.val)) = true := h
    simp only [Bool.or_eq_true, Bool.and_eq_true, decide_eq_true_eq,
      UInt32.le_iff_toNat_le] at h
    have hz : 'Z'.val.toNat < 128 ∧ 'z'.val.toNat < 128 := by decide
    have hn : c.toNat = c.val.toNat := rfl
    omega
  exact isWord_of_isAlphanum hc (by simp [Char.isAlphanum, h])

end ApiBook.Text
