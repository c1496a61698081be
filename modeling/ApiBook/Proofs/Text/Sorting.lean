import ApiBook.Text.Basic

/-! # Sorting

Elements that an order does not tell apart stay in their order when a list is sorted, and the
elements of an ascending list determine it.
-/

namespace ApiBook

theorem Text.le_antisymm {s t : Text} (h : le s t = true) (h' : le t s = true) : s = t :=
  List.le_antisymm (List.not_lt.1 (le_iff.1 h)) (List.not_lt.1 (le_iff.1 h'))

variable {α : Type} {le : α → α → Bool} {p : α → Bool}

theorem filter_mergeSort (htrans : ∀ a b c, le a b → le b c → le a c)
    (htotal : ∀ a b, le a b || le b a) (h : ∀ a b, p a → p b → le a b) (l : List α) :
    (l.mergeSort le).filter p = l.filter p := by
  have hp : (l.filter p).Pairwise fun a b => le a b := by
    refine List.Pairwise.imp_of_mem (R := fun _ _ => True) ?_ (List.pairwise_of_forall (by simp))
    intro a b ha hb _
    exact h a b (List.mem_filter.1 ha).2 (List.mem_filter.1 hb).2
  have hsub := (List.sublist_mergeSort htrans htotal hp List.filter_sublist).filter p
  rw [List.filter_filter] at hsub
  simp only [Bool.and_self] at hsub
  exact (hsub.eq_of_length ((List.mergeSort_perm l le).filter p).length_eq.symm).symm

theorem find?_mergeSort (htrans : ∀ a b c, le a b → le b c → le a c)
    (htotal : ∀ a b, le a b || le b a) (h : ∀ a b, p a → p b → le a b) (l : List α) :
    (l.mergeSort le).find? p = l.find? p := by
  rw [← List.head?_filter, filter_mergeSort htrans htotal h, List.head?_filter]

theorem eq_of_ascending {R : α → α → Prop} {l l' : List α} (hR : ∀ a b, R a b → ¬ R b a)
    (h : l.Pairwise R) (h' : l'.Pairwise R) (hmem : ∀ a, a ∈ l ↔ a ∈ l') : l = l' := by
  have hne : ∀ {a b}, R a b → a ≠ b := by
    rintro a b hab rfl
    exact hR a a hab hab
  have hperm : l.Perm l' := (List.perm_ext_iff_of_nodup (h.imp hne) (h'.imp hne)).2 hmem
  exact hperm.eq_of_pairwise (fun a b _ _ hab hba => absurd hba (hR a b hab)) h h'

end ApiBook
