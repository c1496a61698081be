import ApiBook.Model.Library

/-! # Looking types up

What `get?` finds after an update, and that a library is determined by what `get?` finds.
-/

namespace ApiBook.Library

variable {l l' : Library} {n m : Text} {t : TypeDoc} {f : TypeDoc → TypeDoc}

theorem get?_mk (es : List (Text × TypeDoc)) (h : es.Pairwise (·.1 < ·.1)) :
    get? ⟨es, h⟩ n = (es.find? (·.1 = n)).map Prod.snd := rfl

theorem mem_entries_of_get? (h : l.get? n = some t) : (n, t) ∈ l.entries := by
  obtain ⟨⟨k, u⟩, he, rfl⟩ := Option.map_eq_some_iff.1 h
  have hk : k = n := by simpa using List.find?_some he
  exact hk ▸ List.mem_of_find?_eq_some he

theorem find?_eq_none_of_lt {es : List (Text × TypeDoc)} (h : ∀ e ∈ es, n < e.1) :
    es.find? (·.1 = n) = none := by
  refine List.find?_eq_none.2 fun e he hn => ?_
  have hlt := h e he
  rw [of_decide_eq_true hn] at hlt
  exact List.lt_irrefl _ hlt

theorem get?_eq_some_iff : l.get? n = some t ↔ (n, t) ∈ l.entries := by
  refine ⟨mem_entries_of_get?, fun h => ?_⟩
  obtain ⟨es, hs⟩ := l
  rw [get?_mk]
  induction es with
  | nil => simp at h
  | cons e es ih =>
    obtain ⟨he, hes⟩ := List.pairwise_cons.1 hs
    rcases List.mem_cons.1 h with rfl | h
    · simp
    · have hne : e.1 ≠ n := by
        intro hn
        have hlt := he _ h
        rw [hn] at hlt
        exact List.lt_irrefl _ hlt
      rw [List.find?_cons_of_neg (by simpa using hne)]
      exact ih hes h

theorem get?_update : (l.update n f).get? m =
    if m = n then some (f ((l.get? n).getD (TypeDoc.ofFullName n))) else l.get? m := by
  obtain ⟨es, hs⟩ := l
  simp only [update, get?_mk]
  induction es with
  | nil => by_cases h : m = n <;> simp [updateEntries, h, eq_comm]
  | cons e es ih =>
    obtain ⟨k, t⟩ := e
    obtain ⟨he, hes⟩ := List.pairwise_cons.1 hs
    rw [updateEntries]
    split
    · rename_i hk
      subst hk
      by_cases h : m = k <;> simp [h, eq_comm]
    · rename_i hk
      split
      · rename_i hlt
        have hnone : es.find? (·.1 = n) = none :=
          find?_eq_none_of_lt fun e h => List.lt_trans hlt (he e h)
        by_cases h : m = n
        · simp [h, hk, hnone]
        · simp [h, Ne.symm h]
      · by_cases h : m = k
        · simp [h, hk]
        · simpa [Ne.symm h, hk] using ih hes

theorem nodup_entries (l : Library) : l.entries.Nodup := by
  refine l.sorted.imp ?_
  rintro e _ hlt rfl
  exact List.lt_irrefl _ hlt

theorem ext_get? (h : ∀ n, l.get? n = l'.get? n) : l = l' := by
  have hp : l.entries.Perm l'.entries :=
    (List.perm_ext_iff_of_nodup l.nodup_entries l'.nodup_entries).2 fun (n, t) => by
      rw [← get?_eq_some_iff, ← get?_eq_some_iff, h]
  have he : l.entries = l'.entries :=
    hp.eq_of_pairwise (fun _ _ _ _ hlt hgt => absurd hgt (List.lt_asymm hlt)) l.sorted l'.sorted
  cases l
  cases l'
  cases he
  rfl

theorem update_eq_self (h : l.get? n = some t) (hf : f t = t) : l.update n f = l := by
  refine ext_get? fun m => ?_
  rw [get?_update, h]
  by_cases hm : m = n <;> simp [hm, h, hf]

end ApiBook.Library
