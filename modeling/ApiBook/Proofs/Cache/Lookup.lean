import Mathlib.Data.List.Nodup
import ApiBook.Cache

/-! # What a cache keeps

A call that finds its key changes nothing and builds nothing. Any other call builds once: a failure
changes nothing that is kept, and a success takes the place of all that was built from the same
files.
-/

namespace ApiBook.Cache

variable {α ε : Type} {c : Cache α} {k k' : CacheKey} {b : Built α}
  {es : List (CacheKey × Option (Built α))}

section Monadic

variable {m : Type → Type} [Monad m] {build : Unit → m (Except ε α)}

theorem getOrBuildM_of_some (h : c.find? k = some b) : c.getOrBuildM k build = pure (.ok b, c) := by
  rw [getOrBuildM, h]

theorem getOrBuildM_of_none (h : c.find? k = none) :
    c.getOrBuildM k build = do return c.record k (← build ()) := by
  rw [getOrBuildM, h]

end Monadic

theorem getOrBuild_of_some {build : Unit → Except ε α} (h : c.find? k = some b) :
    c.getOrBuild k build = (.ok b, c) := by
  rw [getOrBuild, getOrBuildM_of_some h]
  rfl

theorem getOrBuild_of_none {build : Unit → Except ε α} (h : c.find? k = none) :
    c.getOrBuild k build = c.record k (build ()) := by
  rw [getOrBuild, getOrBuildM_of_none h]
  rfl

/-! ## Entries by key -/

theorem key_of_find? {e : CacheKey × Option (Built α)} (h : es.find? (·.1 = k) = some e) :
    e.1 = k := by
  simpa using List.find?_some h

theorem exists_find? {e : CacheKey × Option (Built α)} (he : e ∈ es) :
    ∃ e', es.find? (·.1 = e.1) = some e' :=
  Option.isSome_iff_exists.1 (List.find?_isSome.2 ⟨e, he, decide_eq_true rfl⟩)

theorem mem_of_find? (h : c.find? k = some b) : (k, some b) ∈ c.entries := by
  obtain ⟨⟨k', o⟩, he, rfl⟩ := Option.bind_eq_some_iff.1 h
  obtain rfl : k' = k := key_of_find? he
  exact List.mem_of_find?_eq_some he

theorem bind_find?_reserve : ((reserve k es).find? (·.1 = k')).bind (·.2) =
    (es.find? (·.1 = k')).bind (·.2) := by
  unfold reserve
  split
  · rfl
  · rw [List.find?_append]
    cases es.find? (·.1 = k') with
    | some e => rfl
    | none => by_cases h : k = k' <;> simp [h]

theorem exists_mem_reserve (k : CacheKey) (es : List (CacheKey × Option (Built α))) :
    ∃ e ∈ reserve k es, e.1 = k := by
  unfold reserve
  split
  · rename_i h
    obtain ⟨e, he, hk⟩ := List.any_eq_true.1 h
    exact ⟨e, he, of_decide_eq_true hk⟩
  · exact ⟨(k, none), List.mem_append_right _ (List.mem_singleton_self _), rfl⟩

theorem find?_store : (store k b es).find? (·.1 = k') =
    (es.find? (·.1 = k')).map fun e => if e.1 = k then (k, some b) else e := by
  have hkey : (fun e : CacheKey × Option (Built α) => decide (e.1 = k')) ∘
      (fun e => if e.1 = k then (k, some b) else e) = fun e => decide (e.1 = k') := by
    funext e
    by_cases h : e.1 = k <;> simp [h]
  rw [store, List.find?_map, hkey]

theorem find?_evict : (evict k es).find? (·.1 = k') =
    if k' = k ∨ k'.files ≠ k.files then es.find? (·.1 = k') else none := by
  rw [evict, List.find?_filter]
  split
  · rename_i h
    congr
    funext e
    by_cases he : e.1 = k'
    · simp [he, h]
    · simp [he]
  · rename_i h
    refine List.find?_eq_none.2 fun e _ he => h ?_
    obtain ⟨hkeep, rfl⟩ : (e.1 = k ∨ e.1.files ≠ k.files) ∧ e.1 = k' := by simpa using he
    exact hkeep

/-! ## What is found after a build -/

@[simp] theorem find?_record_error (e : ε) : (c.record k (.error e)).2.find? k' = c.find? k' :=
  bind_find?_reserve

theorem find?_record_ok {a : α} : (c.record k (.ok a : Except ε α)).2.find? k' =
    if k' = k then some ⟨c.builds + 1, a⟩
    else if k'.files = k.files then none else c.find? k' := by
  rw [find?]
  change ((evict k (store k _ (reserve k c.entries))).find? (·.1 = k')).bind (·.2) = _
  rw [find?_evict, find?_store]
  by_cases hk : k' = k
  · obtain ⟨e, he, hke⟩ := exists_mem_reserve k c.entries
    obtain ⟨e', he'⟩ := exists_find? he
    rw [hke] at he'
    rw [hk, if_pos (.inl rfl), if_pos rfl, he', Option.map_some, if_pos (key_of_find? he'),
      Option.bind_some]
  · by_cases hf : k'.files = k.files
    · rw [if_neg (by simp [hk, hf]), if_neg hk, if_pos hf, Option.bind_none]
    · rw [if_pos (.inr hf), if_neg hk, if_neg hf, find?, ← bind_find?_reserve]
      cases he : (reserve k c.entries).find? (·.1 = k') with
      | none => rfl
      | some e => rw [Option.map_some, if_neg (key_of_find? he ▸ hk)]

theorem find?_of_find?_record {r : Except ε α} (h : (c.record k r).2.find? k' = some b) :
    c.find? k' = some b ∨ k' = k ∧ r = .ok b.value := by
  cases r with
  | error e => exact .inl ((find?_record_error e).symm.trans h)
  | ok a =>
    rw [find?_record_ok] at h
    split at h
    · rename_i hk
      obtain rfl := Option.some.inj h
      exact .inr ⟨hk, rfl⟩
    · split at h
      · cases h
      · exact .inl h

/-! ## Keys stay distinct -/

def DistinctKeys (c : Cache α) : Prop := (c.entries.map (·.1)).Nodup

theorem distinctKeys_empty : DistinctKeys ({} : Cache α) := List.nodup_nil

theorem nodup_keys_reserve (h : (es.map (·.1)).Nodup) : ((reserve k es).map (·.1)).Nodup := by
  unfold reserve
  split
  · exact h
  · rename_i hk
    rw [List.map_append]
    refine List.nodup_append.2 ⟨h, List.nodup_singleton k, ?_⟩
    rintro k₁ h₁ k₂ h₂ rfl
    obtain ⟨e, he, rfl⟩ := List.mem_map.1 h₁
    exact hk (List.any_eq_true.2 ⟨e, he, decide_eq_true (List.mem_singleton.1 h₂)⟩)

@[simp] theorem keys_store : (store k b es).map (·.1) = es.map (·.1) := by
  rw [store, List.map_map]
  refine List.map_congr_left fun e _ => ?_
  by_cases h : e.1 = k <;> simp [h]

theorem DistinctKeys.record (h : c.DistinctKeys) (r : Except ε α) :
    (c.record k r).2.DistinctKeys := by
  cases r with
  | error e => exact nodup_keys_reserve h
  | ok a =>
    have hs : ((store k ⟨c.builds + 1, a⟩ (reserve k c.entries)).map (·.1)).Nodup := by
      rw [keys_store]
      exact nodup_keys_reserve h
    exact hs.sublist (List.filter_sublist.map _)

theorem DistinctKeys.find?_of_mem (h : c.DistinctKeys) {e : CacheKey × Option (Built α)}
    (he : e ∈ c.entries) : c.find? e.1 = e.2 := by
  obtain ⟨e', he'⟩ := exists_find? he
  obtain rfl : e' = e :=
    List.inj_on_of_nodup_map h (List.mem_of_find?_eq_some he') he (key_of_find? he')
  rw [find?, he', Option.bind_some]

theorem DistinctKeys.filter_record_ok (h : c.DistinctKeys) {a : α} :
    (c.record k (.ok a : Except ε α)).2.entries.filter (·.1.files = k.files) =
      [(k, some ⟨c.builds + 1, a⟩)] := by
  have hd : (c.record k (.ok a : Except ε α)).2.DistinctKeys := h.record _
  have hfind : (c.record k (.ok a : Except ε α)).2.find? k = some ⟨c.builds + 1, a⟩ := by
    rw [find?_record_ok, if_pos rfl]
  refine List.perm_singleton.1 ((List.perm_ext_iff_of_nodup ?_ (List.nodup_singleton _)).2 ?_)
  · exact (List.Nodup.of_map _ hd).filter _
  · intro e
    rw [List.mem_filter, List.mem_singleton, decide_eq_true_iff]
    constructor
    · rintro ⟨he, hf⟩
      have hkey : e.1 = k := by
        rcases of_decide_eq_true (List.mem_filter.1 he).2 with hk | hne
        · exact hk
        · exact absurd hf hne
      exact Prod.ext hkey ((hd.find?_of_mem he).symm.trans (hkey ▸ hfind))
    · rintro rfl
      exact ⟨mem_of_find? hfind, rfl⟩

end ApiBook.Cache
