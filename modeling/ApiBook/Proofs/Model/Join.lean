import Mathlib.Data.List.Induction
import ApiBook.Model.TypeDoc
import ApiBook.Proofs.Model.Absorb

/-! # Joining members

A member that joins a type is found under its name, changes no other name and repeats none. Nothing
changes and nothing is counted exactly when the type already holds all that the joining members
tell.
-/

namespace ApiBook

theorem nodup_concat_of_new {α : Type} [BEq α] [LawfulBEq α] {n : α} {ns : List α}
    (h : ns.Nodup) : (if n ∈ ns then ns else ns ++ [n]).Nodup := by
  split
  · exact h
  · rename_i hn
    refine List.nodup_append.2 ⟨h, by simp, ?_⟩
    rintro a ha b hb rfl
    exact hn (List.mem_singleton.1 hb ▸ ha)

section FirstOccurrences

variable {α : Type} [BEq α] [LawfulBEq α]

theorem eraseDups_concat (ns : List α) (n : α) : (ns ++ [n]).eraseDups =
    if n ∈ ns.eraseDups then ns.eraseDups else ns.eraseDups ++ [n] := by
  rw [List.eraseDups_append]
  by_cases h : n ∈ ns
  · rw [if_pos (List.mem_eraseDups.2 h)]
    simp [List.removeAll, h]
  · rw [if_neg fun hn => h (List.mem_eraseDups.1 hn)]
    simp [List.removeAll, List.eraseDups_cons, h]

theorem nodup_eraseDups (ns : List α) : ns.eraseDups.Nodup := by
  induction ns using List.reverseRecOn with
  | nil => exact List.nodup_nil
  | append_singleton ns n ih =>
    rw [eraseDups_concat]
    exact nodup_concat_of_new ih

theorem eraseDups_sublist (ns : List α) : ns.eraseDups.Sublist ns := by
  induction ns using List.reverseRecOn with
  | nil => exact List.nil_sublist _
  | append_singleton ns n ih =>
    rw [eraseDups_concat]
    split
    · exact ih.trans (List.sublist_append_left ns [n])
    · exact ih.append (List.Sublist.refl [n])

end FirstOccurrences

@[simp] theorem Outcome.plus_eq_zero_iff {a b : Outcome} : a.plus b = {} ↔ a = {} ∧ b = {} := by
  obtain ⟨a₁, a₂⟩ := a
  obtain ⟨b₁, b₂⟩ := b
  simp only [plus, mk.injEq, Nat.add_eq_zero_iff]
  exact and_and_and_comm

namespace TypeDoc

variable {t : TypeDoc} {m x : Member} {ms xs : List Member} {n : Text}

theorem joinMember_of_name_eq (h : x.name = m.name) : joinMember m (x :: xs) =
    ((x.absorb m).1 :: xs, { augmented := if (x.absorb m).2 then 1 else 0 }) := by
  rw [joinMember, if_pos h]

theorem joinMember_of_name_ne (h : x.name ≠ m.name) :
    joinMember m (x :: xs) = (x :: (joinMember m xs).1, (joinMember m xs).2) := by
  rw [joinMember, if_neg h]

/-! ## Names after a join -/

theorem joinMember_names (m : Member) (xs : List Member) : (joinMember m xs).1.map (·.name) =
    if m.name ∈ xs.map (·.name) then xs.map (·.name) else xs.map (·.name) ++ [m.name] := by
  induction xs with
  | nil => simp [joinMember]
  | cons x xs ih =>
    by_cases hx : x.name = m.name
    · rw [joinMember_of_name_eq hx]
      simp [hx]
    · rw [joinMember_of_name_ne hx]
      simp only [List.map_cons, ih, List.mem_cons, Ne.symm hx, false_or]
      split <;> rfl

/-! ## What is found after a join -/

theorem find?_joinMember : (joinMember m xs).1.find? (·.name = n) =
    if n = m.name then some (((xs.find? (·.name = n)).map fun x => (x.absorb m).1).getD m)
    else xs.find? (·.name = n) := by
  induction xs with
  | nil => by_cases h : n = m.name <;> simp [joinMember, h, Ne.symm]
  | cons x xs ih =>
    by_cases hx : x.name = m.name
    · rw [joinMember_of_name_eq hx]
      by_cases h : n = m.name
      · simp [hx, h]
      · simp [hx, h, Ne.symm h]
    · rw [joinMember_of_name_ne hx]
      by_cases h : x.name = n
      · subst h
        simp [hx]
      · simpa [h] using ih

theorem member?_join : (t.join m).1.member? n =
    if n = m.name then some (((t.member? n).map fun x => (x.absorb m).1).getD m)
    else t.member? n :=
  find?_joinMember

theorem member?_joinAll_of_notMem (h : n ∉ ms.map (·.name)) :
    (t.joinAll ms).1.member? n = t.member? n := by
  induction ms generalizing t with
  | nil => rfl
  | cons m ms ih =>
    obtain ⟨hm, hms⟩ := not_or.1 (List.mem_cons.not.1 h)
    rw [joinAll, ih hms, member?_join, if_neg hm]

/-- With distinct names, each joining member meets only the member of its name. -/
theorem member?_joinAll (hn : (ms.map (·.name)).Nodup) (hm : m ∈ ms) :
    (t.joinAll ms).1.member? m.name =
      some (((t.member? m.name).map fun x => (x.absorb m).1).getD m) := by
  induction ms generalizing t with
  | nil => simp at hm
  | cons m' ms ih =>
    obtain ⟨hm', hms⟩ := List.nodup_cons.1 hn
    rw [joinAll]
    rcases List.mem_cons.1 hm with rfl | hm
    · rw [member?_joinAll_of_notMem hm', member?_join, if_pos rfl]
    · have hne : m.name ≠ m'.name := fun h => hm' (List.mem_map.2 ⟨m, hm, h⟩)
      rw [ih hms hm, member?_join, if_neg hne]

@[simp] theorem joinAll_cons (t : TypeDoc) (m : Member) (ms : List Member) : t.joinAll (m :: ms) =
    (((t.join m).1.joinAll ms).1, (t.join m).2.plus ((t.join m).1.joinAll ms).2) := rfl

@[simp] theorem joinAll_summary (ms : List Member) : (t.joinAll ms).1.summary = t.summary := by
  induction ms generalizing t with
  | nil => rfl
  | cons m ms ih => rw [joinAll, ih]; rfl

/-! ## Joins that change nothing -/

/-- The type holds all that a member tells. -/
def Saturated (t : TypeDoc) (m : Member) : Prop :=
  ∃ x, t.member? m.name = some x ∧ x.absorb m = (x, false)

theorem joinMember_outcome_iff : (joinMember m xs).2 = {} ↔
    ∃ x, xs.find? (·.name = m.name) = some x ∧ x.absorb m = (x, false) := by
  induction xs with
  | nil => simp [joinMember]
  | cons x xs ih =>
    by_cases hx : x.name = m.name
    · have hf : (x :: xs).find? (·.name = m.name) = some x := by simp [hx]
      rw [joinMember_of_name_eq hx]
      simp only [hf, Option.some.injEq, exists_eq_left', Member.absorb_eq_iff]
      rw [← not_iff_not, ← ne_eq _ x, ← Member.absorb_changed_iff]
      simp
    · rw [joinMember_of_name_ne hx]
      simpa [hx] using ih

theorem joinMember_eq_self (h : (joinMember m xs).2 = {}) : (joinMember m xs).1 = xs := by
  induction xs with
  | nil => simp [joinMember] at h
  | cons x xs ih =>
    by_cases hx : x.name = m.name
    · rw [joinMember_of_name_eq hx] at h ⊢
      have hc : (x.absorb m).2 ≠ true := by simpa using h
      rw [ne_eq, Member.absorb_changed_iff, not_not] at hc
      rw [hc]
    · rw [joinMember_of_name_ne hx] at h ⊢
      rw [ih h]

@[simp] theorem join_outcome_iff : (t.join m).2 = {} ↔ t.Saturated m :=
  joinMember_outcome_iff

theorem join_eq_self (h : t.Saturated m) : t.join m = (t, {}) := by
  have ho := joinMember_outcome_iff.2 h
  exact Prod.ext (congrArg (fun xs => { t with members := xs }) (joinMember_eq_self ho)) ho

theorem joinAll_eq_self_iff : t.joinAll ms = (t, {}) ↔ ∀ m ∈ ms, t.Saturated m := by
  induction ms with
  | nil => simp [joinAll]
  | cons m ms ih =>
    rw [List.forall_mem_cons, ← ih, joinAll_cons, Prod.ext_iff, Outcome.plus_eq_zero_iff]
    constructor
    · rintro ⟨ht, hs, ho⟩
      have hs := join_outcome_iff.1 hs
      rw [join_eq_self hs] at ht ho
      exact ⟨hs, Prod.ext ht ho⟩
    · rintro ⟨hs, h⟩
      rw [join_eq_self hs, h]
      exact ⟨rfl, rfl, rfl⟩

/-! ## Joining the same members again -/

/-- The parameter list of a member goes into the type as it is: the type lacks the member, or has
it in the same kind without parameters. -/
def TakesParams (t : TypeDoc) (m : Member) : Prop :=
  ∀ x, t.member? m.name = some x → x.detail.label = m.detail.label ∧ x.params = []

instance (t : TypeDoc) (m : Member) : Decidable (t.TakesParams m) :=
  decidable_of_iff (∀ x ∈ t.member? m.name, x.detail.label = m.detail.label ∧ x.params = []) Iff.rfl

theorem saturated_joinAll_iff (hn : (ms.map (·.name)).Nodup) (hm : m ∈ ms) :
    (t.joinAll ms).1.Saturated m ↔ (t.TakesParams m → Param.Settled m.params) := by
  simp only [Saturated, member?_joinAll hn hm, Option.some.injEq, exists_eq_left', TakesParams]
  cases t.member? m.name with
  | none => simpa using Member.absorb_self_iff
  | some x => simpa using Member.absorb_again_iff

end TypeDoc

end ApiBook
