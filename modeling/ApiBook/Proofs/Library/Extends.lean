import ApiBook.Proofs.Library.Growth
import ApiBook.Proofs.Library.Records
import ApiBook.Proofs.Model.Extends

/-! # Extended libraries

Every step extends a library: what is documented stays. Only the type that a step addresses can
differ afterwards, and a script document that is refused changes nothing.
-/

namespace ApiBook.Library

variable {l l' l'' : Library} {n : Text} {f : TypeDoc → TypeDoc}

def Extends (l l' : Library) : Prop :=
  ∀ n t, l.get? n = some t → ∃ t', l'.get? n = some t' ∧ t.Extends t'

theorem Extends.refl (l : Library) : l.Extends l := fun _ t h => ⟨t, h, .refl t⟩

theorem Extends.trans (h : l.Extends l') (h' : l'.Extends l'') : l.Extends l'' := by
  intro n t ht
  obtain ⟨t', ht', he⟩ := h n t ht
  obtain ⟨t'', ht'', he'⟩ := h' n t' ht'
  exact ⟨t'', ht'', he.trans he'⟩

/-- A step addresses the types that its records belong to, or the type that it merges into. -/
def Step.Addresses (n : Text) : Step → Prop
  | .add rs => ∃ r ∈ rs, r.owner? = some n
  | .merge m _ => m = n

/-! ## One record, one script document -/

theorem extends_addRecord (r : Record) (t : TypeDoc) : t.Extends (t.addRecord r) := by
  unfold TypeDoc.addRecord
  split
  · exact t.extends_fillSummary r.summary
  · split
    · rename_i m _
      exact t.extends_join m
    · exact .refl t

theorem extends_mergeType (s : Script.Document) (t : TypeDoc) : t.Extends (mergeType s t).1 := by
  unfold mergeType
  cases s.classDoc with
  | none => exact t.extends_joinAll s.members
  | some c =>
    exact (t.extends_fillSummary c.summary).trans ((t.fillSummary c.summary).extends_joinAll _)

theorem extends_update (h : ∀ t, l.get? n = some t → t.Extends (f t)) :
    l.Extends (l.update n f) := by
  intro m t ht
  rw [get?_update]
  by_cases hm : m = n
  · subst hm
    rw [if_pos rfl, ht]
    exact ⟨f t, rfl, h t ht⟩
  · rw [if_neg hm]
    exact ⟨t, ht, .refl t⟩

theorem get?_update_of_ne {m : Text} (h : m ≠ n) : (l.update n f).get? m = l.get? m := by
  rw [get?_update, if_neg h]

theorem extends_add (l : Library) (r : Record) : l.Extends (l.add r) := by
  cases h : r.owner? with
  | none =>
    rw [add_of_owner?_eq_none h]
    exact .refl l
  | some n =>
    rw [add_of_owner?_eq_some h]
    exact extends_update fun t _ => extends_addRecord r t

theorem get?_add_of_ne {r : Record} (h : r.owner? ≠ some n) : (l.add r).get? n = l.get? n := by
  rw [get?_add, if_neg h]

@[simp] theorem merge?_eq_none_iff {s : Script.Document} :
    l.merge? n s = none ↔ l.get? n = none := by
  rw [merge?, Option.map_eq_none_iff]

theorem extends_merge? {s : Script.Document} {o : Outcome} (h : l.merge? n s = some (l', o)) :
    l.Extends l' ∧ ∀ m, m ≠ n → l'.get? m = l.get? m := by
  obtain ⟨t, ht, he⟩ := Option.map_eq_some_iff.1 h
  obtain ⟨rfl, -⟩ := Prod.mk.inj he
  refine ⟨extends_update fun u hu => ?_, fun m hm => get?_update_of_ne hm⟩
  obtain rfl : t = u := Option.some.inj (ht.symm.trans hu)
  exact extends_mergeType s t

/-! ## Steps and runs -/

theorem extends_apply (l : Library) (step : Step) : l.Extends (l.apply step) :=
  apply_induction (P := l.Extends) (fun _ r h => h.trans (extends_add _ r))
    (fun _ _ _ _ _ hm h => h.trans (extends_merge? hm).1) (.refl l)

theorem extends_run (l : Library) (steps : List Step) : l.Extends (l.after steps) := by
  induction steps generalizing l with
  | nil => exact .refl l
  | cons step steps ih => exact (extends_apply l step).trans (ih (l.apply step))

theorem get?_addAll_of_forall_ne {rs : List Record} (h : ∀ r ∈ rs, r.owner? ≠ some n) :
    (l.addAll rs).get? n = l.get? n := by
  rw [get?_addAll, if_neg]
  rintro ⟨r, hr, ho⟩
  exact h r hr ho

theorem get?_apply_of_not_addresses {step : Step} (h : ¬ step.Addresses n) :
    (l.apply step).get? n = l.get? n := by
  cases step with
  | add rs => exact get?_addAll_of_forall_ne fun r hr ho => h ⟨r, hr, ho⟩
  | merge m s =>
    rw [apply]
    cases hm : l.merge? m s with
    | none => rfl
    | some p => exact (extends_merge? hm).2 n (Ne.symm h)

theorem get?_after_of_not_addresses {steps : List Step} (h : ∀ step ∈ steps, ¬ step.Addresses n) :
    (l.after steps).get? n = l.get? n := by
  induction steps generalizing l with
  | nil => rfl
  | cons step steps ih =>
    obtain ⟨hs, hss⟩ := List.forall_mem_cons.1 h
    exact (ih hss).trans (get?_apply_of_not_addresses hs)

/-- What is documented stays. Adding a record or merging a script document extends the library and
leaves every type as it is that the step does not address; merging into a type that is not
documented leaves the library as it is; and what holds of one step holds of all runs. -/
theorem extends_after (l : Library) :
    (∀ r, l.Extends (l.add r) ∧ ∀ n, r.owner? ≠ some n → (l.add r).get? n = l.get? n) ∧
    (∀ n s l' o, l.merge? n s = some (l', o) →
      l.Extends l' ∧ ∀ m, m ≠ n → l'.get? m = l.get? m) ∧
    (∀ n s, l.merge? n s = none → l.apply (.merge n s) = l ∧ l.get? n = none) ∧
    ∀ steps, l.Extends (l.after steps) ∧
      ∀ n, (∀ step ∈ steps, ¬ step.Addresses n) → (l.after steps).get? n = l.get? n := by
  refine ⟨fun r => ⟨extends_add l r, fun n h => get?_add_of_ne h⟩,
    fun n s l' o h => extends_merge? h, fun n s h => ⟨?_, merge?_eq_none_iff.1 h⟩,
    fun steps => ⟨extends_run l steps, fun n h => get?_after_of_not_addresses h⟩⟩
  rw [apply, h]
  rfl

end ApiBook.Library
