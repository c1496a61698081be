import ApiBook.Proofs.Library.Growth
import ApiBook.Proofs.Model.Join

/-! # Well-formed libraries

In every library that grows from the empty one, types are filed under their own full names, these
names are split at their last dots, and the members of a type have distinct names.
-/

namespace ApiBook

namespace TypeDoc

variable {t : TypeDoc} {n : Text}

/-- The simple name follows the last dot of the full name, and the scope precedes it. -/
def IsSplit (t : TypeDoc) : Prop :=
  (t.fullName = t.scope ++ '.' :: t.name ∧ '.' ∉ t.name) ∨
    ('.' ∉ t.fullName ∧ t.name = t.fullName ∧ t.scope = [])

/-- What holds of a type filed under `n`. -/
structure WellFormed (n : Text) (t : TypeDoc) : Prop where
  fullName_eq : t.fullName = n
  isSplit : t.IsSplit
  nodup : (t.members.map (·.name)).Nodup

theorem ofFullName_wellFormed (n : Text) : (ofFullName n).WellFormed n := by
  unfold ofFullName
  cases h : Text.cutLast? '.' n with
  | some p =>
    obtain ⟨scope, name⟩ := p
    exact ⟨rfl, .inl (Text.cutLast?_eq_some h), List.nodup_nil⟩
  | none => exact ⟨rfl, .inr ⟨Text.cutLast?_eq_none h, rfl, rfl⟩, List.nodup_nil⟩

theorem WellFormed.fillSummary (h : t.WellFormed n) (s : Text) :
    (t.fillSummary s).WellFormed n :=
  ⟨h.fullName_eq, h.isSplit, h.nodup⟩

theorem WellFormed.join (h : t.WellFormed n) (m : Member) : (t.join m).1.WellFormed n := by
  refine ⟨h.fullName_eq, h.isSplit, ?_⟩
  change ((joinMember m t.members).1.map (·.name)).Nodup
  rw [joinMember_names]
  exact nodup_concat_of_new h.nodup

theorem WellFormed.joinAll (h : t.WellFormed n) (ms : List Member) :
    (t.joinAll ms).1.WellFormed n := by
  induction ms generalizing t with
  | nil => exact h
  | cons m ms ih => exact ih (h.join m)

theorem WellFormed.mergeType (h : t.WellFormed n) (s : Script.Document) :
    (Library.mergeType s t).1.WellFormed n := by
  unfold Library.mergeType
  cases s.classDoc with
  | none => exact h.joinAll _
  | some c => exact (h.fillSummary _).joinAll _

theorem WellFormed.nodup_label (h : t.WellFormed n) :
    (t.members.map fun m => (m.name, m.detail.label)).Nodup := by
  refine List.pairwise_map.2 ((List.pairwise_map.1 h.nodup).imp fun hne he => ?_)
  exact hne (Prod.mk.inj he).1

end TypeDoc

namespace Library

variable {l l' : Library} {n : Text}

def WellFormed (l : Library) : Prop := ∀ e ∈ l.entries, e.2.WellFormed e.1

theorem wellFormed_iff : l.WellFormed ↔ ∀ n t, l.get? n = some t → t.WellFormed n := by
  simp only [get?_eq_some_iff, WellFormed, Prod.forall]

theorem WellFormed.update (h : l.WellFormed) {f : TypeDoc → TypeDoc}
    (hf : ∀ t, t.WellFormed n → (f t).WellFormed n) : (l.update n f).WellFormed := by
  rw [wellFormed_iff] at h ⊢
  intro m t ht
  rw [get?_update] at ht
  split at ht
  · rename_i hm
    subst hm
    obtain rfl := Option.some.inj ht
    cases hl : l.get? m with
    | none => exact hf _ (TypeDoc.ofFullName_wellFormed m)
    | some u => exact hf _ (h m u hl)
  · exact h m t ht

theorem WellFormed.add (h : l.WellFormed) (r : Record) : (l.add r).WellFormed := by
  unfold Library.add
  split
  · exact h
  · exact h
  · exact h.update fun _ ht => ht.fillSummary _
  all_goals
    split
    · exact h
    · split
      · exact h
      · exact h.update fun _ ht => ht.join _

theorem WellFormed.merge? (h : l.WellFormed) {s : Script.Document} {o : Outcome}
    (hm : l.merge? n s = some (l', o)) : l'.WellFormed := by
  obtain ⟨t, ht, he⟩ := Option.map_eq_some_iff.1 hm
  obtain ⟨rfl, -⟩ := Prod.mk.inj he
  exact h.update fun _ _ => (wellFormed_iff.1 h n t ht).mergeType s

theorem wellFormed_empty_after (steps : List Step) : (empty.after steps).WellFormed :=
  after_induction (fun _ r h => h.add r) (fun _ _ _ _ _ hm h => h.merge? hm)
    (fun e he => by simp [empty] at he)

/-- A library that grows from the empty one is well formed after all steps, and no two members of
one type agree in name and kind. -/
theorem wellFormed_after (steps : List Step) :
    (empty.after steps).WellFormed ∧
      ∀ t ∈ (empty.after steps).types, (t.members.map fun m => (m.name, m.detail.label)).Nodup := by
  have h := wellFormed_empty_after steps
  refine ⟨h, fun t ht => ?_⟩
  obtain ⟨e, he, rfl⟩ := List.mem_map.1 ht
  exact (h e he).nodup_label

end Library

end ApiBook
