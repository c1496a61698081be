import Mathlib.Logic.Basic
import ApiBook.Model.Member

/-! # Filling gaps

Every filling operation reports a change exactly when its value differs from the old one. Filling
twice from one account changes nothing the second time, unless the first time took over a whole
parameter list that repeats a name.
-/

namespace ApiBook

@[simp] theorem fill_changed_iff {old new : Text} :
    (fill old new).2 = true ↔ (fill old new).1 ≠ old := by
  unfold fill
  split
  · rename_i h
    simpa [h.1] using h.2
  · simp

@[simp] theorem fill_again (old new : Text) : (fill (fill old new).1 new).1 = (fill old new).1 := by
  by_cases ho : old = [] <;> by_cases hn : new = [] <;> simp [fill, ho, hn]

theorem fill_eq_self_iff {old new : Text} :
    (fill old new).1 = old ↔ (old = [] → new = []) := by
  by_cases ho : old = [] <;> by_cases hn : new = [] <;> simp [fill, ho, hn]

@[simp] theorem fillOption_changed_iff {old new : Option Text} :
    (fillOption old new).2 = true ↔ (fillOption old new).1 ≠ old := by
  cases old <;> cases new <;> simp [fillOption]

@[simp] theorem fillOption_again (old new : Option Text) :
    (fillOption (fillOption old new).1 new).1 = (fillOption old new).1 := by
  cases old <;> cases new <;> rfl

@[simp] theorem fillOption_self (o : Option Text) : (fillOption o o).1 = o := by
  cases o <;> rfl

namespace Param

variable {p q : Param} {others ps : List Param}

theorem fillFrom_of_none (h : others.find? (·.name = p.name) = none) :
    p.fillFrom others = (p, false) := by
  simp only [fillFrom, h]

theorem fillFrom_of_some (h : others.find? (·.name = p.name) = some q) :
    p.fillFrom others =
      ({ p with
          typeName := (fill p.typeName q.typeName).1
          description := (fill p.description q.description).1 },
        (fill p.typeName q.typeName).2 || (fill p.description q.description).2) := by
  simp only [fillFrom, h]

@[simp] theorem fillFrom_name (others : List Param) (p : Param) :
    (p.fillFrom others).1.name = p.name := by
  cases h : others.find? (·.name = p.name) with
  | none => rw [fillFrom_of_none h]
  | some q => rw [fillFrom_of_some h]

@[simp] theorem fillFrom_changed_iff :
    (p.fillFrom others).2 = true ↔ (p.fillFrom others).1 ≠ p := by
  cases h : others.find? (·.name = p.name) with
  | none => simp [fillFrom_of_none h]
  | some q =>
    obtain ⟨name, typeName, description⟩ := p
    simp [fillFrom_of_some h, imp_iff_not_or]

@[simp] theorem fillFrom_again (others : List Param) (p : Param) :
    ((p.fillFrom others).1.fillFrom others).1 = (p.fillFrom others).1 := by
  have hn := fillFrom_name others p
  cases h : others.find? (·.name = p.name) with
  | none => rw [fillFrom_of_none h, fillFrom_of_none h]
  | some q =>
    have h' : others.find? (·.name = (p.fillFrom others).1.name) = some q := by rw [hn, h]
    rw [fillFrom_of_some h']
    simp [fillFrom_of_some h]

/-- No parameter of the list lacks a text that the first parameter of its name has. -/
def Settled (ps : List Param) : Prop :=
  ∀ p ∈ ps, ∀ q, ps.find? (·.name = p.name) = some q →
    (p.typeName = [] → q.typeName = []) ∧ (p.description = [] → q.description = [])

theorem fillFrom_eq_self_iff : (p.fillFrom others).1 = p ↔
    ∀ q, others.find? (·.name = p.name) = some q →
      (p.typeName = [] → q.typeName = []) ∧ (p.description = [] → q.description = []) := by
  cases h : others.find? (·.name = p.name) with
  | none => simp [fillFrom_of_none h]
  | some q =>
    obtain ⟨name, typeName, description⟩ := p
    simp [fillFrom_of_some h, fill_eq_self_iff]

theorem settled_iff : Settled ps ↔ ∀ p ∈ ps, (p.fillFrom ps).1 = p := by
  simp only [Settled, fillFrom_eq_self_iff]

instance (ps : List Param) : Decidable (Settled ps) := decidable_of_iff' _ settled_iff

@[simp] theorem settled_nil : Settled [] := by simp [Settled]

end Param

section FillParams

variable {old new : List Param}

@[simp] theorem fillParams_nil (new : List Param) : fillParams [] new = (new, !new.isEmpty) := rfl

theorem fillParams_of_ne_nil (h : old ≠ []) : fillParams old new =
    (old.map fun p => (p.fillFrom new).1, old.any fun p => (p.fillFrom new).2) := by
  simp [fillParams, h, List.any_map, Function.comp_def]

theorem fillParams_eq_self_iff (h : old ≠ []) :
    (fillParams old new).1 = old ↔ ∀ p ∈ old, (p.fillFrom new).1 = p := by
  rw [fillParams_of_ne_nil h]
  simpa using List.map_inj_left (l := old) (f := fun p => (Param.fillFrom new p).1) (g := id)

@[simp] theorem fillParams_changed_iff :
    (fillParams old new).2 = true ↔ (fillParams old new).1 ≠ old := by
  by_cases h : old = []
  · subst h
    simp
  · rw [ne_eq, fillParams_eq_self_iff h, fillParams_of_ne_nil h]
    simp

theorem fillParams_again (h : old ≠ []) :
    (fillParams (fillParams old new).1 new).1 = (fillParams old new).1 := by
  have hm : (fillParams old new).1 ≠ [] := by simpa [fillParams_of_ne_nil h] using h
  rw [fillParams_eq_self_iff hm, fillParams_of_ne_nil h]
  intro p hp
  obtain ⟨p, -, rfl⟩ := List.mem_map.1 hp
  exact Param.fillFrom_again new p

@[simp] theorem fillParams_self_iff : (fillParams old old).1 = old ↔ Param.Settled old := by
  by_cases h : old = []
  · simp [h]
  · rw [fillParams_eq_self_iff h, Param.settled_iff]

end FillParams

namespace Detail

variable {d d' : Detail}

theorem absorb_of_label_ne (h : d.label ≠ d'.label) : d.absorb d' = (d, false) := by
  cases d <;> cases d' <;> first | rfl | exact absurd rfl h

@[simp] theorem absorb_changed_iff : (d.absorb d').2 = true ↔ (d.absorb d').1 ≠ d := by
  cases d <;> cases d' <;> simp [absorb, imp_iff_not_or]

theorem absorb_again_of_label_eq (h : d.label = d'.label) :
    ((d.absorb d').1.absorb d').1 = (d.absorb d').1 ↔
      (d.params = [] → Param.Settled d'.params) := by
  cases d with
  | property v =>
    cases d' with
    | property v' => simp [absorb, params, params?]
    | event _ => exact absurd h (by decide : ("property" : Text) ≠ "event")
    | method _ _ => exact absurd h (by decide : ("property" : Text) ≠ "method")
  | event ps =>
    cases d' with
    | property _ => exact absurd h (by decide : ("event" : Text) ≠ "property")
    | event ps' =>
      by_cases hp : ps = []
      · simp [absorb, params, params?, hp]
      · simp [absorb, params, params?, hp, fillParams_again]
    | method _ _ => exact absurd h (by decide : ("event" : Text) ≠ "method")
  | method ps r =>
    cases d' with
    | property _ => exact absurd h (by decide : ("method" : Text) ≠ "property")
    | event _ => exact absurd h (by decide : ("method" : Text) ≠ "event")
    | method ps' r' =>
      by_cases hp : ps = []
      · simp [absorb, params, params?, hp]
      · simp [absorb, params, params?, hp, fillParams_again]

theorem absorb_again_iff : ((d.absorb d').1.absorb d').1 = (d.absorb d').1 ↔
    (d.label = d'.label → d.params = [] → Param.Settled d'.params) := by
  by_cases h : d.label = d'.label
  · simp only [absorb_again_of_label_eq h, h, true_imp_iff]
  · simp only [absorb_of_label_ne h, h, false_imp_iff]

theorem absorb_self_iff : (d.absorb d).1 = d ↔ Param.Settled d.params := by
  cases d <;> simp [absorb, params, params?]

end Detail

namespace Member

variable {m other : Member}

@[simp] theorem absorb_name (m other : Member) : (m.absorb other).1.name = m.name := rfl

/-- Absorbing an account reports a change exactly when the member differs afterwards. -/
@[simp] theorem absorb_changed_iff : (m.absorb other).2 = true ↔ (m.absorb other).1 ≠ m := by
  obtain ⟨name, summary, typeName, origin, detail⟩ := m
  simp [absorb, imp_iff_not_or, or_assoc]

@[simp] theorem absorb_eq_iff : m.absorb other = (m, false) ↔ (m.absorb other).1 = m := by
  simp [Prod.ext_iff, Bool.eq_false_iff]

/-- Absorbing one account twice changes nothing the second time, unless a parameter list that is
not settled was taken over. -/
theorem absorb_again_iff : (m.absorb other).1.absorb other = ((m.absorb other).1, false) ↔
    (m.detail.label = other.detail.label → m.params = [] → Param.Settled other.params) := by
  rw [absorb_eq_iff]
  simp only [absorb, fill_again, mk.injEq, true_and]
  exact Detail.absorb_again_iff

theorem absorb_self_iff : m.absorb m = (m, false) ↔ Param.Settled m.params := by
  rw [absorb_eq_iff]
  obtain ⟨name, summary, typeName, origin, detail⟩ := m
  have hfill (s : Text) : (fill s s).1 = s := fill_eq_self_iff.2 id
  simp only [absorb, hfill, mk.injEq, true_and]
  exact Detail.absorb_self_iff

end Member

end ApiBook
