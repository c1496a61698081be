import ApiBook.Proofs.Model.Extends
import ApiBook.Proofs.Model.Join

/-! # Saturated types

A type is saturated with a member when it holds all that the member tells, and extensions keep it
so. Joining one member twice is enough: the first join settles which parameter list the type has,
the second fills its gaps.
-/

namespace ApiBook

/-! ## What is filled stays filled -/

theorem Text.Kept.eq_nil {s s' : Text} (h : Text.Kept s s') (hs : s' = []) : s = [] := by
  by_contra hne
  exact hne ((h hne).symm.trans hs)

theorem fill_eq_self_of_kept {old old' new : Text} (hk : Text.Kept old old')
    (h : (fill old new).1 = old) : (fill old' new).1 = old' :=
  fill_eq_self_iff.2 fun ho => fill_eq_self_iff.1 h (hk.eq_nil ho)

theorem fillOption_eq_self_of_kept {old old' new : Option Text} (hk : OptionKept old old')
    (h : (fillOption old new).1 = old) : (fillOption old' new).1 = old' := by
  cases old with
  | some s =>
    rw [hk s rfl]
    rfl
  | none =>
    cases new with
    | none => cases old' <;> rfl
    | some t => exact absurd h (Option.some_ne_none t)

theorem Param.fillFrom_eq_self_of_extends {p p' : Param} {others : List Param}
    (he : p.Extends p') (h : (p.fillFrom others).1 = p) : (p'.fillFrom others).1 = p' := by
  rw [fillFrom_eq_self_iff] at h ⊢
  rw [he.name_eq]
  intro q hq
  obtain ⟨ht, hd⟩ := h q hq
  exact ⟨fun hn => ht (he.typeName.eq_nil hn), fun hn => hd (he.description.eq_nil hn)⟩

section Params

variable {ps ps' new : List Param}

theorem ParamsExtend.eq_nil (h : ParamsExtend ps ps') (hp : ps' = []) : ps = [] := by
  by_contra hne
  exact hne (List.forall₂_nil_right_iff.1 (hp ▸ h hne))

@[simp] theorem fillParams_no_others (ps : List Param) : (fillParams ps []).1 = ps := by
  by_cases hp : ps = []
  · simp [hp]
  · exact (fillParams_eq_self_iff hp).2 fun p _ => congrArg Prod.fst (Param.fillFrom_of_none rfl)

theorem fillParams_eq_self_of_extends (he : ParamsExtend ps ps')
    (h : (fillParams ps new).1 = ps) : (fillParams ps' new).1 = ps' := by
  by_cases hp : ps = []
  · have hn : new = [] := by simpa [hp] using h
    simp [hn]
  · -- Parameters keep their positions, so each is compared with the one it comes from.
    rw [fillParams_eq_self_iff hp] at h
    rw [fillParams_eq_self_iff (mt he.eq_nil hp)]
    have hf := he hp
    clear hp he
    induction hf with
    | nil => simp
    | cons hpe _ ih =>
      rw [List.forall_mem_cons] at h ⊢
      exact ⟨Param.fillFrom_eq_self_of_extends hpe h.1, ih h.2⟩

end Params

namespace Detail

variable {d d' e : Detail}

theorem Extends.label_eq (h : d.Extends d') : d'.label = d.label := by
  cases h <;> rfl

theorem Extends.paramsExtend (h : d.Extends d') : ParamsExtend d.params d'.params := by
  cases h with
  | property _ => exact .refl []
  | event h => exact h
  | method h _ => exact h

theorem absorb_eq_self_of_extends (he : d.Extends d') (h : (d.absorb e).1 = d) :
    (d'.absorb e).1 = d' := by
  cases he with
  | property hv =>
    cases e with
    | property _ =>
      exact congrArg property (fillOption_eq_self_of_kept hv (property.inj h))
    | event _ => rfl
    | method _ _ => rfl
  | event hps =>
    cases e with
    | property _ => rfl
    | event _ => exact congrArg event (fillParams_eq_self_of_extends hps (event.inj h))
    | method _ _ => rfl
  | method hps hr =>
    cases e with
    | property _ => rfl
    | event _ => rfl
    | method _ _ =>
      obtain ⟨hp, ho⟩ := method.inj h
      exact congrArg₂ method (fillParams_eq_self_of_extends hps hp)
        (fillOption_eq_self_of_kept hr ho)

theorem params_absorb (hl : d.label = e.label) :
    (d.absorb e).1.params = (fillParams d.params e.params).1 := by
  cases d with
  | property _ =>
    cases e with
    | property _ => rfl
    | event _ => exact absurd hl (by decide : ("property" : Text) ≠ "event")
    | method _ _ => exact absurd hl (by decide : ("property" : Text) ≠ "method")
  | event _ =>
    cases e with
    | property _ => exact absurd hl (by decide : ("event" : Text) ≠ "property")
    | event _ => rfl
    | method _ _ => exact absurd hl (by decide : ("event" : Text) ≠ "method")
  | method _ _ =>
    cases e with
    | property _ => exact absurd hl (by decide : ("method" : Text) ≠ "property")
    | event _ => exact absurd hl (by decide : ("method" : Text) ≠ "event")
    | method _ _ => rfl

theorem params_eq_nil_of_absorb (hl : d.label = e.label) (h : (d.absorb e).1.params = []) :
    e.params = [] := by
  rw [params_absorb hl] at h
  have hd : d.params = [] := (paramsExtend_fillParams d.params e.params).eq_nil h
  simpa [hd] using h

end Detail

theorem Member.absorb_eq_self_of_extends {x x' m : Member} (he : x.Extends x')
    (h : x.absorb m = (x, false)) : x'.absorb m = (x', false) := by
  rw [absorb_eq_iff] at h ⊢
  obtain ⟨name, summary, typeName, origin, detail⟩ := x
  obtain ⟨name', summary', typeName', origin', detail'⟩ := x'
  simp only [absorb, mk.injEq, true_and] at h ⊢
  exact ⟨fill_eq_self_of_kept he.summary h.1, fill_eq_self_of_kept he.typeName h.2.1,
    Detail.absorb_eq_self_of_extends he.detail h.2.2⟩

namespace TypeDoc

variable {t t' : TypeDoc} {m x : Member} {ms : List Member} {n : Text}

/-! ## Extended types -/

theorem exists_find?_of_membersExtend {xs xs' : List Member} (h : MembersExtend xs xs')
    (hx : xs.find? (·.name = n) = some x) :
    ∃ x', xs'.find? (·.name = n) = some x' ∧ x.Extends x' := by
  induction h with
  | nil => simp at hx
  | @cons y y' ys ys' hy _ ih =>
    by_cases hn : y.name = n
    · have hn' : y'.name = n := hy.name_eq.trans hn
      rw [List.find?_cons_of_pos (by simpa using hn)] at hx
      rw [List.find?_cons_of_pos (by simpa using hn')]
      obtain rfl := Option.some.inj hx
      exact ⟨y', rfl, hy⟩
    · have hn' : y'.name ≠ n := hy.name_eq ▸ hn
      rw [List.find?_cons_of_neg (by simpa using hn)] at hx
      rw [List.find?_cons_of_neg (by simpa using hn')]
      exact ih hx

theorem Extends.exists_member? (h : t.Extends t') (hx : t.member? n = some x) :
    ∃ x', t'.member? n = some x' ∧ x.Extends x' :=
  exists_find?_of_membersExtend h.members hx

theorem Saturated.of_extends (h : t.Saturated m) (he : t.Extends t') : t'.Saturated m := by
  obtain ⟨x, hx, ha⟩ := h
  obtain ⟨x', hx', hxe⟩ := he.exists_member? hx
  exact ⟨x', hx', Member.absorb_eq_self_of_extends hxe ha⟩

theorem fillSummary_eq_self_of_extends {s : Text} (he : t.Extends t') (h : t.fillSummary s = t) :
    t'.fillSummary s = t' := by
  have hs : (fill t.summary s).1 = t.summary := congrArg TypeDoc.summary h
  exact congrArg (fun summary => { t' with summary }) (fill_eq_self_of_kept he.summary hs)

/-- When the member joins, its parameters no longer go into the type as they are. -/
def Settles (t : TypeDoc) (m : Member) : Prop := t.TakesParams m → m.params = []

theorem TakesParams.of_extends (h : t'.TakesParams m) (he : t.Extends t') : t.TakesParams m := by
  intro x hx
  obtain ⟨x', hx', hxe⟩ := he.exists_member? hx
  obtain ⟨hl, hp⟩ := h x' hx'
  exact ⟨hxe.detail.label_eq.symm.trans hl, hxe.detail.paramsExtend.eq_nil hp⟩

theorem Settles.of_extends (h : t.Settles m) (he : t.Extends t') : t'.Settles m :=
  fun ht => h (ht.of_extends he)

/-! ## Joining twice -/

theorem settles_join (t : TypeDoc) (m : Member) : (t.join m).1.Settles m := by
  intro ht
  have hf := member?_join (t := t) (m := m) (n := m.name)
  rw [if_pos rfl] at hf
  cases hx : t.member? m.name with
  | none =>
    rw [hx] at hf
    exact (ht m hf).2
  | some x =>
    rw [hx] at hf
    obtain ⟨hl, hp⟩ := ht (x.absorb m).1 hf
    refine Detail.params_eq_nil_of_absorb ?_ hp
    exact (x.extends_absorb m).detail.label_eq.symm.trans hl

theorem saturated_join (h : t.Settles m) : (t.join m).1.Saturated m := by
  have hn : ([m].map (·.name)).Nodup := by simp
  refine (saturated_joinAll_iff hn (List.mem_singleton.2 rfl)).2 fun ht => ?_
  rw [h ht]
  exact Param.settled_nil

/-- What the join of each member establishes holds behind the join of all, if extensions keep it. -/
theorem forall_mem_joinAll {P Q : TypeDoc → Member → Prop}
    (hP : ∀ {t t' m}, P t m → t.Extends t' → P t' m)
    (hQ : ∀ {t t' m}, Q t m → t.Extends t' → Q t' m)
    (hj : ∀ {t m}, P t m → Q (t.join m).1 m) (h : ∀ m ∈ ms, P t m) :
    ∀ m ∈ ms, Q (t.joinAll ms).1 m := by
  induction ms generalizing t with
  | nil => simp
  | cons m ms ih =>
    obtain ⟨hm, hms⟩ := List.forall_mem_cons.1 h
    rw [List.forall_mem_cons]
    constructor
    · exact hQ (hj hm) (extends_joinAll ms _)
    · exact ih fun m' hm' => hP (hms m' hm') (t.extends_join m)

theorem settles_joinAll (t : TypeDoc) (ms : List Member) :
    ∀ m ∈ ms, (t.joinAll ms).1.Settles m :=
  forall_mem_joinAll (P := fun _ _ => True) (fun _ _ => trivial) Settles.of_extends
    (fun _ => settles_join _ _) (fun _ _ => trivial)

theorem saturated_joinAll (h : ∀ m ∈ ms, t.Settles m) :
    ∀ m ∈ ms, (t.joinAll ms).1.Saturated m :=
  forall_mem_joinAll (P := Settles) Settles.of_extends Saturated.of_extends saturated_join h

end TypeDoc

end ApiBook
