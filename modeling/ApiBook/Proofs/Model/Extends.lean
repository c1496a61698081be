import Mathlib.Data.List.Forall2
import ApiBook.Model.TypeDoc
import ApiBook.Proofs.Model.Absorb

/-! # Extended documentation

An account extends another one when it keeps everything that the other documents: names, kinds,
origins and the order of members and parameters stay, and so does each text that is not empty.
Filling gaps and joining members extend.
-/

namespace ApiBook

def Text.Kept (old new : Text) : Prop := old ≠ [] → new = old

def OptionKept (old new : Option Text) : Prop := ∀ s, old = some s → new = some s

structure Param.Extends (p p' : Param) : Prop where
  name_eq : p'.name = p.name
  typeName : Text.Kept p.typeName p'.typeName
  description : Text.Kept p.description p'.description

/-- A parameter list that is not empty keeps its length, its order and all that it tells. -/
def ParamsExtend (ps ps' : List Param) : Prop := ps ≠ [] → List.Forall₂ Param.Extends ps ps'

inductive Detail.Extends : Detail → Detail → Prop where
  | property {d d' : Option Text} : OptionKept d d' → Extends (.property d) (.property d')
  | event {ps ps' : List Param} : ParamsExtend ps ps' → Extends (.event ps) (.event ps')
  | method {ps ps' : List Param} {r r' : Option Text} :
    ParamsExtend ps ps' → OptionKept r r' → Extends (.method ps r) (.method ps' r')

structure Member.Extends (m m' : Member) : Prop where
  name_eq : m'.name = m.name
  origin_eq : m'.origin = m.origin
  summary : Text.Kept m.summary m'.summary
  typeName : Text.Kept m.typeName m'.typeName
  detail : m.detail.Extends m'.detail

/-- The old members come first and in their order; new ones may follow. -/
inductive MembersExtend : List Member → List Member → Prop where
  | nil (new : List Member) : MembersExtend [] new
  | cons {m m' : Member} {ms ms' : List Member} :
    m.Extends m' → MembersExtend ms ms' → MembersExtend (m :: ms) (m' :: ms')

structure TypeDoc.Extends (t t' : TypeDoc) : Prop where
  fullName_eq : t'.fullName = t.fullName
  name_eq : t'.name = t.name
  scope_eq : t'.scope = t.scope
  summary : Text.Kept t.summary t'.summary
  members : MembersExtend t.members t'.members

/-! ## Extension is a preorder -/

theorem Text.Kept.rfl {s : Text} : Text.Kept s s := fun _ => Eq.refl s

theorem Text.Kept.trans {r s t : Text} (h : Text.Kept r s) (h' : Text.Kept s t) :
    Text.Kept r t := by
  intro hr
  have hs : s = r := h hr
  exact (h' (hs ▸ hr)).trans hs

theorem OptionKept.rfl {o : Option Text} : OptionKept o o := fun _ => id

theorem OptionKept.trans {o o' o'' : Option Text} (h : OptionKept o o') (h' : OptionKept o' o'') :
    OptionKept o o'' :=
  fun s hs => h' s (h s hs)

namespace Param

theorem Extends.refl (p : Param) : p.Extends p := ⟨rfl, .rfl, .rfl⟩

theorem Extends.trans {p p' p'' : Param} (h : p.Extends p') (h' : p'.Extends p'') :
    p.Extends p'' :=
  ⟨h'.name_eq.trans h.name_eq, h.typeName.trans h'.typeName, h.description.trans h'.description⟩

theorem forall₂_trans {ps ps' ps'' : List Param} (h : List.Forall₂ Extends ps ps')
    (h' : List.Forall₂ Extends ps' ps'') : List.Forall₂ Extends ps ps'' := by
  induction h generalizing ps'' with
  | nil => exact h'
  | cons hp _ ih =>
    cases h' with
    | cons hp' hps' => exact .cons (hp.trans hp') (ih hps')

end Param

theorem ParamsExtend.refl (ps : List Param) : ParamsExtend ps ps :=
  fun _ => List.forall₂_same.2 fun p _ => .refl p

theorem ParamsExtend.trans {ps ps' ps'' : List Param} (h : ParamsExtend ps ps')
    (h' : ParamsExtend ps' ps'') : ParamsExtend ps ps'' := by
  intro hp
  have hps := h hp
  refine Param.forall₂_trans hps (h' ?_)
  rintro rfl
  exact hp (List.forall₂_nil_right_iff.1 hps)

theorem Detail.Extends.refl (d : Detail) : d.Extends d := by
  cases d with
  | property d => exact .property .rfl
  | event ps => exact .event (.refl ps)
  | method ps r => exact .method (.refl ps) .rfl

theorem Detail.Extends.trans {d d' d'' : Detail} (h : d.Extends d') (h' : d'.Extends d'') :
    d.Extends d'' := by
  cases h with
  | property h => cases h' with | property h' => exact .property (h.trans h')
  | event h => cases h' with | event h' => exact .event (h.trans h')
  | method h hr => cases h' with | method h' hr' => exact .method (h.trans h') (hr.trans hr')

theorem Member.Extends.refl (m : Member) : m.Extends m := ⟨rfl, rfl, .rfl, .rfl, .refl _⟩

theorem Member.Extends.trans {m m' m'' : Member} (h : m.Extends m') (h' : m'.Extends m'') :
    m.Extends m'' where
  name_eq := h'.name_eq.trans h.name_eq
  origin_eq := h'.origin_eq.trans h.origin_eq
  summary := h.summary.trans h'.summary
  typeName := h.typeName.trans h'.typeName
  detail := h.detail.trans h'.detail

theorem MembersExtend.refl (ms : List Member) : MembersExtend ms ms := by
  induction ms with
  | nil => exact .nil []
  | cons m ms ih => exact .cons (.refl m) ih

theorem MembersExtend.trans {ms ms' ms'' : List Member} (h : MembersExtend ms ms')
    (h' : MembersExtend ms' ms'') : MembersExtend ms ms'' := by
  induction h generalizing ms'' with
  | nil => exact .nil ms''
  | cons hm _ ih =>
    cases h' with
    | cons hm' hms' => exact .cons (hm.trans hm') (ih hms')

namespace TypeDoc

theorem Extends.refl (t : TypeDoc) : t.Extends t := ⟨rfl, rfl, rfl, .rfl, .refl _⟩

theorem Extends.trans {t t' t'' : TypeDoc} (h : t.Extends t') (h' : t'.Extends t'') :
    t.Extends t'' where
  fullName_eq := h'.fullName_eq.trans h.fullName_eq
  name_eq := h'.name_eq.trans h.name_eq
  scope_eq := h'.scope_eq.trans h.scope_eq
  summary := h.summary.trans h'.summary
  members := h.members.trans h'.members

end TypeDoc

/-! ## Filling extends -/

theorem kept_fill (old new : Text) : Text.Kept old (fill old new).1 := by
  intro ho
  rw [fill, if_neg fun h => ho h.1]

theorem optionKept_fillOption (old new : Option Text) : OptionKept old (fillOption old new).1 := by
  rintro s rfl
  rfl

theorem Param.extends_fillFrom (others : List Param) (p : Param) :
    p.Extends (p.fillFrom others).1 := by
  cases h : others.find? (·.name = p.name) with
  | none =>
    rw [fillFrom_of_none h]
    exact .refl p
  | some q =>
    rw [fillFrom_of_some h]
    exact ⟨rfl, kept_fill _ _, kept_fill _ _⟩

theorem paramsExtend_fillParams (old new : List Param) :
    ParamsExtend old (fillParams old new).1 := by
  intro ho
  rw [fillParams_of_ne_nil ho, List.forall₂_map_right_iff]
  exact List.forall₂_same.2 fun p _ => p.extends_fillFrom new

theorem Detail.extends_absorb (d d' : Detail) : d.Extends (d.absorb d').1 := by
  cases d with
  | property v =>
    cases d' with
    | property v' => exact .property (optionKept_fillOption v v')
    | event _ => exact .refl _
    | method _ _ => exact .refl _
  | event ps =>
    cases d' with
    | property _ => exact .refl _
    | event ps' => exact .event (paramsExtend_fillParams ps ps')
    | method _ _ => exact .refl _
  | method ps r =>
    cases d' with
    | property _ => exact .refl _
    | event _ => exact .refl _
    | method ps' r' =>
      exact .method (paramsExtend_fillParams ps ps') (optionKept_fillOption r r')

theorem Member.extends_absorb (m other : Member) : m.Extends (m.absorb other).1 where
  name_eq := rfl
  origin_eq := rfl
  summary := kept_fill _ _
  typeName := kept_fill _ _
  detail := m.detail.extends_absorb other.detail

namespace TypeDoc

theorem membersExtend_joinMember (m : Member) (xs : List Member) :
    MembersExtend xs (joinMember m xs).1 := by
  induction xs with
  | nil => exact .nil _
  | cons x xs ih =>
    rw [joinMember]
    split
    · exact .cons (x.extends_absorb m) (.refl xs)
    · exact .cons (.refl x) ih

theorem extends_fillSummary (s : Text) (t : TypeDoc) : t.Extends (t.fillSummary s) :=
  ⟨rfl, rfl, rfl, kept_fill _ _, .refl _⟩

theorem extends_join (m : Member) (t : TypeDoc) : t.Extends (t.join m).1 :=
  ⟨rfl, rfl, rfl, .rfl, membersExtend_joinMember m t.members⟩

theorem extends_joinAll (ms : List Member) (t : TypeDoc) : t.Extends (t.joinAll ms).1 := by
  induction ms generalizing t with
  | nil => exact .refl t
  | cons m ms ih => exact (t.extends_join m).trans (ih (t.join m).1)

end TypeDoc

end ApiBook
