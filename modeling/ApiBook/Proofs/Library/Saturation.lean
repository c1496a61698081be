import ApiBook.Proofs.Library.Extends
import ApiBook.Proofs.Library.Remerge
import ApiBook.Proofs.Model.Saturation

/-! # Saturated libraries

A script document that has been merged twice into a type has nothing left to tell about it. The
first merge settles which parameter lists the type has, the second fills their gaps, and whatever
is added or merged before, between and afterwards only extends the type.
-/

namespace ApiBook.Library

variable {l l' : Library} {n : Text} {t t' : TypeDoc} {s : Script.Document} {steps : List Step}

/-- A type that one merge of a script document has settled. -/
structure Settled (s : Script.Document) (t : TypeDoc) : Prop where
  summary : ∀ c, s.classDoc = some c → t.fillSummary c.summary = t
  members : ∀ m ∈ s.members, t.Settles m

/-- A type that holds all that a script document tells. -/
structure Saturated (s : Script.Document) (t : TypeDoc) : Prop where
  summary : ∀ c, s.classDoc = some c → t.fillSummary c.summary = t
  members : ∀ m ∈ s.members, t.Saturated m

/-- The type of a full name is there and has a property. -/
def At (n : Text) (P : TypeDoc → Prop) (l : Library) : Prop := ∃ t, l.get? n = some t ∧ P t

/-- How often a run merges a script document into the type of a full name. Merges that are refused
do not count. -/
def mergeCount (n : Text) (s : Script.Document) : Library → List Step → Nat
  | _, [] => 0
  | l, step :: steps =>
    (if step = .merge n s ∧ (l.merge? n s).isSome then 1 else 0) +
      mergeCount n s (l.apply step) steps

/-! ## One merge -/

theorem Settled.of_extends (h : Settled s t) (he : t.Extends t') : Settled s t' where
  summary c hc := TypeDoc.fillSummary_eq_self_of_extends he (h.summary c hc)
  members m hm := (h.members m hm).of_extends he

theorem Saturated.of_extends (h : Saturated s t) (he : t.Extends t') : Saturated s t' where
  summary c hc := TypeDoc.fillSummary_eq_self_of_extends he (h.summary c hc)
  members m hm := (h.members m hm).of_extends he

theorem fillSummary_mergeType (s : Script.Document) (t : TypeDoc) :
    ∀ c, s.classDoc = some c → (mergeType s t).1.fillSummary c.summary = (mergeType s t).1 := by
  intro c hc
  rw [mergeType, hc]
  exact fillSummary_again t c.summary s.members

theorem settled_mergeType (s : Script.Document) (t : TypeDoc) : Settled s (mergeType s t).1 where
  summary := fillSummary_mergeType s t
  members := by
    unfold mergeType
    exact TypeDoc.settles_joinAll _ s.members

theorem Settled.mergeType (h : Settled s t) : Saturated s (mergeType s t).1 where
  summary := fillSummary_mergeType s t
  members := by
    unfold Library.mergeType
    refine TypeDoc.saturated_joinAll ?_
    cases hc : s.classDoc with
    | none => exact h.members
    | some c =>
      change ∀ m ∈ s.members, (t.fillSummary c.summary).Settles m
      rw [h.summary c hc]
      exact h.members

theorem Saturated.mergeType_eq_self (h : Saturated s t) : Library.mergeType s t = (t, {}) := by
  unfold Library.mergeType
  cases hc : s.classDoc with
  | none => exact TypeDoc.joinAll_eq_self_iff.2 h.members
  | some c =>
    change (t.fillSummary c.summary).joinAll s.members = (t, {})
    rw [h.summary c hc]
    exact TypeDoc.joinAll_eq_self_iff.2 h.members

/-! ## Runs -/

theorem At.of_extends {P : TypeDoc → Prop} (hP : ∀ {t t'}, P t → t.Extends t' → P t')
    (h : l.At n P) (he : l.Extends l') : l'.At n P := by
  obtain ⟨t, ht, hp⟩ := h
  obtain ⟨t', ht', hte⟩ := he n t ht
  exact ⟨t', ht', hP hp hte⟩

theorem at_apply_merge {P : TypeDoc → Prop} (ht : l.get? n = some t)
    (hP : P (mergeType s t).1) : (l.apply (.merge n s)).At n P := by
  refine ⟨(mergeType s t).1, ?_, hP⟩
  rw [apply, merge?_of_get? ht, Option.map_some, Option.getD_some, get?_update, if_pos rfl]

theorem settled_apply_merge (h : (l.merge? n s).isSome) :
    (l.apply (.merge n s)).At n (Settled s) := by
  rw [merge?, Option.isSome_map] at h
  obtain ⟨t, ht⟩ := Option.isSome_iff_exists.1 h
  exact at_apply_merge ht (settled_mergeType s t)

theorem saturated_apply_merge (h : l.At n (Settled s)) :
    (l.apply (.merge n s)).At n (Saturated s) := by
  obtain ⟨t, ht, hs⟩ := h
  exact at_apply_merge ht hs.mergeType

theorem saturated_after_one_merge (h : l.At n (Settled s)) (hc : 1 ≤ mergeCount n s l steps) :
    (l.after steps).At n (Saturated s) := by
  induction steps generalizing l with
  | nil => simp [mergeCount] at hc
  | cons step steps ih =>
    rw [mergeCount] at hc
    split at hc
    · rename_i hm
      rw [hm.1]
      exact (saturated_apply_merge h).of_extends Saturated.of_extends (extends_run _ steps)
    · refine ih ?_ (by omega)
      exact h.of_extends Settled.of_extends (extends_apply l step)

theorem saturated_after_two_merges (hc : 2 ≤ mergeCount n s l steps) :
    (l.after steps).At n (Saturated s) := by
  induction steps generalizing l with
  | nil => simp [mergeCount] at hc
  | cons step steps ih =>
    rw [mergeCount] at hc
    split at hc
    · rename_i hm
      have hs : (l.apply step).At n (Settled s) := hm.1 ▸ settled_apply_merge hm.2
      exact saturated_after_one_merge (l := l.apply step) hs (by omega)
    · exact ih (by omega)

/-- Once a run has merged a script document twice into a type, a further merge at any later point
counts nothing and leaves the whole library as it is. -/
theorem merge?_eq_self_of_two_merges (h : 2 ≤ mergeCount n s l steps) (later : List Step) :
    (l.after (steps ++ later)).merge? n s = some (l.after (steps ++ later), {}) := by
  have hl : l.after (steps ++ later) = (l.after steps).after later := List.foldl_append
  have hs : (l.after (steps ++ later)).At n (Saturated s) := by
    rw [hl]
    exact (saturated_after_two_merges h).of_extends Saturated.of_extends (extends_run _ later)
  obtain ⟨t, ht, hs⟩ := hs
  exact (merge?_eq_self_iff ht).2 hs.mergeType_eq_self

/-- The script repeats a member and a parameter name, another script tells of the same member in
between, and one merge comes too early. -/
theorem merge?_eq_self_of_repeated_names :
    let a : Param := { name := "a".toList, typeName := "A".toList }
    let f (ps : List Param) : Member :=
      { name := "f".toList, origin := .client, detail := .method ps none }
    let s : Script.Document :=
      { members := [f [a, { a with typeName := [] }], { f [] with detail := .event [a] }] }
    let s' : Script.Document := { members := [f [{ a with description := "First.".toList }]] }
    let steps : List Step :=
      [.merge "N.A" s, .add [.ofId "T:N.A"], .merge "N.A" s, .merge "N.A" s',
        .add [.ofId "E:N.A.g"], .merge "N.A" s]
    let later : List Step := [.add [.ofId "M:N.A.f"], .merge "N.B" s']
    2 ≤ mergeCount "N.A" s empty steps ∧
      (empty.after (steps ++ later)).merge? "N.A" s =
        some (empty.after (steps ++ later), {}) := by
  intro a f s s' steps later
  have h : 2 ≤ mergeCount "N.A" s empty steps := by decide +kernel
  exact ⟨h, merge?_eq_self_of_two_merges h later⟩

end ApiBook.Library
