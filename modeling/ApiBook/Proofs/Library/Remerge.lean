import ApiBook.Proofs.Library.Lookup
import ApiBook.Proofs.Model.Join
import ApiBook.Proofs.Script.Names

/-! # Merging a script again

A second merge of one script finds nothing to do, unless the first one took over a parameter list
in which a parameter lacks a text that the first parameter of its name has.
-/

namespace ApiBook.Library

variable {l : Library} {n : Text} {t : TypeDoc} {s : Script.Document}

theorem merge?_of_get? (h : l.get? n = some t) (s : Script.Document) :
    l.merge? n s = some (l.update n fun _ => (mergeType s t).1, (mergeType s t).2) := by
  rw [merge?, h]
  rfl

theorem merge?_eq_self_iff (h : l.get? n = some t) :
    l.merge? n s = some (l, {}) ↔ mergeType s t = (t, {}) := by
  rw [merge?_of_get? h, Option.some.injEq, Prod.mk.injEq, Prod.ext_iff]
  refine and_congr_left fun _ => ⟨fun hl => ?_, fun ht => update_eq_self h ht⟩
  have hg : (l.update n fun _ => (mergeType s t).1).get? n = l.get? n := by rw [hl]
  rw [get?_update, if_pos rfl, h] at hg
  exact Option.some.inj hg

theorem fillSummary_again (t : TypeDoc) (text : Text) (ms : List Member) :
    ((t.fillSummary text).joinAll ms).1.fillSummary text = ((t.fillSummary text).joinAll ms).1 := by
  have hs : ((t.fillSummary text).joinAll ms).1.summary = (fill t.summary text).1 :=
    TypeDoc.joinAll_summary ms
  rw [TypeDoc.fillSummary, hs, fill_again, ← hs]

/-- The second merge only has members left to join. -/
theorem mergeType_again (s : Script.Document) (t : TypeDoc) :
    ∃ t₀ : TypeDoc, t₀.members = t.members ∧ mergeType s t = t₀.joinAll s.members ∧
      mergeType s (mergeType s t).1 = (mergeType s t).1.joinAll s.members := by
  unfold mergeType
  cases s.classDoc with
  | none => exact ⟨t, rfl, rfl, rfl⟩
  | some c =>
    refine ⟨t.fillSummary c.summary, rfl, rfl, ?_⟩
    exact congrArg (TypeDoc.joinAll s.members) (fillSummary_again t c.summary s.members)

theorem mergeType_again_iff (hn : (s.members.map (·.name)).Nodup) :
    mergeType s (mergeType s t).1 = ((mergeType s t).1, {}) ↔
      ∀ m ∈ s.members, t.TakesParams m → Param.Settled m.params := by
  obtain ⟨t₀, hm, h, h'⟩ := mergeType_again s t
  have ht : ∀ m, t₀.TakesParams m ↔ t.TakesParams m := fun m => by
    rw [TypeDoc.TakesParams, TypeDoc.TakesParams, TypeDoc.member?, TypeDoc.member?, hm]
  rw [h', h, TypeDoc.joinAll_eq_self_iff]
  refine forall₂_congr fun m hm => ?_
  rw [TypeDoc.saturated_joinAll_iff hn hm, ht]

/-- Merging the script of `lines` into a documented type a second time counts nothing and leaves
the whole library as it is exactly when every parameter list that goes into the type as it is has
no parameter that lacks a text of the first parameter of its name. -/
theorem remerge_unchanged_iff (h : l.get? n = some t) (lines : List Text) :
    ∃ l' o, l.merge? n (.ofLines lines) = some (l', o) ∧
      (l'.merge? n (.ofLines lines) = some (l', {}) ↔
        ∀ m ∈ (Script.Document.ofLines lines).members,
          t.TakesParams m → Param.Settled m.params) := by
  refine ⟨_, _, merge?_of_get? h _, ?_⟩
  rw [merge?_eq_self_iff (t := (mergeType (.ofLines lines) t).1) (by rw [get?_update, if_pos rfl])]
  exact mergeType_again_iff (Script.Document.ofLines_nodup lines)

/-- The parameters of `f` come from its record, so merging the script again changes nothing. -/
theorem remerge_of_recorded_params :
    let l := empty.addAll [.ofId "T:N.A",
      { Record.ofId "M:N.A.f(A)" with fragments := [{ element := "param", name := "a".toList }] }]
    let lines : List Text := ["// @method f", "// @param {A} a", "// @param a", "f();"]
    ∃ l' o, l.merge? "N.A" (.ofLines lines) = some (l', o) ∧
      l'.merge? "N.A" (.ofLines lines) = some (l', {}) := by
  intro l lines
  obtain ⟨t, ht⟩ : ∃ t, l.get? "N.A" = some t := Option.isSome_iff_exists.1 (by decide +kernel)
  obtain ⟨l', o, hm, h⟩ := remerge_unchanged_iff ht lines
  refine ⟨l', o, hm, h.2 ?_⟩
  have hc : ∀ t ∈ l.get? "N.A", ∀ m ∈ (Script.Document.ofLines lines).members,
      t.TakesParams m → Param.Settled m.params := by decide +kernel
  exact hc t ht

/-- Without that record the script's list is taken over, and the second merge fills the type of its
second parameter from the first. -/
theorem remerge_of_repeated_param :
    let l := empty.add (.ofId "T:N.A")
    let s := Script.Document.ofLines ["// @method f", "// @param {A} a", "// @param a", "f();"]
    let first := (l.merge? "N.A" s).map Prod.fst
    let second := first.bind fun l' => l'.merge? "N.A" s
    second.map Prod.snd = some { augmented := 1 } ∧ second.map Prod.fst ≠ first := by
  decide +kernel

end ApiBook.Library
