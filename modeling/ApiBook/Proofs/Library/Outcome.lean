import ApiBook.Proofs.Library.Extends
import ApiBook.Proofs.Library.Remerge
import ApiBook.Proofs.Library.WellFormed
import ApiBook.Proofs.Model.Outcome

/-! # What a merge reports

The outcome of a merge tells how the members of the type have changed: how many have come behind
the old ones, and how many of the old ones are not what they were.
-/

namespace ApiBook

variable {t t' : TypeDoc} {x : Member} {ms xs : List Member} {o : Outcome}

/-- An outcome that tells the truth about a type before and after members have joined it. -/
structure Outcome.Tells (o : Outcome) (ms : List Member) (t t' : TypeDoc) : Prop where
  /-- The old members stay in front, under their names. -/
  names_eq : (t'.members.take t.members.length).map (·.name) = t.members.map (·.name)
  /-- The members that the type lacked follow as they are, in their own order. -/
  new_eq : t'.members.drop t.members.length =
    ms.filter fun m => m.name ∉ t.members.map (·.name)
  appended_eq : t'.members.length = t.members.length + o.appended
  /-- An old member counts when the member of its name is another one afterwards. -/
  augmented_eq : o.augmented = t.members.countP fun x => t'.member? x.name ≠ some x
  unchanged_iff : o = {} ↔ t'.members = t.members

namespace TypeDoc

/-- Each old member is found with its gaps filled. -/
theorem find?_joined (hn : (xs.map (·.name)).Nodup) (hx : x ∈ xs) :
    (joined xs ms).1.find? (·.name = x.name) = some (x.absorbFrom ms) := by
  obtain ⟨ys, zs, rfl⟩ := List.append_of_mem hx
  rw [List.map_append, List.map_cons] at hn
  obtain ⟨-, -, hdisj⟩ := List.nodup_append.1 hn
  have hys : (ys.map (·.absorbFrom ms)).find? (·.name = x.name) = none := by
    refine List.find?_eq_none.2 fun y hy hname => ?_
    obtain ⟨z, hz, rfl⟩ := List.mem_map.1 hy
    have he : z.name = x.name := by simpa using hname
    exact hdisj _ (List.mem_map_of_mem hz) _ List.mem_cons_self he
  rw [joined, List.find?_append, List.map_append, List.find?_append, hys, List.map_cons,
    List.find?_cons_of_pos (by simp)]
  rfl

theorem tells_joined (hn : (t.members.map (·.name)).Nodup)
    (ht : t'.members = (joined t.members ms).1) : (joined t.members ms).2.Tells ms t t' := by
  have hlen : (t.members.map (·.absorbFrom ms)).length = t.members.length := List.length_map _
  have htake : t'.members.take t.members.length = t.members.map (·.absorbFrom ms) := by
    rw [ht, joined, ← hlen, List.take_left]
  have hdrop : t'.members.drop t.members.length = newMembers t.members ms := by
    rw [ht, joined, ← hlen, List.drop_left]
  have hfound : ∀ x ∈ t.members, t'.member? x.name = some (x.absorbFrom ms) := by
    intro x hx
    rw [member?, ht]
    exact find?_joined hn hx
  refine ⟨?_, hdrop.trans (newMembers_eq t.members ms), ?_, ?_, ?_⟩
  · rw [htake, List.map_map]
    exact List.map_congr_left fun x _ => Member.absorbFrom_name ms x
  · rw [ht, joined, List.length_append, hlen]
  · refine List.countP_congr fun x hx => ?_
    simp only [hfound x hx, ne_eq, Option.some.injEq]
  · have hsame : t'.members = t.members ↔
        t'.members.take t.members.length = t.members ∧
          t'.members.drop t.members.length = [] := by
      constructor
      · intro h
        rw [h, List.take_length, List.drop_length]
        exact ⟨rfl, rfl⟩
      · rintro ⟨hfront, hback⟩
        rw [← List.take_append_drop t.members.length t'.members, hfront, hback,
          List.append_nil]
    rw [hsame, htake, hdrop, joined, Outcome.mk.injEq, List.length_eq_zero_iff,
      List.countP_eq_zero, and_comm]
    refine and_congr_left fun _ => ?_
    constructor
    · intro h
      have hid : ∀ x ∈ t.members, x.absorbFrom ms = id x := by
        intro x hx
        simpa using h x hx
      rw [List.map_congr_left hid, List.map_id]
    · intro h x hx
      have hid := List.map_inj_left.1 (h.trans (List.map_id _).symm) x hx
      simpa using hid

end TypeDoc

namespace Library

variable {l l' : Library} {n : Text} {s : Script.Document}

theorem mergeType_eq_joined (hs : (s.members.map (·.name)).Nodup)
    (hn : (t.members.map (·.name)).Nodup) :
    (mergeType s t).1.members = (TypeDoc.joined t.members s.members).1 ∧
      (mergeType s t).2 = (TypeDoc.joined t.members s.members).2 := by
  obtain ⟨t₀, hm, h, -⟩ := mergeType_again s t
  rw [h, TypeDoc.joinAll_eq hs (hm ▸ hn), hm]
  exact ⟨rfl, rfl⟩

/-- Absorbing another account of a member reports a change exactly when the member differs
afterwards. A merge of a script with distinct member names into a type of a library that grew from
the empty one reports how many members have come to the type, which are those of the script that
the type lacked, and how many of its old members differ. -/
theorem merge_reports_changes :
    (∀ m other : Member, (m.absorb other).2 = true ↔ (m.absorb other).1 ≠ m) ∧
    ∀ (steps : List Step) (n : Text) (s : Script.Document) (l' : Library) (o : Outcome),
      (s.members.map (·.name)).Nodup → (empty.after steps).merge? n s = some (l', o) →
      ∃ t t', (empty.after steps).get? n = some t ∧ l'.get? n = some t' ∧
        o.Tells s.members t t' := by
  refine ⟨fun m other => Member.absorb_changed_iff, fun steps n s l' o hs hm => ?_⟩
  cases ht : (empty.after steps).get? n with
  | none =>
    rw [merge?_eq_none_iff.2 ht] at hm
    cases hm
  | some t =>
    rw [merge?_of_get? ht] at hm
    obtain ⟨rfl, rfl⟩ := Prod.mk.inj (Option.some.inj hm)
    have hn := (wellFormed_iff.1 (wellFormed_empty_after steps) n t ht).nodup
    obtain ⟨hmembers, ho⟩ := mergeType_eq_joined hs hn
    refine ⟨t, (mergeType s t).1, rfl, ?_, ?_⟩
    · rw [get?_update, if_pos rfl]
    · rw [ho]
      exact TypeDoc.tells_joined hn hmembers

/-- `Width` gains its default value, `Shown` is of another kind in the script and gains nothing,
and `hide` is new. -/
theorem merge_reports_changes_of_width :
    let steps : List Step := [.add [.ofId "P:N.A.Width", .ofId "E:N.A.Shown"]]
    let s : Script.Document :=
      ⟨none,
        [{ name := "Shown", origin := .client, detail := .property (some "yes".toList) },
          { name := "hide", origin := .client, detail := .method [] none },
          { name := "Width", origin := .client, detail := .property (some "5px".toList) }]⟩
    ∃ l' o t t', (s.members.map (·.name)).Nodup ∧
      (empty.after steps).merge? "N.A" s = some (l', o) ∧ o = ⟨1, 1⟩ ∧
      (empty.after steps).get? "N.A" = some t ∧ l'.get? "N.A" = some t' ∧
      o.Tells s.members t t' := by
  intro steps s
  have hs : (s.members.map (·.name)).Nodup := by decide
  have ho : ((empty.after steps).merge? "N.A" s).map Prod.snd = some ⟨1, 1⟩ := by decide +kernel
  obtain ⟨⟨l', o⟩, hm, rfl⟩ := Option.map_eq_some_iff.1 ho
  obtain ⟨t, t', ht, ht', htells⟩ := merge_reports_changes.2 steps "N.A" s l' _ hs hm
  exact ⟨l', _, t, t', hs, hm, rfl, ht, ht', htells⟩

end Library

end ApiBook
