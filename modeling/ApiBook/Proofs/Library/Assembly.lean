import ApiBook.Assembly
import ApiBook.Proofs.Library.Extends
import ApiBook.Proofs.Library.Remerge
import ApiBook.Proofs.Settings.Names

/-! # Assembly type by type

A build succeeds when the XML file can be read and no script fails for another reason than that it
is missing. Each type that it gives comes from the records and the script of its own full name, in
whatever order the scripts are merged.
-/

namespace ApiBook

namespace View

variable {v v' : View} {path : Path} {text : Text}

@[simp] theorem script?_eq_some_iff :
    v.script? path = .ok (some text) ↔ v.read path = .ok text := by
  unfold script?
  split <;> simp_all

@[simp] theorem script?_eq_none_iff :
    v.script? path = .ok none ↔ v.read path = .error .notFound := by
  unfold script?
  split <;> simp_all

theorem exists_script?_iff : (∃ o, v.script? path = .ok o) ↔
    (∃ text, v.read path = .ok text) ∨ v.read path = .error .notFound := by
  constructor
  · rintro ⟨_ | text, h⟩
    · exact .inr (script?_eq_none_iff.1 h)
    · exact .inl ⟨text, script?_eq_some_iff.1 h⟩
  · rintro (⟨text, h⟩ | h)
    · exact ⟨some text, script?_eq_some_iff.2 h⟩
    · exact ⟨none, script?_eq_none_iff.2 h⟩

theorem script?_congr (h : v.read path = v'.read path) : v.script? path = v'.script? path := by
  rw [script?, script?, h]

end View

/-- A type with the text of a script merged into it. -/
def TypeDoc.withScript (t : TypeDoc) (script : Text) : TypeDoc :=
  (Library.mergeType (.ofLines (Text.lines script)) t).1

namespace Library

variable {s : Settings} {v v' : View} {l l' : Library} {n : Text} {ps : List (Text × Path)}

/-! ## Merging scripts in turn -/

theorem get?_mergeScript {m script : Text} : (l.mergeScript m script).get? n =
    if n = m then (l.get? n).map (·.withScript script) else l.get? n := by
  unfold mergeScript
  cases hm : l.get? m with
  | none =>
    rw [merge?_eq_none_iff.2 hm]
    by_cases h : n = m
    · rw [if_pos h, h, hm, Option.map_none]
    · rw [if_neg h]
  | some t =>
    rw [merge?_of_get? hm, get?_update]
    by_cases h : n = m
    · rw [if_pos h, if_pos h, h, hm]
      rfl
    · rw [if_neg h, if_neg h]

theorem mergeScripts_cons {e : Text × Path} : mergeScripts s v (e :: ps) l =
    (v.script? e.2).bind fun o =>
      mergeScripts s v ps (o.elim l (l.mergeScript (s.fullName e.1))) := by
  obtain ⟨name, path⟩ := e
  rw [mergeScripts]
  cases v.script? path with
  | error err => rfl
  | ok o => cases o <;> rfl

theorem mergeScripts_congr (h : ∀ e ∈ ps, v.read e.2 = v'.read e.2) :
    mergeScripts s v ps l = mergeScripts s v' ps l := by
  induction ps generalizing l with
  | nil => rfl
  | cons e ps ih =>
    obtain ⟨he, hps⟩ := List.forall_mem_cons.1 h
    rw [mergeScripts_cons, mergeScripts_cons, View.script?_congr he]
    exact congrArg _ (funext fun o => ih hps)

theorem mergeScripts_cons_eq_ok_iff {e : Text × Path} :
    mergeScripts s v (e :: ps) l = .ok l' ↔ ∃ o, v.script? e.2 = .ok o ∧
      mergeScripts s v ps (o.elim l (l.mergeScript (s.fullName e.1))) = .ok l' := by
  rw [mergeScripts_cons]
  cases v.script? e.2 <;> simp [Except.bind]

/-- Merging fails only on a script that can neither be read nor is missing. -/
theorem mergeScripts_ok_iff : (∃ l', mergeScripts s v ps l = .ok l') ↔
    ∀ e ∈ ps, ∃ o, v.script? e.2 = .ok o := by
  induction ps generalizing l with
  | nil => simp [mergeScripts]
  | cons e ps ih =>
    simp only [mergeScripts_cons_eq_ok_iff, List.forall_mem_cons]
    constructor
    · rintro ⟨l', o, ho, h⟩
      exact ⟨⟨o, ho⟩, ih.1 ⟨l', h⟩⟩
    · rintro ⟨⟨o, ho⟩, h⟩
      obtain ⟨l', hl⟩ := ih.2 h
      exact ⟨l', o, ho, hl⟩

theorem mergeScripts_induction {P : Library → Prop}
    (hstep : ∀ l e script, e ∈ ps → v.script? e.2 = .ok (some script) → P l →
      P (l.mergeScript (s.fullName e.1) script))
    (h : mergeScripts s v ps l = .ok l') (hl : P l) : P l' := by
  induction ps generalizing l with
  | nil => exact Except.ok.inj h ▸ hl
  | cons e ps ih =>
    have hps : ∀ l e script, e ∈ ps → v.script? e.2 = .ok (some script) → P l →
        P (l.mergeScript (s.fullName e.1) script) :=
      fun l e script he => hstep l e script (List.mem_cons_of_mem _ he)
    obtain ⟨o, ho, h⟩ := mergeScripts_cons_eq_ok_iff.1 h
    cases o with
    | none => exact ih hps h hl
    | some script => exact ih hps h (hstep l e script List.mem_cons_self ho hl)

theorem get?_mergeScripts_of_forall (h : mergeScripts s v ps l = .ok l')
    (hn : ∀ e ∈ ps, s.fullName e.1 = n → v.script? e.2 = .ok none) : l'.get? n = l.get? n := by
  refine mergeScripts_induction (P := fun l'' => l''.get? n = l.get? n) ?_ h rfl
  intro l'' e script he hs hl
  have hne : n ≠ s.fullName e.1 := by
    rintro rfl
    rw [hn e he rfl] at hs
    cases hs
  rw [get?_mergeScript, if_neg hne, hl]

theorem isSome_get?_mergeScripts (h : mergeScripts s v ps l = .ok l') :
    (l'.get? n).isSome = (l.get? n).isSome := by
  refine mergeScripts_induction (P := fun l'' => (l''.get? n).isSome = (l.get? n).isSome) ?_ h rfl
  intro l'' e script _ _ hl
  rw [get?_mergeScript]
  split
  · rw [Option.isSome_map, hl]
  · exact hl

/-- A type has the one script of its full name merged into it. -/
theorem get?_mergeScripts_of_mem (h : mergeScripts s v ps l = .ok l')
    (hd : (ps.map fun e => s.fullName e.1).Nodup) {e : Text × Path} (he : e ∈ ps) {script : Text}
    (hs : v.script? e.2 = .ok (some script)) :
    l'.get? (s.fullName e.1) = (l.get? (s.fullName e.1)).map (·.withScript script) := by
  induction ps generalizing l with
  | nil => cases he
  | cons e' ps ih =>
    obtain ⟨hn, hd⟩ := List.nodup_cons.1 hd
    obtain ⟨o, ho, h⟩ := mergeScripts_cons_eq_ok_iff.1 h
    rcases List.mem_cons.1 he with rfl | he
    · obtain rfl : o = some script := Except.ok.inj (ho.symm.trans hs)
      have hother : ∀ e' ∈ ps, s.fullName e'.1 = s.fullName e.1 → v.script? e'.2 = .ok none :=
        fun e' he' hne => absurd (List.mem_map.2 ⟨e', he', hne⟩) hn
      rw [get?_mergeScripts_of_forall h hother, Option.elim_some, get?_mergeScript, if_pos rfl]
    · have hne : s.fullName e.1 ≠ s.fullName e'.1 := fun hne => hn (List.mem_map.2 ⟨e, he, hne⟩)
      rw [ih h hd he]
      cases o with
      | none => rfl
      | some script' => rw [Option.elim_some, get?_mergeScript, if_neg hne]

/-- Scripts of different types can be merged in any order. -/
theorem mergeScripts_perm {ps' : List (Text × Path)} (hp : ps'.Perm ps)
    (hd : (ps.map fun e => s.fullName e.1).Nodup) (h : mergeScripts s v ps l = .ok l') :
    mergeScripts s v ps' l = .ok l' := by
  obtain ⟨l'', h'⟩ : ∃ l'', mergeScripts s v ps' l = .ok l'' :=
    mergeScripts_ok_iff.2 fun e he => mergeScripts_ok_iff.1 ⟨l', h⟩ e (hp.mem_iff.1 he)
  have hd' : (ps'.map fun e => s.fullName e.1).Nodup := (hp.map _).nodup_iff.2 hd
  rw [h']
  refine congrArg _ (ext_get? fun n => ?_)
  by_cases hn : ∃ e ∈ ps, ∃ script, s.fullName e.1 = n ∧ v.script? e.2 = .ok (some script)
  · obtain ⟨e, he, script, rfl, hs⟩ := hn
    rw [get?_mergeScripts_of_mem h hd he hs,
      get?_mergeScripts_of_mem h' hd' (hp.mem_iff.2 he) hs]
  · have hnone : ∀ e ∈ ps, s.fullName e.1 = n → v.script? e.2 = .ok none := by
      intro e he hne
      obtain ⟨o, ho⟩ := mergeScripts_ok_iff.1 ⟨l', h⟩ e he
      cases o with
      | none => exact ho
      | some script => exact absurd ⟨e, he, script, hne, ho⟩ hn
    rw [get?_mergeScripts_of_forall h hnone,
      get?_mergeScripts_of_forall h' fun e he => hnone e (hp.mem_iff.1 he)]

/-! ## The whole build -/

theorem build_eq_ok_iff : build s v = .ok l ↔ ∃ text, v.read s.xml = .ok text ∧
    mergeScripts s v s.scriptPaths (empty.addAll (Xml.records text)) = .ok l := by
  unfold build
  cases v.read s.xml with
  | error e => simp
  | ok text => simp

theorem build_ok_iff : (∃ l, build s v = .ok l) ↔ (∃ text, v.read s.xml = .ok text) ∧
    ∀ e ∈ s.scriptPaths, (∃ text, v.read e.2 = .ok text) ∨ v.read e.2 = .error .notFound := by
  simp only [build_eq_ok_iff, ← View.exists_script?_iff]
  constructor
  · rintro ⟨l, text, ht, hl⟩
    exact ⟨⟨text, ht⟩, mergeScripts_ok_iff.1 ⟨l, hl⟩⟩
  · rintro ⟨⟨text, ht⟩, hs⟩
    obtain ⟨l, hl⟩ := mergeScripts_ok_iff.2 hs
    exact ⟨l, text, ht, hl⟩

theorem build_congr (h : ∀ p ∈ s.backing, v.read p = v'.read p) : build s v = build s v' := by
  obtain ⟨hx, hp⟩ := List.forall_mem_cons.1 h
  have hs : ∀ e ∈ s.scriptPaths, v.read e.2 = v'.read e.2 :=
    fun e he => hp e.2 (List.mem_map_of_mem he)
  rw [build, build, hx]
  cases v'.read s.xml with
  | error e => rfl
  | ok text => exact mergeScripts_congr hs

/-- A build succeeds exactly when the XML file can be read and each script can be read or is
missing, whether or not the types of the scripts are documented. It then holds the owners of the
XML records. A type is what its own records document, with the script of its full name merged into
it if there is one; that is the only script of this name, and the order of the scripts does not
matter. -/
theorem build_decomposes (s : Settings) (v : View) :
    ((∃ l, build s v = .ok l) ↔ (∃ text, v.read s.xml = .ok text) ∧
      ∀ e ∈ s.scriptPaths, (∃ text, v.read e.2 = .ok text) ∨ v.read e.2 = .error .notFound) ∧
    (∀ e ∈ s.scriptPaths, ∀ e' ∈ s.scriptPaths, s.fullName e.1 = s.fullName e'.1 → e = e') ∧
    ∀ l, build s v = .ok l → ∃ text, v.read s.xml = .ok text ∧
      (∀ n, (∃ t, l.get? n = some t) ↔ ∃ r ∈ Xml.records text, r.owner? = some n) ∧
      (∀ n t, l.get? n = some t →
        (∀ e ∈ s.scriptPaths, s.fullName e.1 = n → ∀ script, v.read e.2 = .ok script →
          t = (TypeDoc.ofRecords n (Xml.records text)).withScript script) ∧
        ((∀ e ∈ s.scriptPaths, s.fullName e.1 = n → v.read e.2 = .error .notFound) →
          t = .ofRecords n (Xml.records text))) ∧
      ∀ ps, ps.Perm s.scriptPaths →
        mergeScripts s v ps (empty.addAll (Xml.records text)) = .ok l := by
  refine ⟨build_ok_iff, fun e he e' he' => List.inj_on_of_nodup_map s.nodup_fullNames he he',
    fun l hl => ?_⟩
  obtain ⟨text, ht, hm⟩ := build_eq_ok_iff.1 hl
  have hmem : ∀ e ∈ s.scriptPaths, ∀ script, v.read e.2 = .ok script → l.get? (s.fullName e.1) =
      ((empty.addAll (Xml.records text)).get? (s.fullName e.1)).map (·.withScript script) :=
    fun e he script hs =>
      get?_mergeScripts_of_mem hm s.nodup_fullNames he (View.script?_eq_some_iff.2 hs)
  have hnone : ∀ n, (∀ e ∈ s.scriptPaths, s.fullName e.1 = n → v.read e.2 = .error .notFound) →
      l.get? n = (empty.addAll (Xml.records text)).get? n :=
    fun n hn => get?_mergeScripts_of_forall hm fun e he hne =>
      View.script?_eq_none_iff.2 (hn e he hne)
  refine ⟨text, ht, fun n => ?_, fun n t hn => ⟨fun e he hne script hs => ?_, fun h => ?_⟩,
    fun ps hp => mergeScripts_perm hp s.nodup_fullNames hm⟩
  · rw [← Option.isSome_iff_exists, isSome_get?_mergeScripts hm, get?_empty_addAll]
    split
    · rename_i h
      exact iff_of_true rfl h
    · rename_i h
      exact iff_of_false Bool.false_ne_true h
  · subst hne
    rw [hmem e he script hs, get?_empty_addAll] at hn
    split at hn
    · exact (Option.some.inj hn).symm
    · cases hn
  · rw [hnone n h, get?_empty_addAll] at hn
    split at hn
    · exact (Option.some.inj hn).symm
    · cases hn

end Library

end ApiBook
