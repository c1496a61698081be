import ApiBook.Proofs.Library.Assembly
import ApiBook.Proofs.Library.WellFormed
import ApiBook.Proofs.Reference.Fresh
import ApiBook.Proofs.Text.Bytes

/-! # Listed types and their pages

The simple names of the listed types are those under whose full names a page is found, as far as
they have no dot and the settings list them.
-/

namespace ApiBook

variable {s : Settings} {f : Format} {v : View} {l : Library} {t : TypeDoc} {n m : Text}

theorem Text.append_dot_inj {a b a' b' : Text} (h : a ++ '.' :: b = a' ++ '.' :: b')
    (hb : '.' ∉ b) (hb' : '.' ∉ b') : a = a' ∧ b = b' := by
  rcases List.append_eq_append_iff.1 h with ⟨c, rfl, hc⟩ | ⟨c, rfl, hc⟩
  · cases c with
    | nil => exact ⟨(List.append_nil a).symm, (List.cons.inj hc).2⟩
    | cons d c =>
      rw [(List.cons.inj hc).2] at hb
      exact absurd (by simp) hb
  · cases c with
    | nil => exact ⟨List.append_nil a', (List.cons.inj hc).2.symm⟩
    | cons d c =>
      rw [(List.cons.inj hc).2] at hb'
      exact absurd (by simp) hb'

namespace Library

theorem WellFormed.addAll (h : l.WellFormed) (rs : List Record) : (l.addAll rs).WellFormed :=
  addAll_induction (fun _ r h => h.add r) h

theorem WellFormed.mergeScript (h : l.WellFormed) (n script : Text) :
    (l.mergeScript n script).WellFormed := by
  unfold Library.mergeScript
  split
  · rename_i hm
    exact h.merge? hm
  · exact h

theorem WellFormed.of_build (h : build s v = .ok l) : l.WellFormed := by
  obtain ⟨text, -, hm⟩ := build_eq_ok_iff.1 h
  have he : empty.WellFormed := fun e he => by simp [empty] at he
  exact mergeScripts_induction (fun _ e script _ _ h => h.mergeScript (s.fullName e.1) script) hm
    (he.addAll _)

end Library

namespace Settings

theorem fullName_of_ne (hs : s.scope ≠ []) (n : Text) : s.fullName n = s.scope ++ '.' :: n := by
  rw [fullName, if_neg hs, List.append_assoc]
  rfl

@[simp] theorem fullName_lt_iff : s.fullName n < s.fullName m ↔ n < m := by
  unfold fullName
  split
  · rfl
  · exact Text.append_lt_append_iff _

/-- The types in a scope have the full names of simple names. -/
theorem scope_eq_iff (hs : s.scope ≠ []) (ht : t.IsSplit) :
    t.scope = s.scope ↔ '.' ∉ t.name ∧ t.fullName = s.fullName t.name := by
  rw [fullName_of_ne hs]
  rcases ht with ⟨hf, hd⟩ | ⟨hd, -, hn⟩
  · rw [hf]
    refine ⟨fun h => ⟨hd, h ▸ rfl⟩, fun h => (Text.append_dot_inj h.2 hd hd).1⟩
  · rw [hn]
    refine ⟨fun h => absurd h.symm hs, fun h => absurd ?_ hd⟩
    rw [h.2]
    exact List.mem_append_right _ List.mem_cons_self

theorem name_of_fullName (hs : s.scope ≠ []) (ht : t.IsSplit) (hn : '.' ∉ n)
    (h : t.fullName = s.fullName n) : t.name = n ∧ t.scope = s.scope := by
  rw [fullName_of_ne hs] at h
  rcases ht with ⟨hf, hd⟩ | ⟨hd, -, -⟩
  · obtain ⟨hscope, hname⟩ := Text.append_dot_inj (hf.symm.trans h) hd hn
    exact ⟨hname, hscope⟩
  · refine absurd ?_ hd
    rw [h]
    exact List.mem_append_right _ List.mem_cons_self

@[simp] theorem isSome_scriptPath?_iff : (s.scriptPath? n).isSome ↔ n ∈ s.scripts.map Prod.fst := by
  rw [scriptPath?, Option.isSome_map, List.lookup_isSome_iff, List.mem_map]
  refine exists_congr fun e => and_congr_right fun _ => ?_
  rw [beq_iff_eq, eq_comm]

end Settings

namespace Reference

/-! ## Listed types -/

theorem mem_listed_iff (hs : s.scope ≠ []) (hl : l.WellFormed) : t ∈ listed s l ↔
    l.get? (s.fullName t.name) = some t ∧ '.' ∉ t.name ∧ (s.index = [] ∨ t.name ∈ s.index) := by
  rw [listed, List.mem_filter, decide_eq_true_iff, Library.types, List.mem_map]
  constructor
  · rintro ⟨⟨⟨n, t⟩, he, rfl⟩, hscope, hindex⟩
    have ht := hl _ he
    obtain ⟨hd, hf⟩ := (Settings.scope_eq_iff hs ht.isSplit).1 hscope
    refine ⟨Library.get?_eq_some_iff.2 ?_, hd, hindex⟩
    rw [← hf, ht.fullName_eq]
    exact he
  · rintro ⟨ht, hd, hindex⟩
    have hw := Library.wellFormed_iff.1 hl _ t ht
    exact ⟨⟨_, Library.get?_eq_some_iff.1 ht, rfl⟩,
      (Settings.name_of_fullName hs hw.isSplit hd hw.fullName_eq).2, hindex⟩

def names (s : Settings) (l : Library) : List Text := (listed s l).map (·.name)

theorem mem_names_iff (hs : s.scope ≠ []) (hl : l.WellFormed) : n ∈ names s l ↔
    '.' ∉ n ∧ (l.get? (s.fullName n)).isSome ∧ (s.index = [] ∨ n ∈ s.index) := by
  rw [names, List.mem_map]
  constructor
  · rintro ⟨t, ht, rfl⟩
    obtain ⟨hget, hd, hindex⟩ := (mem_listed_iff hs hl).1 ht
    exact ⟨hd, hget ▸ rfl, hindex⟩
  · rintro ⟨hd, hget, hindex⟩
    obtain ⟨t, ht⟩ := Option.isSome_iff_exists.1 hget
    have hw := Library.wellFormed_iff.1 hl _ t ht
    obtain ⟨rfl, -⟩ := Settings.name_of_fullName hs hw.isSplit hd hw.fullName_eq
    exact ⟨t, (mem_listed_iff hs hl).2 ⟨ht, hd, hindex⟩, rfl⟩

theorem names_sorted (hs : s.scope ≠ []) (hl : l.WellFormed) :
    (names s l).Pairwise fun a b => a.byteList < b.byteList := by
  have htypes : l.types.Pairwise fun t u => t.fullName < u.fullName := by
    refine List.pairwise_map.2 (l.sorted.imp_of_mem fun {e e'} he he' hlt => ?_)
    rwa [(hl e he).fullName_eq, (hl e' he').fullName_eq]
  have hlisted : (listed s l).Pairwise fun t u => t.fullName < u.fullName := htypes.filter _
  refine List.pairwise_map.2 (hlisted.imp_of_mem fun {t u} ht hu hlt => ?_)
  have hfull : ∀ t ∈ listed s l, t.fullName = s.fullName t.name := fun t ht =>
    (Library.wellFormed_iff.1 hl _ t ((mem_listed_iff hs hl).1 ht).1).fullName_eq
  rw [hfull t ht, hfull u hu, Settings.fullName_lt_iff] at hlt
  exact Text.byteList_lt_iff.2 hlt

/-! ## Answers -/

theorem pageOf_eq (s : Settings) (f : Format) (n : Text) (l : Library) : pageOf s f n l =
    match l.get? (s.fullName n) with
    | some t => .ok (f.typePage t)
    | none => .error (if n ∈ s.scripts.map Prod.fst then .notDocumented (s.fullName n)
        else .unknownType (s.fullName n)) := by
  rw [pageOf]
  cases l.get? (s.fullName n) with
  | some t => rfl
  | none =>
    simp only [Settings.isSome_scriptPath?_iff]
    split <;> rfl

/-- All that is kept is one library. -/
def Keeps (l : Library) (r : Reference) : Prop := ∀ k b, r.cache.find? k = some b → b.value = l

variable {r : Reference}

theorem keeps_start (s : Settings) (f : Format) (l : Library) :
    ({ settings := s, format := f } : Reference).Keeps l := by
  intro k b hk
  cases hk

/-- As long as every build gives the same library, the reference keeps it and answers from it. -/
theorem Keeps.documentation (hr : r.Keeps l) (hb : Library.build r.settings v = .ok l) :
    ∃ b r', r.documentation v = (.ok b, r') ∧ b.value = l ∧ r'.settings = r.settings ∧
      r'.format = r.format ∧ r'.Keeps l := by
  cases h : r.cache.find? (.of v.stamp? r.settings.backing) with
  | some b => exact ⟨b, r, documentation_of_some h, hr _ b h, rfl, rfl, hr⟩
  | none =>
    have hd := documentation_of_none h
    rw [hb] at hd
    refine ⟨_, _, hd, rfl, rfl, rfl, fun k b hk => ?_⟩
    rcases Cache.find?_of_find?_record hk with hk | ⟨-, hk⟩
    · exact hr k b hk
    · exact (Except.ok.inj hk).symm

theorem Keeps.answer {α : Type} (hr : r.Keeps l) (hb : Library.build r.settings v = .ok l)
    (g : Library → Except Error α) : ∃ r', r.answer v g = (g l, r') ∧ r'.settings = r.settings ∧
      r'.format = r.format ∧ r'.Keeps l := by
  obtain ⟨b, r', hd, rfl, hr'⟩ := hr.documentation hb
  exact ⟨r', by rw [Reference.answer, hd], hr'⟩

end Reference

end ApiBook
