import ApiBook.Proofs.Library.Records
import ApiBook.Proofs.Model.Join
import ApiBook.Proofs.Text.Bytes
import ApiBook.Proofs.Xml.MemberText
import ApiBook.Proofs.Xml.RoundTrip

/-! # The order of a documentation file

Records are sorted by their targets before they are added, so the members of a type stand in the
order of their names, and of the order of a file only that among the elements of one target counts.
-/

namespace ApiBook

namespace Xml

variable {e e' : Text} {es es' s s' : List Text} {l l' : List Record}

section Sorting

theorem mem_of_filter_target_eq {r : Record}
    (hf : ∀ t, l.filter (·.target = t) = l'.filter (·.target = t)) (hr : r ∈ l) : r ∈ l' := by
  have hr : r ∈ l.filter (·.target = r.target) := List.mem_filter.2 ⟨hr, decide_eq_true rfl⟩
  rw [hf] at hr
  exact List.mem_of_mem_filter hr

theorem not_target_lt_head {a r : Record}
    (h : (a :: l).Pairwise fun a b => ¬ b.target < a.target) (hr : r ∈ a :: l) :
    ¬ r.target < a.target := by
  rcases List.mem_cons.1 hr with rfl | hr
  · exact List.lt_irrefl _
  · exact List.rel_of_pairwise_cons h hr

/-- A list that is sorted by target is determined by its parts of one target each. -/
theorem eq_of_filter_target_eq (h : l.Pairwise fun a b => ¬ b.target < a.target)
    (h' : l'.Pairwise fun a b => ¬ b.target < a.target)
    (hf : ∀ t, l.filter (·.target = t) = l'.filter (·.target = t)) : l = l' := by
  have hf' : ∀ t, l'.filter (·.target = t) = l.filter (·.target = t) := fun t => (hf t).symm
  induction l generalizing l' with
  | nil =>
    refine (List.eq_nil_iff_forall_not_mem.2 fun r hr => ?_).symm
    exact List.not_mem_nil (mem_of_filter_target_eq hf' hr)
  | cons a l ih =>
    have ha := mem_of_filter_target_eq hf List.mem_cons_self
    cases l' with
    | nil => exact absurd ha List.not_mem_nil
    | cons b l' =>
      have hb := mem_of_filter_target_eq hf' List.mem_cons_self
      have htarget : b.target = a.target := by
        by_contra hne
        exact not_target_lt_head h' ha
          (Text.lt_of_not_lt (not_target_lt_head h hb) (Ne.symm hne))
      have hhead := hf a.target
      rw [List.filter_cons_of_pos (by simp), List.filter_cons_of_pos (by simp [htarget])] at hhead
      obtain ⟨rfl, -⟩ := List.cons.inj hhead
      have hrest (t : Text) : l.filter (·.target = t) = l'.filter (·.target = t) := by
        have ht := hf t
        rw [List.filter_cons, List.filter_cons] at ht
        split at ht
        · exact (List.cons.inj ht).2
        · exact ht
      exact congrArg (a :: ·) (ih h.of_cons h'.of_cons hrest fun t => (hrest t).symm)

end Sorting

section Elements

def targetOf? (e : Text) : Option Text := (record? e).map (·.target)

/-- The same elements in another order, which is kept among those of one target. -/
structure Reordered (es es' : List Text) : Prop where
  perm : es'.Perm es
  keeps : ∀ n, es'.filter (targetOf? · = some n) = es.filter (targetOf? · = some n)

theorem filter_filterMap_record? (n : Text) (es : List Text) :
    (es.filterMap record?).filter (·.target = n) =
      (es.filter (targetOf? · = some n)).filterMap record? := by
  rw [List.filter_filterMap, List.filterMap_filter]
  congr 1
  funext e
  cases h : record? e <;> simp [targetOf?, h, Option.filter]

theorem records_eq_of_reordered {s s' : Text} (h : Reordered (memberTexts s) (memberTexts s')) :
    records s' = records s := by
  have hs := stablySorted_mergeSort (members s)
  have hs' := stablySorted_mergeSort (members s')
  refine eq_of_filter_target_eq hs'.sorted hs.sorted fun n => ?_
  rw [records, records, hs'.stable, hs.stable, members_eq_filterMap, members_eq_filterMap,
    filter_filterMap_record?, filter_filterMap_record?, h.keeps]

theorem Reordered.swap (h : targetOf? e ≠ targetOf? e') (es es' : List Text) :
    Reordered (es ++ e :: e' :: es') (es ++ e' :: e :: es') where
  perm := (List.Perm.swap e e' es').append_left es
  keeps n := by
    rw [List.filter_append, List.filter_append]
    congr 1
    by_cases hn : targetOf? e = some n
    · have hn' : targetOf? e' ≠ some n := fun h' => h (hn.trans h'.symm)
      simp [hn, hn']
    · simp [List.filter_cons, hn]

theorem isMemberText_printEntry {e : Entry} (he : e.Printable) : IsMemberText (printEntry e) := by
  have h := member?_printEntry_append he []
  rw [List.append_nil] at h
  rw [IsMemberText, h]
  rfl

theorem targetOf?_printEntry {e : Entry} (he : e.Printable) :
    targetOf? (printEntry e) = some (Record.ofId e.id).target := by
  have h := member?_printEntry_append he []
  rw [List.append_nil] at h
  rw [targetOf?, record?, h]
  rfl

end Elements

end Xml

def Record.memberName? (r : Record) : Option Text :=
  match r.kind with
  | .property | .field | .event | .method => (Text.cutLast? '.' r.target).map Prod.snd
  | .scope | .type | .unknown => none

theorem Record.target_eq {r : Record} {n k : Text} (hn : r.owner? = some n)
    (hk : r.memberName? = some k) : r.target = n ++ '.' :: k := by
  cases h : r.kind with
  | scope | type | unknown => simp [memberName?, h] at hk
  | property | field | event | method =>
    simp only [owner?, h] at hn
    simp only [memberName?, h] at hk
    obtain ⟨p, hp, rfl⟩ := Option.map_eq_some_iff.1 hn
    rw [hp, Option.map_some, Option.some.injEq] at hk
    rw [← hk]
    exact (Text.cutLast?_eq_some hp).1

namespace TypeDoc

variable {n : Text} {t : TypeDoc} {r : Record} {rs : List Record}

theorem members_addRecord_of_none (h : r.memberName? = none) :
    (t.addRecord r).members = t.members := by
  cases hk : r.kind with
  | type => simp only [addRecord, hk, fillSummary]
  | scope | unknown =>
    cases hc : Text.cutLast? '.' r.target <;> simp [addRecord, hk, hc, Record.toMember?]
  | property | field | event | method =>
    simp only [Record.memberName?, hk, Option.map_eq_none_iff] at h
    simp [addRecord, hk, h]

theorem names_addRecord_of_some {k : Text} (h : r.memberName? = some k) :
    (t.addRecord r).members.map (·.name) =
      if k ∈ t.members.map (·.name) then t.members.map (·.name)
      else t.members.map (·.name) ++ [k] := by
  cases hk : r.kind with
  | scope | type | unknown => simp [Record.memberName?, hk] at h
  | property | field | event | method =>
    simp only [Record.memberName?, hk] at h
    obtain ⟨⟨owner, name⟩, hc, rfl⟩ := Option.map_eq_some_iff.1 h
    simp only [addRecord, hk, hc, Record.toMember?, Option.map_some, Option.bind_some, join,
      joinMember_names]

/-- The members of a type have the names that its records give, in the order in which each name
comes first. -/
theorem names_ofRecords (n : Text) (rs : List Record) : (ofRecords n rs).members.map (·.name) =
    ((rs.filter (·.owner? = some n)).filterMap Record.memberName?).eraseDups := by
  unfold ofRecords
  generalize rs.filter (·.owner? = some n) = l
  induction l using List.reverseRecOn with
  | nil =>
    have hnil : (ofFullName n).members = [] := by
      unfold ofFullName
      split <;> rfl
    rw [List.foldl_nil, hnil]
    rfl
  | append_singleton l r ih =>
    rw [List.foldl_concat, List.filterMap_append]
    cases h : r.memberName? with
    | none =>
      rw [members_addRecord_of_none h, ih]
      simp [h]
    | some k =>
      rw [names_addRecord_of_some h, ih, List.filterMap_cons_some h, List.filterMap_nil,
        eraseDups_concat]

/-- Records in the order of their targets give the members in the order of their names. -/
theorem pairwise_ofRecords (h : rs.Pairwise fun a b => ¬ b.target < a.target) :
    ((ofRecords n rs).members.map (·.name)).Pairwise (· < ·) := by
  have howner : ∀ r ∈ rs.filter (·.owner? = some n), r.owner? = some n :=
    fun r hr => of_decide_eq_true (List.mem_filter.1 hr).2
  have hnames : ((rs.filter (·.owner? = some n)).filterMap Record.memberName?).Pairwise
      fun a b => ¬ b < a := by
    refine List.pairwise_filterMap.2 ((h.filter _).imp_of_mem fun ha hb hab => ?_)
    intro k hk k' hk' hlt
    rw [Record.target_eq (howner _ ha) hk, Record.target_eq (howner _ hb) hk'] at hab
    exact hab ((Text.append_lt_append_iff n).2 (List.cons_lt_cons_iff.2 (.inr ⟨rfl, hlt⟩)))
  rw [names_ofRecords]
  refine ((hnames.sublist (eraseDups_sublist _)).and (nodup_eraseDups _)).imp fun h => ?_
  exact Text.lt_of_not_lt h.1 h.2

end TypeDoc

namespace Library

open Xml (Reordered memberTexts)

/-- A library of records in the order of their targets lists the members of each type in the order
of their names, compared byte by byte. -/
theorem pairwise_names_addAll {rs : List Record}
    (h : rs.Pairwise fun a b => ¬ b.target < a.target) {t : TypeDoc}
    (ht : t ∈ (empty.addAll rs).types) :
    (t.members.map fun m => Text.byteList m.name).Pairwise (· < ·) := by
  obtain ⟨⟨n, t⟩, he, rfl⟩ := List.mem_map.1 ht
  have hget := get?_eq_some_iff.2 he
  rw [get?_empty_addAll] at hget
  split at hget
  · obtain rfl := Option.some.inj hget
    have hnames := List.pairwise_map.1 (TypeDoc.pairwise_ofRecords (n := n) h)
    exact List.pairwise_map.2 (hnames.imp Text.byteList_lt)
  · cases hget

/-- The library of a documentation file lists the members of each type in strictly ascending order
of their names. It stays the same when the elements of the file change places without overtaking
one of the same target. -/
theorem addAll_records_ordered (s : Text) :
    (∀ t ∈ (empty.addAll (Xml.records s)).types,
      (t.members.map fun m => Text.byteList m.name).Pairwise (· < ·)) ∧
    ∀ s', Reordered (memberTexts s) (memberTexts s') →
      empty.addAll (Xml.records s') = empty.addAll (Xml.records s) := by
  refine ⟨fun t ht => ?_, fun s' h => ?_⟩
  · exact pairwise_names_addAll (Xml.stablySorted_mergeSort (Xml.members s)).sorted ht
  · rw [Xml.records_eq_of_reordered h]

/-- A property between two overloads of a method, and in front of them. -/
theorem addAll_records_ordered_of_overloads :
    let f : Xml.Entry := ⟨"M:N.A.f(System.Int32)", [⟨"param", some "x".toList, "Index"⟩]⟩
    let w : Xml.Entry := ⟨"P:N.A.Width", [⟨"summary", none, "Width"⟩]⟩
    let f' : Xml.Entry := ⟨"M:N.A.f(System.String)", [⟨"summary", none, "Finds it"⟩]⟩
    let file (es : List Xml.Entry) : Text :=
      "<doc>" ++ (es.map fun e => (Xml.printEntry e, ['\r', '\n', ' '])).flatMap fun p => p.1 ++ p.2
    Reordered (memberTexts (file [f, w, f'])) (memberTexts (file [w, f, f'])) ∧
      (∀ t ∈ (empty.addAll (Xml.records (file [f, w, f']))).types,
        (t.members.map fun m => Text.byteList m.name).Pairwise (· < ·)) ∧
      empty.addAll (Xml.records (file [w, f, f'])) =
        empty.addAll (Xml.records (file [f, w, f'])) := by
  intro f w f' file
  have hp : ∀ e ∈ [f, w, f'], e.Printable := by decide
  have htexts (es : List Xml.Entry) (h : ∀ e ∈ es, e.Printable) :
      memberTexts (file es) = es.map Xml.printEntry := by
    have hhead : Xml.silent ("<doc>" : Text) := rfl
    have hlayout := Xml.memberTexts_layout hhead
      (es.map fun e => (Xml.printEntry e, ['\r', '\n', ' '])) fun p hp => by
        obtain ⟨e, he, rfl⟩ := List.mem_map.1 hp
        exact ⟨Xml.isMemberText_printEntry (h e he), rfl⟩
    rw [List.map_map] at hlayout
    exact hlayout
  have h : Reordered (memberTexts (file [f, w, f'])) (memberTexts (file [w, f, f'])) := by
    rw [htexts _ hp, htexts [w, f, f'] (by decide)]
    refine Reordered.swap ?_ [] [Xml.printEntry f']
    rw [Xml.targetOf?_printEntry (hp f (by simp)), Xml.targetOf?_printEntry (hp w (by simp))]
    decide
  exact ⟨h, (addAll_records_ordered _).1, (addAll_records_ordered _).2 _ h⟩

end Library

end ApiBook
