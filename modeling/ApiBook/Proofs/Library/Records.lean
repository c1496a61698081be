import ApiBook.Proofs.Library.Lookup

/-! # Owners of records

A record belongs to at most one type. Adding it changes that type only, and what a library holds
under a full name after many records depends on the records of that name alone.
-/

namespace ApiBook

variable {r : Record} {n : Text}

/-- The full name of the type that a record belongs to: the target of a record of a type, and the
target up to its last dot of a record of a member. -/
def Record.owner? (r : Record) : Option Text :=
  match r.kind with
  | .scope | .unknown => none
  | .type => some r.target
  | .property | .field | .event | .method => (Text.cutLast? '.' r.target).map Prod.fst

/-- A type with what one of its records tells. -/
def TypeDoc.addRecord (t : TypeDoc) (r : Record) : TypeDoc :=
  match r.kind with
  | .type => t.fillSummary r.summary
  | _ =>
    match (Text.cutLast? '.' r.target).bind fun (_, name) => r.toMember? name with
    | some m => (t.join m).1
    | none => t

/-- The type of a full name as its own records document it, in their order. -/
def TypeDoc.ofRecords (n : Text) (rs : List Record) : TypeDoc :=
  (rs.filter (·.owner? = some n)).foldl addRecord (ofFullName n)

namespace Library

variable {l : Library} {rs : List Record}

theorem add_of_owner?_eq_none (h : r.owner? = none) : l.add r = l := by
  cases hk : r.kind with
  | scope | unknown => simp only [add, hk]
  | type => simp [Record.owner?, hk] at h
  | property | field | event | method =>
    simp only [Record.owner?, hk, Option.map_eq_none_iff] at h
    simp only [add, hk, h]

theorem add_of_owner?_eq_some (h : r.owner? = some n) :
    l.add r = l.update n fun t => t.addRecord r := by
  cases hk : r.kind with
  | scope | unknown => simp [Record.owner?, hk] at h
  | type =>
    simp only [Record.owner?, hk, Option.some.injEq] at h
    simp only [add, TypeDoc.addRecord, hk, h]
  | property | field | event | method =>
    simp only [Record.owner?, hk] at h
    obtain ⟨⟨owner, name⟩, hc, rfl⟩ := Option.map_eq_some_iff.1 h
    simp only [add, TypeDoc.addRecord, hk, hc, Record.toMember?, Option.map_some, Option.bind_some]

theorem get?_add : (l.add r).get? n =
    if r.owner? = some n then some (((l.get? n).getD (TypeDoc.ofFullName n)).addRecord r)
    else l.get? n := by
  cases h : r.owner? with
  | none => rw [add_of_owner?_eq_none h, if_neg (by simp)]
  | some m =>
    rw [add_of_owner?_eq_some h, get?_update]
    by_cases hm : n = m
    · rw [if_pos hm, if_pos (by rw [hm]), hm]
    · rw [if_neg hm, if_neg (by simpa using Ne.symm hm)]

theorem get?_addAll : (l.addAll rs).get? n =
    if ∃ r ∈ rs, r.owner? = some n then
      some ((rs.filter (·.owner? = some n)).foldl TypeDoc.addRecord
        ((l.get? n).getD (TypeDoc.ofFullName n)))
    else l.get? n := by
  induction rs generalizing l with
  | nil => simp [addAll]
  | cons r rs ih =>
    have hc : l.addAll (r :: rs) = (l.add r).addAll rs := rfl
    rw [hc, ih, get?_add]
    by_cases hr : r.owner? = some n
    · simp only [hr, if_true, List.mem_cons, exists_eq_or_imp, true_or, decide_true,
        List.filter_cons_of_pos, List.foldl_cons, Option.getD_some]
      split
      · rfl
      · rename_i hne
        have hnil : rs.filter (·.owner? = some n) = [] := by
          rw [List.filter_eq_nil_iff]
          intro r' hr' h
          exact hne ⟨r', hr', of_decide_eq_true h⟩
        rw [hnil, List.foldl_nil]
    · simp only [hr, if_false, List.mem_cons, exists_eq_or_imp, false_or]
      rw [List.filter_cons_of_neg (by simpa using hr)]

/-- A library of records holds a type for each owner, and nothing else. -/
theorem get?_empty_addAll : (empty.addAll rs).get? n =
    if ∃ r ∈ rs, r.owner? = some n then some (.ofRecords n rs) else none :=
  get?_addAll

end Library

end ApiBook
