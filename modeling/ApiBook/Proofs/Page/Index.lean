import ApiBook.Page.Markdown

/-! # Links of indexes

A markdown index is a heading with one list entry for each type.
-/

namespace ApiBook

theorem Text.of_mem_consHead {c : Char} {t : Text} {ts : List Text} (h : t ∈ consHead c ts) :
    (∃ u, t = c :: u ∧ (u = [] ∨ u ∈ ts)) ∨ t ∈ ts := by
  cases ts with
  | nil => exact .inl ⟨[], List.mem_singleton.1 h, .inl rfl⟩
  | cons u us =>
    rcases List.mem_cons.1 h with rfl | h
    · exact .inl ⟨u, rfl, .inr List.mem_cons_self⟩
    · exact .inr (List.mem_cons_of_mem _ h)

theorem Text.not_mem_of_mem_lines {s line : Text} (h : line ∈ lines s) : '\n' ∉ line := by
  fun_induction lines s generalizing line with
  | case1 => cases h
  | case2 cs ih =>
    rcases List.mem_cons.1 h with rfl | h
    · exact List.not_mem_nil
    · exact ih h
  | case3 cs ih =>
    rcases List.mem_cons.1 h with rfl | h
    · exact List.not_mem_nil
    · exact ih h
  | case4 c cs hn _ ih =>
    rcases of_mem_consHead h with ⟨u, rfl, hu⟩ | h
    · refine List.not_mem_cons_of_ne_of_not_mem (fun hc => hn hc.symm) ?_
      rcases hu with rfl | hu
      · exact List.not_mem_nil
      · exact ih hu
    · exact ih h

namespace Page.Markdown

/-- An entry of a list: a label, the target that it links to, and a remark. -/
structure Link where
  label : Text
  target : Text
  remark : Text

def Link.print (e : Link) : Text :=
  "* [" ++ e.label ++ "](" ++ e.target ++ ")" ++ e.remark ++ "\n"

def remark (t : TypeDoc) : Text :=
  match (Text.lines t.summary).head? with
  | some first => ": " ++ first
  | none => []

@[simp] theorem not_mem_remark (t : TypeDoc) : '\n' ∉ remark t := by
  unfold remark
  split
  · rename_i first hf
    have h := Text.not_mem_of_mem_lines (List.mem_of_mem_head? hf)
    simpa using h
  · exact List.not_mem_nil

def links (ts : List TypeDoc) : List Link :=
  ts.map fun t => ⟨t.name, t.name ++ "." ++ extension, remark t⟩

theorem indexLine_eq (t : TypeDoc) : indexLine (fun t => t.name ++ "." ++ extension) t =
    Link.print ⟨t.name, t.name ++ "." ++ extension, remark t⟩ := by
  unfold indexLine Link.print remark
  cases (Text.lines t.summary).head? <;> rfl

theorem index_eq (ts : List TypeDoc) :
    index ts = "# Reference\n\n" ++ (links ts).flatMap Link.print := by
  have hlines : ts.flatMap (indexLine fun t => t.name ++ "." ++ extension) =
      (links ts).flatMap Link.print := by
    refine Eq.trans ?_ (List.flatMap_map _ _ _).symm
    exact congrArg ts.flatMap (funext indexLine_eq)
  exact congrArg ("# Reference\n\n".toList ++ ·) hlines

end Page.Markdown

end ApiBook
