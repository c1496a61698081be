import ApiBook.Proofs.Text.Classes
import Mathlib.Data.List.TakeWhile

/-! # Spans

A span of characters of one class ends where a character of another class stands. A text is trimmed
when no white space stands at either end of it, and its fields are the spans between separators.
-/

namespace ApiBook.Text

variable {α : Type} {p : α → Bool} {c : α} {s t : List α}

section Starts

/-- No character of the class stands at the start of the text. -/
def StartsNot (p : α → Bool) (s : List α) : Prop := ∀ c ∈ s.head?, p c = false

theorem StartsNot.nil : StartsNot p [] := fun _ h => nomatch h

theorem StartsNot.cons (h : p c = false) (s : List α) : StartsNot p (c :: s) := by
  rintro d ⟨⟩
  exact h

theorem StartsNot.dropWhile_eq (h : StartsNot p s) : s.dropWhile p = s := by
  cases s with
  | nil => rfl
  | cons c s => rw [List.dropWhile_cons, h c rfl, if_neg Bool.false_ne_true]

theorem StartsNot.takeWhile_eq (h : StartsNot p s) : s.takeWhile p = [] := by
  cases s with
  | nil => rfl
  | cons c s => rw [List.takeWhile_cons, h c rfl, if_neg Bool.false_ne_true]

theorem takeWhile_append (hs : ∀ c ∈ s, p c = true) (ht : StartsNot p t) :
    (s ++ t).takeWhile p = s := by
  rw [List.takeWhile_append_of_pos hs, ht.takeWhile_eq, List.append_nil]

theorem dropWhile_append (hs : ∀ c ∈ s, p c = true) (ht : StartsNot p t) :
    (s ++ t).dropWhile p = t := by
  rw [List.dropWhile_append_of_pos hs, ht.dropWhile_eq]

theorem takeWhile_append_cons (hc : p c = false) (s t : List α) :
    (s ++ c :: t).takeWhile p = s.takeWhile p := by
  induction s with
  | nil => exact (StartsNot.cons hc t).takeWhile_eq
  | cons d s ih => rw [List.cons_append, List.takeWhile_cons, List.takeWhile_cons, ih]

theorem dropWhile_append_cons (hc : p c = false) (s t : List α) :
    (s ++ c :: t).dropWhile p = s.dropWhile p ++ c :: t := by
  induction s with
  | nil => exact (StartsNot.cons hc t).dropWhile_eq
  | cons d s ih =>
    rw [List.cons_append, List.dropWhile_cons, List.dropWhile_cons, ih]
    split <;> rfl

theorem startsNot_dropWhile (p : α → Bool) (s : List α) : StartsNot p (s.dropWhile p) := by
  intro c hc
  have h := List.head?_dropWhile_not p s
  rw [Option.mem_def.1 hc] at h
  simpa using h

theorem StartsNot.of_append (h : StartsNot p (s ++ t)) : StartsNot p s := by
  cases s with
  | nil => exact .nil
  | cons c s => exact h

end Starts

section Ends

def EndsNot (p : α → Bool) (s : List α) : Prop := ∀ c ∈ s.getLast?, p c = false

theorem EndsNot.nil : EndsNot p [] := fun _ h => nomatch h

theorem EndsNot.singleton (h : p c = false) : EndsNot p [c] := by
  rintro d ⟨⟩
  exact h

theorem EndsNot.append (hs : EndsNot p s) (ht : EndsNot p t) : EndsNot p (s ++ t) := by
  intro c hc
  rw [List.getLast?_append, Option.mem_def, Option.or_eq_some_iff] at hc
  rcases hc with hc | ⟨-, hc⟩
  · exact ht c hc
  · exact hs c hc

theorem EndsNot.append_of_ne_nil (ht : EndsNot p t) (hne : t ≠ []) (s : List α) :
    EndsNot p (s ++ t) := by
  intro c hc
  rw [List.getLast?_append, Option.mem_def, Option.or_eq_some_iff] at hc
  rcases hc with hc | ⟨hn, -⟩
  · exact ht c hc
  · exact absurd (List.getLast?_eq_none_iff.1 hn) hne

theorem EndsNot.cons (ht : EndsNot p t) (hne : t ≠ []) (c : α) : EndsNot p (c :: t) :=
  ht.append_of_ne_nil hne [c]

theorem EndsNot.of_forall (h : ∀ c ∈ s, p c = false) : EndsNot p s :=
  fun c hc => h c (List.mem_of_getLast? hc)

theorem EndsNot.of_append (h : EndsNot p (s ++ t)) : EndsNot p t := fun c hc =>
  h c (by rw [List.getLast?_append, Option.mem_def.1 hc]; rfl)

end Ends

section Splits

variable [DecidableEq α] {x : α}

def splits (x : α) : List α → List (List α × List α)
  | [] => []
  | c :: s => (if c = x then [([], s)] else []) ++ (splits x s).map fun p => (c :: p.1, p.2)

@[simp] theorem mem_splits_iff {p : List α × List α} : p ∈ splits x s ↔ s = p.1 ++ x :: p.2 := by
  induction s generalizing p with
  | nil => simp [splits]
  | cons c s ih =>
    obtain ⟨a, b⟩ := p
    cases a with
    | nil =>
      by_cases h : c = x
      · simp [splits, h, eq_comm]
      · simp [splits, h]
    | cons d a =>
      have hd : ((d :: a, b) ∈ if c = x then [([], s)] else []) ↔ False := by split <;> simp
      rw [splits, List.mem_append, hd, false_or, List.mem_map, List.cons_append, List.cons.injEq]
      constructor
      · rintro ⟨q, hq, h⟩
        cases h
        exact ⟨rfl, ih.1 hq⟩
      · rintro ⟨rfl, h⟩
        exact ⟨(a, b), ih.2 h, rfl⟩

theorem splits_append (s t : List α) : splits x (s ++ t) =
    ((splits x s).map fun p => (p.1, p.2 ++ t)) ++
      (splits x t).map fun p => (s ++ p.1, p.2) := by
  induction s with
  | nil => simp [splits]
  | cons c s ih =>
    rw [List.cons_append, splits, splits, ih]
    by_cases h : c = x <;> simp [h, Function.comp_def]

theorem splits_of_notMem (h : x ∉ s) : splits x s = [] :=
  List.eq_nil_iff_forall_not_mem.2 fun p hp =>
    h (mem_splits_iff.1 hp ▸ List.mem_append_right p.1 List.mem_cons_self)

theorem splits_append_cons (h : x ∉ s) (t : List α) : splits x (s ++ x :: t) =
    (s, t) :: (splits x t).map fun p => (s ++ x :: p.1, p.2) := by
  rw [splits_append, splits_of_notMem h, splits, if_pos rfl]
  simp

end Splits

section Words

theorem exists_span (p : α → Bool) (s : List α) :
    ∃ w t, s = w ++ t ∧ (∀ c ∈ w, p c = true) ∧ StartsNot p t :=
  ⟨_, _, List.takeWhile_append_dropWhile.symm, List.all_eq_true.1 List.all_takeWhile,
    startsNot_dropWhile p s⟩

theorem exists_word (hs : StartsNot p s) (hne : s ≠ []) :
    ∃ u t, s = u ++ t ∧ (∀ c ∈ u, p c = false) ∧ u ≠ [] := by
  obtain ⟨u, t, rfl, hu, ht⟩ := exists_span (fun c => !p c) s
  refine ⟨u, t, rfl, fun c hc => by simpa using hu c hc, ?_⟩
  rintro rfl
  obtain ⟨c, t, rfl⟩ := List.exists_cons_of_ne_nil hne
  have h : (!p c) = false := ht c rfl
  rw [hs c rfl] at h
  cases h

/-- A list is words of the characters outside a class, with gaps of those inside between them. -/
theorem words_induction {motive : List α → Prop} (p : α → Bool)
    (white : ∀ w, (∀ c ∈ w, p c = true) → motive w)
    (front : ∀ w t, (∀ c ∈ w, p c = true) → StartsNot p t → t ≠ [] → motive t → motive (w ++ t))
    (word : ∀ u w, (∀ c ∈ u, p c = false) → u ≠ [] → (∀ c ∈ w, p c = true) → motive (u ++ w))
    (gap : ∀ u w t, (∀ c ∈ u, p c = false) → u ≠ [] → (∀ c ∈ w, p c = true) → StartsNot p t →
      t ≠ [] → motive t → motive (u ++ (w ++ t)))
    (s : List α) : motive s := by
  induction hk : s.length using Nat.strongRecOn generalizing s with
  | ind k ih =>
    obtain ⟨w, t, rfl, hw, ht⟩ := exists_span p s
    by_cases hnt : t = []
    · rw [hnt, List.append_nil]
      exact white w hw
    by_cases hnw : w = []
    · obtain ⟨u, r, rfl, hu, hnu⟩ := exists_word ht hnt
      obtain ⟨w', t, rfl, hw', ht⟩ := exists_span p r
      have hlt : t.length < k := by
        have hpos := List.length_pos_iff.2 hnu
        simp only [List.length_append] at hk
        omega
      rw [hnw, List.nil_append]
      by_cases hnt : t = []
      · rw [hnt, List.append_nil]
        exact word u w' hu hnu hw'
      · exact gap u w' t hu hnu hw' ht hnt (ih _ hlt t rfl)
    · have hlt : t.length < k := by
        have hpos := List.length_pos_iff.2 hnw
        rw [List.length_append] at hk
        omega
      exact front w t hw ht hnt (ih _ hlt t rfl)

end Words

section Trims

variable {p : Char → Bool} {c : Char} {s : Text}

theorem dropEndWhile_append (p : Char → Bool) (s : Text) :
    ∃ e, s = dropEndWhile p s ++ e ∧ ∀ c ∈ e, p c := by
  induction s with
  | nil => exact ⟨[], rfl, nofun⟩
  | cons c s ih =>
    obtain ⟨e, hs, he⟩ := ih
    rw [dropEndWhile]
    split
    · rename_i hd
      rw [hd, List.nil_append] at hs
      split
      · rename_i hc
        exact ⟨c :: s, rfl, List.forall_mem_cons.2 ⟨hc, hs ▸ he⟩⟩
      · exact ⟨e, congrArg (c :: ·) hs, he⟩
    · rename_i hd
      exact ⟨e, by rw [List.cons_append, ← hd, ← hs], he⟩

theorem dropEndWhile_length_le (p : Char → Bool) (s : Text) :
    (dropEndWhile p s).length ≤ s.length := by
  obtain ⟨e, hs, -⟩ := dropEndWhile_append p s
  have hl := congrArg List.length hs
  rw [List.length_append] at hl
  omega

theorem dropEndWhile_append_of_forall {t : Text} (ht : ∀ c ∈ t, p c = true) (s : Text) :
    dropEndWhile p (s ++ t) = dropEndWhile p s := by
  have hnil : dropEndWhile p t = [] := by
    induction t with
    | nil => rfl
    | cons c t ih =>
      rw [dropEndWhile, ih fun d hd => ht d (List.mem_cons_of_mem c hd)]
      exact if_pos (ht c List.mem_cons_self)
  induction s with
  | nil => exact hnil
  | cons c s ih => rw [List.cons_append, dropEndWhile, ih, dropEndWhile]

@[simp] theorem dropEndWhile_eq_nil_iff : dropEndWhile p s = [] ↔ ∀ c ∈ s, p c = true := by
  constructor
  · intro h
    obtain ⟨e, hs, he⟩ := dropEndWhile_append p s
    rw [h, List.nil_append] at hs
    exact hs ▸ he
  · intro h
    exact dropEndWhile_append_of_forall h []

theorem dropEndWhile_append_of_ne_nil {t : Text} (ht : dropEndWhile p t ≠ []) (s : Text) :
    dropEndWhile p (s ++ t) = s ++ dropEndWhile p t := by
  induction s with
  | nil => rfl
  | cons c s ih =>
    obtain ⟨d, ds, hd⟩ := List.exists_cons_of_ne_nil (List.append_ne_nil_of_right_ne_nil s ht)
    rw [List.cons_append, dropEndWhile, ih, hd, List.cons_append, hd]

theorem EndsNot.dropEndWhile_eq (h : EndsNot p s) : dropEndWhile p s = s := by
  induction s with
  | nil => rfl
  | cons c s ih =>
    cases s with
    | nil => rw [dropEndWhile, dropEndWhile, h c rfl, if_neg Bool.false_ne_true]
    | cons d s =>
      have hs : EndsNot p (d :: s) := fun e he => h e (by rwa [List.getLast?_cons_cons])
      rw [dropEndWhile, ih hs]

theorem endsNot_dropEndWhile (p : Char → Bool) (s : Text) : EndsNot p (dropEndWhile p s) := by
  induction s with
  | nil => exact .nil
  | cons c s ih =>
    rw [dropEndWhile]
    split
    · split
      · exact .nil
      · rename_i hc
        exact .singleton (Bool.not_eq_true _ ▸ hc)
    · rename_i d ds h
      rw [h] at ih
      exact ih.cons (List.cons_ne_nil d ds) c

theorem EndsNot.eq_nil_of_dropWhile (h : EndsNot p s) (hd : s.dropWhile p = []) : s = [] := by
  refine List.getLast?_eq_none_iff.1 (Option.eq_none_iff_forall_ne_some.2 fun c hc => ?_)
  have hp := List.dropWhile_eq_nil_iff.1 hd c (List.mem_of_getLast? hc)
  exact Bool.false_ne_true ((h c hc).symm.trans hp)

theorem trim_cons (h : isWhite c = true) (s : Text) : trim (c :: s) = trim s := by
  rw [trim, trimStart, List.dropWhile_cons_of_pos h]
  rfl

theorem trim_append (h : ∀ c ∈ s, isWhite c = true) (t : Text) : trim (s ++ t) = trim t := by
  rw [trim, trimStart, List.dropWhile_append_of_pos h]
  rfl

@[simp] theorem trim_dropBlanks (s : Text) : trim (dropBlanks s) = trim s := by
  have h : ∀ c ∈ s.takeWhile isBlank, isWhite c = true := fun c hc =>
    isWhite_of_isBlank (List.all_eq_true.1 List.all_takeWhile c hc)
  have ht := trim_append h (dropBlanks s)
  rwa [dropBlanks, List.takeWhile_append_dropWhile, eq_comm] at ht

theorem startsNot_trim (s : Text) : StartsNot isWhite (trim s) := by
  obtain ⟨e, he, -⟩ := dropEndWhile_append isWhite (trimStart s)
  have hs : StartsNot isWhite (trimStart s) := startsNot_dropWhile isWhite s
  rw [he] at hs
  exact hs.of_append

theorem endsNot_trim (s : Text) : EndsNot isWhite (trim s) := endsNot_dropEndWhile isWhite _

theorem EndsNot.eq_nil_of_trim (h : EndsNot isWhite s) (ht : trim s = []) : s = [] := by
  obtain ⟨t, hs⟩ := List.dropWhile_suffix isWhite (l := s)
  have he : EndsNot isWhite (trimStart s) := by
    rw [← hs] at h
    exact h.of_append
  rw [trim, trimEnd, he.dropEndWhile_eq] at ht
  exact h.eq_nil_of_dropWhile ht

theorem mem_of_mem_trim (h : c ∈ trim s) : c ∈ s := by
  obtain ⟨e, he, -⟩ := dropEndWhile_append isWhite (trimStart s)
  have hs : c ∈ trimStart s := he ▸ List.mem_append_left e h
  exact (List.dropWhile_suffix isWhite).mem hs

theorem StartsNot.dropBlanks_eq (h : StartsNot isWhite s) : dropBlanks s = s :=
  StartsNot.dropWhile_eq fun c hc => isBlank_of_not_isWhite (h c hc)

theorem trim_eq_self_iff : trim s = s ↔ StartsNot isWhite s ∧ EndsNot isWhite s := by
  constructor
  · intro h
    have hend : EndsNot isWhite s := by
      rw [← h]
      exact endsNot_dropEndWhile isWhite (trimStart s)
    have hlen : s.length ≤ (trimStart s).length := by
      calc s.length = (trim s).length := by rw [h]
        _ ≤ (trimStart s).length := dropEndWhile_length_le isWhite (trimStart s)
    have hstart : trimStart s = s := (List.dropWhile_suffix isWhite).eq_of_length_le hlen
    refine ⟨?_, hend⟩
    rw [← hstart]
    exact startsNot_dropWhile isWhite s
  · rintro ⟨hs, he⟩
    rw [trim, trimStart, hs.dropWhile_eq, trimEnd, he.dropEndWhile_eq]

end Trims

section Fields

variable {c : Char} {s : Text}

theorem fields_ne_nil (p : Char → Bool) (s : Text) : fields p s ≠ [] := by
  cases s with
  | nil => exact List.cons_ne_nil _ _
  | cons c s =>
    rw [fields]
    split
    · exact List.cons_ne_nil _ _
    · cases fields p s <;> exact List.cons_ne_nil _ _

theorem consHead_append {ts us : List Text} (h : ts ≠ []) :
    consHead c (ts ++ us) = consHead c ts ++ us := by
  cases ts with
  | nil => exact absurd rfl h
  | cons t ts => rfl

theorem forall_mem_fields (p : Char → Bool) (s : Text) :
    ∀ t ∈ fields p s, ∀ c ∈ t, p c = false := by
  induction s with
  | nil => simp [fields]
  | cons d s ih =>
    rw [fields]
    split
    · exact List.forall_mem_cons.2 ⟨nofun, ih⟩
    · rename_i hd
      obtain ⟨t, ts, hts⟩ := List.exists_cons_of_ne_nil (fields_ne_nil p s)
      rw [hts] at ih ⊢
      obtain ⟨ht, hrest⟩ := List.forall_mem_cons.1 ih
      exact List.forall_mem_cons.2
        ⟨List.forall_mem_cons.2 ⟨Bool.not_eq_true _ ▸ hd, ht⟩, hrest⟩

theorem notMem_intercalate {ts : List Text} (hs : c ∉ s) (h : ∀ t ∈ ts, c ∉ t) :
    c ∉ List.intercalate s ts := by
  induction ts with
  | nil => exact List.not_mem_nil
  | cons t ts ih =>
    obtain ⟨ht, hts⟩ := List.forall_mem_cons.1 h
    by_cases hnil : ts = []
    · subst hnil
      rwa [List.intercalate_singleton]
    · rw [List.intercalate_cons_of_ne_nil hnil, List.mem_append, List.mem_append]
      rintro ((hm | hm) | hm)
      · exact ht hm
      · exact hs hm
      · exact ih hts hm

/-- Every separator stands between two fields. -/
theorem fields_append (p : Char → Bool) (hc : p c) (s t : Text) :
    fields p (s ++ c :: t) = fields p s ++ fields p t := by
  induction s with
  | nil => simp [fields, hc]
  | cons d s ih =>
    rw [List.cons_append, fields, fields, ih]
    split
    · rfl
    · exact consHead_append (fields_ne_nil p s)

theorem fields_of_notMem (h : c ∉ s) : fields (· == c) s = [s] := by
  induction s with
  | nil => rfl
  | cons d s ih =>
    have hd : ¬ (d == c) = true := by simp [(List.ne_of_not_mem_cons h).symm]
    rw [fields, if_neg hd, ih (List.not_mem_of_not_mem_cons h), consHead]

theorem fields_append_cons (h : c ∉ s) (t : Text) :
    fields (· == c) (s ++ c :: t) = s :: fields (· == c) t := by
  rw [fields_append (· == c) (beq_self_eq_true c), fields_of_notMem h, List.singleton_append]

end Fields

end ApiBook.Text
