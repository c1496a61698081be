import ApiBook.File.Tree
import ApiBook.Proofs.Text.Spans

/-! # Pieces of paths

What stands between the slashes of a path when it is continued or freed from slashes at its end.
-/

namespace ApiBook

theorem Text.utf8ByteSize_append (a b : Text) : (String.ofList (a ++ b)).utf8ByteSize =
    (String.ofList a).utf8ByteSize + (String.ofList b).utf8ByteSize := by
  rw [String.ofList_append, String.utf8ByteSize_append]

namespace Path

variable {p q : Path} {name : Text}

theorem pieces_ne_nil (p : Path) : p.pieces ≠ [] := Text.fields_ne_nil _ p

@[simp] theorem pieces_append_slash (p q : Path) : pieces (p ++ '/' :: q) = p.pieces ++ q.pieces :=
  Text.fields_append _ rfl p q

theorem pieces_of_name (h : '/' ∉ name) : pieces name = [name] :=
  Text.fields_of_notMem h

@[simp] theorem pieces_append_slashes (p : Path) (n : Nat) :
    pieces (p ++ List.replicate n '/') = p.pieces ++ List.replicate n [] := by
  induction n generalizing p with
  | zero => simp
  | succ n ih =>
    rw [List.replicate_succ, pieces_append_slash, ← List.nil_append (List.replicate n '/'), ih]
    rfl

theorem exists_eq_bare_append (h : p ≠ []) :
    ∃ n, p = Tree.bare p ++ List.replicate n '/' ∧ Tree.bare p ≠ [] := by
  obtain ⟨e, hp, he⟩ := Text.dropEndWhile_append (· == '/') p
  have he : e = List.replicate e.length '/' :=
    List.eq_replicate_iff.2 ⟨rfl, fun c hc => eq_of_beq (he c hc)⟩
  unfold Tree.bare
  split
  · rename_i hd
    rw [hd, List.nil_append] at hp
    cases p with
    | nil => exact absurd rfl h
    | cons c p =>
      rw [← hp, List.length_cons, List.replicate_succ] at he
      obtain ⟨hc, hp⟩ := List.cons.inj he
      exact ⟨p.length, congrArg (c :: ·) hp, by simp⟩
  · rename_i hd
    exact ⟨e.length, he ▸ hp, hd⟩

theorem isAbsolute_of_name (h : '/' ∉ name) : isAbsolute name = false := by
  cases name with
  | nil => rfl
  | cons c cs =>
    have hc : c ≠ '/' := fun hc => h (List.mem_cons.2 (.inl hc.symm))
    simpa [isAbsolute] using hc

theorem isAbsolute_append (h : p ≠ []) : isAbsolute (p ++ q) = p.isAbsolute := by
  cases p with
  | nil => exact absurd rfl h
  | cons c cs => rfl

theorem join_name (hp : p ≠ []) (h : '/' ∉ name) : join p name =
    if p.getLast? = some '/' then p ++ name else p ++ '/' :: name := by
  rw [join, isAbsolute_of_name h, if_neg Bool.false_ne_true]
  simp only [hp, false_or, List.append_assoc]
  rfl

theorem isAbsolute_join (hp : p ≠ []) (h : '/' ∉ name) :
    isAbsolute (join p name) = p.isAbsolute := by
  rw [join_name hp h]
  split <;> exact isAbsolute_append hp

theorem exists_pieces_join (hp : p ≠ []) (h : '/' ∉ name) :
    ∃ above, (p.pieces = above ∨ p.pieces = above ++ [[]]) ∧
      (join p name).pieces = above ++ [name] := by
  rw [join_name hp h]
  split
  · rename_i hl
    obtain ⟨q, rfl⟩ := List.getLast?_eq_some_iff.1 hl
    refine ⟨pieces q, .inr (pieces_append_slash q []), ?_⟩
    simp [pieces_of_name h]
  · exact ⟨p.pieces, .inl rfl, by simp [pieces_of_name h]⟩

end Path

end ApiBook
