import ApiBook.Proofs.Text.Spans
import ApiBook.Proofs.Text.Substitute
import Mathlib.Data.List.Forall2

/-! # Two spellings of a line end

A line may end with a line feed or with a carriage return and a line feed. A reader that asks for
neither character recognises the same in both spellings of a text, and so does every reader put
together from such readers.
-/

namespace ApiBook.Text

variable {α β : Type} {a c : Char} {p s t : Text}

/-- The text with a carriage return in front of every line feed. -/
def crlf (s : Text) : Text := s.flatMap fun c => if c = '\n' then ['\r', '\n'] else [c]

/-- The second text is the first with a carriage return in front of some of its line feeds, and
holds no other. -/
inductive SameLines : Text → Text → Prop
  | nil : SameLines [] []
  | char {c : Char} {s t : Text} : c ≠ '\r' → SameLines s t → SameLines (c :: s) (c :: t)
  | lineEnd {s t : Text} : SameLines s t → SameLines ('\n' :: s) ('\r' :: '\n' :: t)

def Inline (s : Text) : Prop := '\r' ∉ s ∧ '\n' ∉ s

instance (s : Text) : Decidable (Inline s) := inferInstanceAs (Decidable (_ ∧ _))

theorem Inline.of_cons (h : Inline (c :: s)) : Inline s :=
  ⟨List.not_mem_of_not_mem_cons h.1, List.not_mem_of_not_mem_cons h.2⟩

theorem Inline.append (hp : Inline p) (hs : Inline s) : Inline (p ++ s) :=
  ⟨fun h => (List.mem_append.1 h).elim hp.1 hs.1, fun h => (List.mem_append.1 h).elim hp.2 hs.2⟩

theorem sameLines_crlf (h : '\r' ∉ s) : SameLines s (crlf s) := by
  induction s with
  | nil => exact .nil
  | cons c s ih =>
    have ih := ih (List.not_mem_of_not_mem_cons h)
    rw [crlf, List.flatMap_cons]
    split
    · rename_i hc
      rw [hc]
      exact .lineEnd ih
    · exact .char (List.ne_of_not_mem_cons h).symm ih

namespace SameLines

theorem refl (h : '\r' ∉ s) : SameLines s s := by
  induction s with
  | nil => exact .nil
  | cons c s ih =>
    exact .char (List.ne_of_not_mem_cons h).symm (ih (List.not_mem_of_not_mem_cons h))

theorem append {s' t' : Text} (h : SameLines s t) (h' : SameLines s' t') :
    SameLines (s ++ s') (t ++ t') := by
  induction h with
  | nil => exact h'
  | char hc _ ih => exact .char hc ih
  | lineEnd _ ih => exact .lineEnd ih

theorem eq_or_exists (h : SameLines s t) : (s = t ∧ '\r' ∉ t) ∨ ∃ x s' t', SameLines s' t' ∧
    '\r' ∉ x ∧ s = x ++ '\n' :: s' ∧ t = x ++ '\r' :: '\n' :: t' := by
  induction h with
  | nil => exact .inl ⟨rfl, List.not_mem_nil⟩
  | @char c _ _ hc _ ih =>
    rcases ih with ⟨rfl, ht⟩ | ⟨x, s', t', h, hx, rfl, rfl⟩
    · exact .inl ⟨rfl, List.not_mem_cons_of_ne_of_not_mem hc.symm ht⟩
    · exact .inr ⟨c :: x, s', t', h, List.not_mem_cons_of_ne_of_not_mem hc.symm hx, rfl, rfl⟩
  | lineEnd h _ => exact .inr ⟨[], _, _, h, List.not_mem_nil, rfl, rfl⟩

theorem eq_of_notMem (h : SameLines s t) (ht : '\r' ∉ t) : s = t := by
  rcases h.eq_or_exists with ⟨h, -⟩ | ⟨x, s', t', -, -, -, rfl⟩
  · exact h
  · exact absurd (List.mem_append_right x List.mem_cons_self) ht

theorem getLast?_eq (h : SameLines s t) : s.getLast? = t.getLast? := by
  induction h with
  | nil => rfl
  | char _ _ ih => rw [List.getLast?_cons, List.getLast?_cons, ih]
  | lineEnd _ ih => rw [List.getLast?_cons, List.getLast?_cons_cons, List.getLast?_cons, ih]

theorem dropLast (h : SameLines s t) (hl : s.getLast? ≠ some '\n') :
    SameLines s.dropLast t.dropLast := by
  induction h with
  | nil => exact .nil
  | @char c s t hc h ih =>
    cases h with
    | nil => exact .nil
    | char hd h => exact .char hc (ih (by rwa [List.getLast?_cons_cons] at hl))
    | lineEnd h => exact .char hc (ih (by rwa [List.getLast?_cons_cons] at hl))
  | lineEnd h ih =>
    cases h with
    | nil => exact absurd rfl hl
    | char hd h => exact .lineEnd (ih (by rwa [List.getLast?_cons_cons] at hl))
    | lineEnd h => exact .lineEnd (ih (by rwa [List.getLast?_cons_cons] at hl))

section Spans

variable {q : Char → Bool}

theorem dropWhile (h : SameLines s t) (hq : q '\r' = q '\n') :
    SameLines (s.dropWhile q) (t.dropWhile q) := by
  induction h with
  | nil => exact .nil
  | @char c s t hc h ih =>
    rw [List.dropWhile_cons, List.dropWhile_cons]
    split
    · exact ih
    · exact .char hc h
  | lineEnd h ih =>
    rw [List.dropWhile_cons, List.dropWhile_cons, List.dropWhile_cons, hq]
    split
    · exact ih
    · exact .lineEnd h

theorem takeWhile (h : SameLines s t) (hq : q '\r' = q '\n') :
    SameLines (s.takeWhile q) (t.takeWhile q) := by
  induction h with
  | nil => exact .nil
  | @char c s t hc h ih =>
    rw [List.takeWhile_cons, List.takeWhile_cons]
    split
    · exact .char hc ih
    · exact .nil
  | lineEnd h ih =>
    rw [List.takeWhile_cons, List.takeWhile_cons, List.takeWhile_cons, hq]
    split
    · exact .lineEnd ih
    · exact .nil

theorem takeWhile_eq (h : SameLines s t) (hr : q '\r' = false) (hn : q '\n' = false) :
    s.takeWhile q = t.takeWhile q := by
  induction h with
  | nil => rfl
  | char _ _ ih => rw [List.takeWhile_cons, List.takeWhile_cons, ih]
  | lineEnd _ _ => simp only [List.takeWhile_cons, hr, hn, Bool.false_eq_true, if_false]

end Spans

end SameLines

/-- Readers of the two spellings of a text recognise the same, related by `R`, and leave the two
spellings of a text. -/
def SameReading (R : α → β → Prop) : Option (α × Text) → Option (β × Text) → Prop :=
  Option.Rel fun x y => R x.1 y.1 ∧ SameLines x.2 y.2

section Options

variable {γ δ : Type} {R : α → β → Prop} {S : γ → δ → Prop} {x : Option α} {y : Option β}

theorem rel_bind {f : α → Option γ} {g : β → Option δ} (h : Option.Rel R x y)
    (hfg : ∀ a b, R a b → Option.Rel S (f a) (g b)) : Option.Rel S (x.bind f) (y.bind g) := by
  cases h with
  | none => exact .none
  | some h => exact hfg _ _ h

theorem rel_or {y' : Option β} {x' : Option α} (h : Option.Rel R x y) (h' : Option.Rel R x' y') :
    Option.Rel R (x.or x') (y.or y') := by
  cases h with
  | none => exact h'
  | some h => exact .some h

theorem rel_map {f : α → γ} {g : β → δ} (h : Option.Rel R x y)
    (hfg : ∀ a b, R a b → S (f a) (g b)) : Option.Rel S (x.map f) (y.map g) := by
  cases h with
  | none => exact .none
  | some h => exact .some (hfg _ _ h)

end Options

namespace SameLines

theorem after? (h : SameLines s t) (hp : Inline p) :
    Option.Rel SameLines (after? p s) (after? p t) := by
  induction p generalizing s t with
  | nil => exact .some h
  | cons d p ih =>
    have hr := List.ne_of_not_mem_cons hp.1
    have hn := List.ne_of_not_mem_cons hp.2
    cases h with
    | nil => exact .none
    | char hc h =>
      rw [Text.after?, Text.after?]
      split
      · exact ih h hp.of_cons
      · exact .none
    | lineEnd h =>
      rw [after?_cons_of_ne hn, after?_cons_of_ne hr]
      exact .none

theorem getD_after? (h : SameLines s t) (hp : Inline p) :
    SameLines ((Text.after? p s).getD s) ((Text.after? p t).getD t) := by
  have hr := h.after? hp
  generalize Text.after? p s = x, Text.after? p t = y at hr ⊢
  cases hr with
  | none => exact h
  | some hr => exact hr

theorem cut? (h : SameLines s t) (hr : c ≠ '\r') (hn : c ≠ '\n') :
    SameReading SameLines (cut? c s) (cut? c t) := by
  have hq : ('\r' != c) = ('\n' != c) := by
    rw [bne_iff_ne.2 hr.symm, bne_iff_ne.2 hn.symm]
  have hd := h.dropWhile (q := (· != c)) hq
  have ht := h.takeWhile (q := (· != c)) hq
  unfold Text.cut?
  generalize hs' : s.dropWhile (· != c) = s', t.dropWhile (· != c) = t' at hd ⊢
  cases hd with
  | nil => exact .none
  | char _ hd => exact .some ⟨ht, hd⟩
  | lineEnd hd =>
    have hc := List.head?_dropWhile_not (· != c) s
    rw [hs'] at hc
    exact absurd (by simpa using hc) hn.symm

theorem cutLast? (h : SameLines s t) (hr : c ≠ '\r') (hn : c ≠ '\n') :
    SameReading SameLines (cutLast? c s) (cutLast? c t) := by
  induction h with
  | nil => exact .none
  | @char d s t hd h ih =>
    rw [Text.cutLast?, Text.cutLast?]
    cases hs : Text.cutLast? c s <;> cases ht : Text.cutLast? c t <;> rw [hs, ht] at ih <;>
      cases ih
    · dsimp only
      split
      · exact .some ⟨.nil, h⟩
      · exact .none
    · rename_i h
      exact .some ⟨.char hd h.1, h.2⟩
  | @lineEnd s t h ih =>
    rw [Text.cutLast?, Text.cutLast?, Text.cutLast?]
    cases hs : Text.cutLast? c s <;> cases ht : Text.cutLast? c t <;> rw [hs, ht] at ih <;>
      cases ih
    · simp only [if_neg hn.symm, if_neg hr.symm]
      exact .none
    · rename_i h
      exact .some ⟨.lineEnd h.1, h.2⟩

end SameLines

/-- What a reader leaves is shorter than what it was given. -/
def Shortens (step : Text → Option (α × Text)) : Prop :=
  ∀ s p, step s = some p → p.2.length < s.length

theorem Shortens.length_le {step : Text → Option (α × Text)} (h : Shortens step) {b : α}
    {cs rest : Text} (hs : step (c :: cs) = some (b, rest)) : rest.length ≤ cs.length :=
  Nat.le_of_lt_succ (h _ _ hs)

namespace SameLines

section Lockstep

variable {R : α → α → Prop} {step : Text → Option (α × Text)}

/-- A reader that waits for one character goes through both spellings in step: it passes the same
characters, passes the same line ends, and recognises the same in front of the same rests. -/
theorem lockstep {motive : Text → Text → Prop}
    (hstep : ∀ s t, SameLines s t → SameReading R (step s) (step t))
    (hlen : Shortens step) (ha : OnlyAt a step) (hin : Inline [a]) (nil : motive [] [])
    (pass : ∀ c s t, c ≠ '\r' → step (c :: s) = none → step (c :: t) = none → motive s t →
      motive (c :: s) (c :: t))
    (lineEnd : ∀ s t, (∀ cs, step ('\n' :: cs) = none) → (∀ cs, step ('\r' :: cs) = none) →
      motive s t → motive ('\n' :: s) ('\r' :: '\n' :: t))
    (read : ∀ c s t x y s' t', R x y → step (c :: s) = some (x, s') →
      step (c :: t) = some (y, t') → s'.length ≤ s.length → t'.length ≤ t.length → motive s' t' →
      motive (c :: s) (c :: t))
    (h : SameLines s t) : motive s t := by
  induction hk : s.length using Nat.strongRecOn generalizing s t with
  | ind k ih =>
    cases h with
    | nil => exact nil
    | @char c s t hc h =>
      have hread := hstep _ _ (.char hc h)
      cases hs : step (c :: s) <;> cases ht : step (c :: t) <;> rw [hs, ht] at hread <;>
        cases hread
      · exact pass c s t hc hs ht (ih s.length (by simp [← hk]) h rfl)
      · rename_i h
        exact read c s t _ _ _ _ h.1 hs ht (hlen.length_le hs) (hlen.length_le ht)
          (ih _ (hk ▸ hlen _ _ hs) h.2 rfl)
    | @lineEnd s t h =>
      have hn := List.ne_of_not_mem_cons hin.2
      have hr := List.ne_of_not_mem_cons hin.1
      exact lineEnd s t (fun cs => ha _ _ hn) (fun cs => ha _ _ hr)
        (ih s.length (by simp [← hk]) h rfl)

theorem collect (hstep : ∀ s t, SameLines s t → SameReading R (step s) (step t))
    (hlen : Shortens step) (ha : OnlyAt a step) (hin : Inline [a]) (h : SameLines s t) :
    List.Forall₂ R (collect step s) (collect step t) := by
  refine lockstep (motive := fun s t => List.Forall₂ R (Text.collect step s) (Text.collect step t))
    hstep hlen ha hin ?nil ?pass ?lineEnd ?read h
  case nil =>
    rw [collect_nil]
    exact .nil
  case pass =>
    intro c s t _ hs ht ih
    rw [collect_of_none hs, collect_of_none ht]
    exact ih
  case lineEnd =>
    intro s t hn hr ih
    rw [collect_of_none (hn s), collect_of_none (hr _), collect_of_none (hn t)]
    exact ih
  case read =>
    intro c s t x y s' t' hxy hs ht hls hlt ih
    rw [collect_of_some hs hls, collect_of_some ht hlt]
    exact .cons hxy ih

end Lockstep

/-- Replacing leaves the line ends that are not part of a match, each in its spelling. -/
theorem substitute {step : Text → Option (Text × Text)}
    (hstep : ∀ s t, SameLines s t → SameReading SameLines (step s) (step t))
    (hlen : Shortens step) (ha : OnlyAt a step) (hin : Inline [a]) (h : SameLines s t) :
    SameLines (substitute step s) (substitute step t) := by
  refine lockstep (motive := fun s t => SameLines (Text.substitute step s) (Text.substitute step t))
    hstep hlen ha hin ?nil ?pass ?lineEnd ?read h
  case nil =>
    rw [substitute_nil]
    exact .nil
  case pass =>
    intro c s t hc hs ht ih
    rw [substitute_of_none hs, substitute_of_none ht]
    exact .char hc ih
  case lineEnd =>
    intro s t hn hr ih
    rw [substitute_of_none (hn s), substitute_of_none (hr _), substitute_of_none (hn t)]
    exact .lineEnd ih
  case read =>
    intro c s t x y s' t' hxy hs ht hls hlt ih
    rw [substitute_of_some hs hls, substitute_of_some ht hlt]
    exact hxy.append ih

end SameLines

end ApiBook.Text
