import ApiBook.Text.Basic

/-! # Readers that wait for one character

A reader that recognises something only in front of one character passes over all texts without
it, whether it replaces or collects.
-/

namespace ApiBook.Text

variable {α : Type} {a c : Char} {s x cs rest out : Text}

section Steps

variable {step : Text → Option (Text × Text)}

@[simp] theorem substitute_nil (step : Text → Option (Text × Text)) : substitute step [] = [] := by
  rw [substitute]

theorem substitute_of_none (h : step (c :: cs) = none) :
    substitute step (c :: cs) = c :: substitute step cs := by
  rw [substitute, h]

theorem substitute_of_some (h : step (c :: cs) = some (out, rest))
    (hl : rest.length ≤ cs.length) : substitute step (c :: cs) = out ++ substitute step rest := by
  rw [substitute, h]
  exact if_pos hl

/-- Replacing on both sides of a character: no match may hold it. -/
theorem substitute_append_cons (hnil : step [] = none)
    (h : ∀ s, step (s ++ c :: cs) = (step s).map fun p => (p.1, p.2 ++ c :: cs)) (s : Text) :
    substitute step (s ++ c :: cs) = substitute step s ++ c :: substitute step cs := by
  have hc : step (c :: cs) = none := by simpa [hnil] using h []
  fun_induction substitute step s with
  | case1 => exact substitute_of_none hc
  | case2 d ds hd ih =>
    rw [List.cons_append, substitute_of_none (by rw [← List.cons_append, h, hd]; rfl), ih]
    rfl
  | case3 d ds out rest hd hl ih =>
    have hs : step (d :: (ds ++ c :: cs)) = some (out, rest ++ c :: cs) := by
      rw [← List.cons_append, h, hd]
      rfl
    rw [List.cons_append, substitute_of_some hs (by simp [hl]), ih, List.append_assoc]
  | case4 d ds out rest hd hl ih =>
    have hs : step (d :: (ds ++ c :: cs)) = some (out, rest ++ c :: cs) := by
      rw [← List.cons_append, h, hd]
      rfl
    rw [List.cons_append, substitute, hs]
    refine (if_neg ?_).trans (congrArg (d :: ·) ih)
    simpa using hl

end Steps

section Collect

variable {step : Text → Option (α × Text)} {b : α}

@[simp] theorem collect_nil (step : Text → Option (α × Text)) : collect step [] = [] := by
  rw [collect]

theorem collect_of_none (h : step (c :: cs) = none) :
    collect step (c :: cs) = collect step cs := by
  rw [collect, h]

theorem collect_of_some (h : step (c :: cs) = some (b, rest)) (hl : rest.length ≤ cs.length) :
    collect step (c :: cs) = b :: collect step rest := by
  rw [collect, h]
  exact if_pos hl

theorem collect_map {β : Type} (f : α → β) (s : Text) :
    collect (fun t => (step t).map fun p => (f p.1, p.2)) s = (collect step s).map f := by
  fun_induction collect step s with
  | case1 => exact collect_nil _
  | case2 c cs h ih => rw [collect_of_none (by rw [h]; rfl), ih]
  | case3 c cs b rest h hl ih =>
    have hs : (step (c :: cs)).map (fun p => (f p.1, p.2)) = some (f b, rest) := by
      rw [h]
      rfl
    rw [collect_of_some hs hl, ih, List.map_cons]
  | case4 c cs b rest h hl ih =>
    rw [collect, h, Option.map_some]
    exact (if_neg hl).trans ih

end Collect

/-- A reader that recognises nothing in front of any character but `a`. -/
def OnlyAt (a : Char) (step : Text → Option α) : Prop :=
  ∀ c cs, c ≠ a → step (c :: cs) = none

namespace OnlyAt

theorem substitute_append {step : Text → Option (Text × Text)} (h : OnlyAt a step) (hx : a ∉ x) :
    substitute step (x ++ s) = x ++ substitute step s := by
  induction x with
  | nil => rfl
  | cons c x ih =>
    have hc : c ≠ a := (List.ne_of_not_mem_cons hx).symm
    rw [List.cons_append, substitute_of_none (h c _ hc), ih (List.not_mem_of_not_mem_cons hx),
      List.cons_append]

theorem substitute_cons_append {step : Text → Option (Text × Text)} (h : OnlyAt a step)
    (hc : step (c :: (x ++ s)) = none) (hx : a ∉ x) :
    substitute step (c :: x ++ s) = c :: x ++ substitute step s := by
  rw [List.cons_append, substitute_of_none hc, h.substitute_append hx, List.cons_append]

theorem substitute_eq_self {step : Text → Option (Text × Text)} (h : OnlyAt a step)
    (hx : a ∉ x) : substitute step x = x := by
  simpa using h.substitute_append (s := []) hx

end OnlyAt

section Prefixes

variable {p q : Text}

@[simp] theorem after?_append (p s : Text) : after? p (p ++ s) = some s :=
  after?_eq_some_iff.2 rfl

theorem after?_cons_of_ne (h : c ≠ a) : after? (a :: p) (c :: cs) = none := by
  rw [after?, if_neg (Ne.symm h)]

theorem after?_singleton_eq_none (h : ∀ r, s = a :: r → False) : after? [a] s = none := by
  cases s with
  | nil => rfl
  | cons c s => exact after?_cons_of_ne fun hc => h s (by rw [hc])

theorem after?_append_cons (h : a ∉ p) (s t : Text) :
    after? p (s ++ a :: t) = (after? p s).map (· ++ a :: t) := by
  induction p generalizing s with
  | nil => rfl
  | cons d p ih =>
    have hd : a ≠ d := List.ne_of_not_mem_cons h
    cases s with
    | nil => exact after?_cons_of_ne hd
    | cons c s =>
      rw [List.cons_append, after?, after?, ih (List.not_mem_of_not_mem_cons h)]
      split <;> rfl

theorem onlyAt_replace (a : Char) (p q : Text) :
    OnlyAt a fun t => (after? (a :: p) t).map fun r => (q, r) :=
  fun _ _ h => congrArg (Option.map _) (after?_cons_of_ne h)

theorem replace_append_cons (h : c ∉ a :: p) (s t : Text) :
    replace (a :: p) q (s ++ c :: t) = replace (a :: p) q s ++ c :: replace (a :: p) q t :=
  substitute_append_cons rfl (fun s => by
    rw [after?_append_cons h, Option.map_map, Option.map_map]
    rfl) s

theorem replace_append_of_notMem (h : a ∉ x) :
    replace (a :: p) q (x ++ s) = x ++ replace (a :: p) q s :=
  (onlyAt_replace a p q).substitute_append h

theorem replace_append (a : Char) (p q s : Text) :
    replace (a :: p) q (a :: p ++ s) = q ++ replace (a :: p) q s := by
  have h : (after? (a :: p) (a :: (p ++ s))).map (fun r => (q, r)) = some (q, s) := by
    rw [← List.cons_append, after?_append]
    rfl
  exact substitute_of_some h (by simp)

end Prefixes

end ApiBook.Text
