/-! # Computations that can fail

A computation that has come to a result is taken apart into its steps, and a search in a list into
what it found.
-/

namespace ApiBook

variable {ε α β : Type}

@[simp] theorem ok_bind (a : α) (f : α → Except ε β) : (.ok a >>= f : Except ε β) = f a := rfl

theorem bind_eq_ok_iff {x : Except ε α} {f : α → Except ε β} {b : β} :
    x >>= f = .ok b ↔ ∃ a, x = .ok a ∧ f a = .ok b := by
  cases x with
  | error e => exact ⟨nofun, nofun⟩
  | ok a => exact ⟨fun h => ⟨a, rfl, h⟩, fun ⟨_, ha, h⟩ => Except.ok.inj ha ▸ h⟩

theorem mem_of_findM? {p : α → Except ε Bool} {x : α} {xs : List α}
    (h : xs.findM? p = .ok (some x)) : x ∈ xs := by
  induction xs with
  | nil => exact nomatch h
  | cons y ys ih =>
    rw [List.findM?] at h
    obtain ⟨b, -, h⟩ := bind_eq_ok_iff.1 h
    cases b with
    | true =>
      obtain rfl : y = x := Option.some.inj (Except.ok.inj h)
      exact List.mem_cons_self
    | false => exact List.mem_cons_of_mem y (ih h)

/-- A search in which no test fails is one with tests that cannot fail. -/
theorem findM?_eq_ok {p : α → Except ε Bool} {f : α → Bool} {xs : List α}
    (h : ∀ x ∈ xs, p x = .ok (f x)) : xs.findM? p = .ok (xs.find? f) := by
  induction xs with
  | nil => rfl
  | cons x xs ih =>
    obtain ⟨hx, hxs⟩ := List.forall_mem_cons.1 h
    rw [List.findM?, List.find?, hx, ok_bind]
    cases f x with
    | true => rfl
    | false => exact ih hxs

end ApiBook
