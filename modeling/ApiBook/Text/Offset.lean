import ApiBook.Text.Basic

/-! # Offsets

Places in a text are counted in the bytes of its characters in UTF-8. An offset stands between two
characters or at either end of the text; no text can be cut at any other number.
-/

namespace ApiBook.Text

/-- The number of bytes of a text in UTF-8. -/
def size : Text → Nat
  | [] => 0
  | c :: cs => c.utf8Size + size cs

/-- The texts before and behind an offset. -/
def splitAt? : Nat → Text → Option (Text × Text)
  | 0, s => some ([], s)
  | _ + 1, [] => none
  | i + 1, c :: cs =>
    if c.utf8Size ≤ i + 1 then
      (splitAt? (i + 1 - c.utf8Size) cs).map fun (a, b) => (c :: a, b)
    else none

def slice? (i j : Nat) (s : Text) : Option Text := do
  let (a, _) ← splitAt? j s
  let (_, m) ← splitAt? i a
  return m

def offset? (p s : Text) : Option Nat := (around? p s).map fun x => size x.1

/-- The offsets at which `p` starts in a text that itself starts at `i`: from the left, none before
`next`, and none inside of the last `p`. -/
def offsetsFrom (p : Text) (i next : Nat) : Text → List Nat
  | [] => []
  | c :: cs =>
    if next ≤ i ∧ p <+: c :: cs then
      i :: offsetsFrom p (i + c.utf8Size) (i + size p) cs
    else offsetsFrom p (i + c.utf8Size) next cs

def offsets (p s : Text) : List Nat := offsetsFrom p 0 0 s

variable {i j : Nat} {a b m p s t : Text}

@[simp] theorem size_nil : size [] = 0 := rfl

@[simp] theorem size_cons (c : Char) (s : Text) : size (c :: s) = c.utf8Size + size s := rfl

@[simp] theorem size_append (s t : Text) : size (s ++ t) = size s + size t := by
  induction s with
  | nil => simp
  | cons c s ih => simp [ih, Nat.add_assoc]

theorem size_pos (h : s ≠ []) : 0 < size s := by
  cases s with
  | nil => exact absurd rfl h
  | cons c s =>
    have := c.utf8Size_pos
    rw [size_cons]
    omega

@[simp] theorem splitAt?_eq_some_iff : splitAt? i s = some (a, b) ↔ s = a ++ b ∧ size a = i := by
  induction s generalizing i a with
  | nil =>
    cases i with
    | zero => cases a <;> simp [splitAt?, eq_comm]
    | succ i => cases a <;> simp [splitAt?]
  | cons c s ih =>
    have hc := c.utf8Size_pos
    cases i with
    | zero =>
      cases a with
      | nil => simp [splitAt?, eq_comm]
      | cons d a =>
        have hd := d.utf8Size_pos
        simp [splitAt?]
        omega
    | succ i =>
      rw [splitAt?]
      constructor
      · intro h
        split at h
        · simp only [Option.map_eq_some_iff, Prod.mk.injEq] at h
          obtain ⟨⟨a, b⟩, h, rfl, rfl⟩ := h
          obtain ⟨rfl, hsize⟩ := ih.1 h
          refine ⟨rfl, ?_⟩
          simp only [size_cons]
          omega
        · cases h
      · rintro ⟨happ, hsize⟩
        cases a with
        | nil => simp at hsize
        | cons d a =>
          obtain ⟨rfl, rfl⟩ := List.cons.inj happ
          rw [size_cons] at hsize
          have h := ih.2 ⟨rfl, (by omega : size a = i + 1 - c.utf8Size)⟩
          rw [if_pos (by omega), h, Option.map_some]

@[simp] theorem slice?_eq_some_iff :
    slice? i j s = some m ↔ ∃ a b, s = a ++ m ++ b ∧ size a = i ∧ size (a ++ m) = j := by
  simp only [slice?, Option.bind_eq_bind, Option.bind_eq_some_iff, Prod.exists,
    splitAt?_eq_some_iff, Option.pure_def, Option.some.injEq]
  constructor
  · rintro ⟨_, b, ⟨rfl, rfl⟩, a, m, ⟨rfl, rfl⟩, rfl⟩
    exact ⟨a, b, rfl, rfl, rfl⟩
  · rintro ⟨a, b, rfl, rfl, rfl⟩
    exact ⟨a ++ m, b, ⟨rfl, rfl⟩, a, m, ⟨rfl, rfl⟩, rfl⟩

theorem slice?_append (a m b : Text) :
    slice? (size a) (size (a ++ m)) (a ++ m ++ b) = some m :=
  slice?_eq_some_iff.2 ⟨a, b, rfl, rfl, rfl⟩

end ApiBook.Text
