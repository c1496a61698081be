import ApiBook.Proofs.Library.Lookup

/-! # Growth of libraries

A library grows in steps: records are added, or a script document is merged into a type. A script
document for a type that is not documented leaves the library as it is.
-/

namespace ApiBook.Library

inductive Step where
  | add (records : List Record)
  | merge (fullName : Text) (script : Script.Document)
  deriving DecidableEq, Repr

def apply (l : Library) : Step → Library
  | .add rs => l.addAll rs
  | .merge n s => ((l.merge? n s).map Prod.fst).getD l

def after (l : Library) (steps : List Step) : Library := steps.foldl apply l

variable {P : Library → Prop} {l : Library}

theorem addAll_induction (hadd : ∀ l r, P l → P (l.add r)) {rs : List Record} (h : P l) :
    P (l.addAll rs) := by
  induction rs generalizing l with
  | nil => exact h
  | cons r rs ih => exact ih (hadd l r h)

theorem apply_induction (hadd : ∀ l r, P l → P (l.add r))
    (hmerge : ∀ l n s l' o, l.merge? n s = some (l', o) → P l → P l') {step : Step} (h : P l) :
    P (l.apply step) := by
  cases step with
  | add rs => exact addAll_induction hadd h
  | merge n s =>
    rw [apply]
    cases hm : l.merge? n s with
    | none => exact h
    | some p => exact hmerge l n s p.1 p.2 hm h

theorem after_induction (hadd : ∀ l r, P l → P (l.add r))
    (hmerge : ∀ l n s l' o, l.merge? n s = some (l', o) → P l → P l') {steps : List Step}
    (h : P l) : P (l.after steps) := by
  induction steps generalizing l with
  | nil => exact h
  | cons step steps ih => exact ih (apply_induction hadd hmerge h)

end ApiBook.Library
