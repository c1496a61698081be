import ApiBook.Proofs.Model.Join
import ApiBook.Script.Document

/-! # Names in script documents

The members that a script documents have distinct names, and a new one comes behind all others.
-/

namespace ApiBook.Script.Document

variable {s : Document} {m : Member} {ms : List Member}

theorem put_names (m : Member) (ms : List Member) : (put m ms).map (·.name) =
    if m.name ∈ ms.map (·.name) then ms.map (·.name) else ms.map (·.name) ++ [m.name] := by
  induction ms with
  | nil => simp [put]
  | cons x xs ih =>
    by_cases hx : x.name = m.name
    · simp [put, hx]
    · simp only [put, hx, if_false, List.map_cons, ih, List.mem_cons, Ne.symm hx, false_or]
      split <;> rfl

theorem put_nodup (h : (ms.map (·.name)).Nodup) : ((put m ms).map (·.name)).Nodup := by
  rw [put_names]
  exact nodup_concat_of_new h

theorem put_eq_append (h : m.name ∉ ms.map (·.name)) : put m ms = ms ++ [m] := by
  induction ms with
  | nil => rfl
  | cons x xs ih =>
    rw [List.map_cons, List.mem_cons, not_or] at h
    rw [put, if_neg (Ne.symm h.1), ih h.2, List.cons_append]

theorem add_nodup (h : (s.members.map (·.name)).Nodup) (a : Note) :
    ((s.add a).members.map (·.name)).Nodup := by
  match a with
  | .summary _ => exact h
  | .unrecognized _ => exact h
  | .declared ⟨_, _, .wholeClass⟩ => exact h
  | .declared ⟨_, _, .member _ _⟩ => exact put_nodup h

theorem addAll_nodup (h : (s.members.map (·.name)).Nodup) (as : List Note) :
    ((s.addAll as).members.map (·.name)).Nodup := by
  induction as generalizing s with
  | nil => exact h
  | cons a as ih => exact ih (add_nodup h a)

theorem ofLines_nodup (lines : List Text) : ((ofLines lines).members.map (·.name)).Nodup := by
  have hfold : ∀ (bs : List Block) (s : Document), (s.members.map (·.name)).Nodup →
      ((bs.foldl (fun s b => s.addBlock b.lines) s).members.map (·.name)).Nodup := by
    intro bs
    induction bs with
    | nil => exact fun _ h => h
    | cons b bs ih => exact fun s h => ih _ (addAll_nodup h _)
  exact hfold _ {} List.nodup_nil

end ApiBook.Script.Document
