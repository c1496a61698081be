import ApiBook.Proofs.Text.Sorting
import ApiBook.Proofs.Xml.Document

/-! # Round trip of documentation files

Reading what was printed gives the printed records with normalized texts, sorted by target. Records
of one target stay in the order in which they were printed.
-/

namespace ApiBook.Xml

variable {es : List Entry}

/-- The records of `l` in the order of their targets; those of one target keep their order. -/
structure StablySorted (l l' : List Record) : Prop where
  perm : l'.Perm l
  sorted : l'.Pairwise fun a b => ¬ b.target < a.target
  stable : ∀ t, l'.filter (·.target = t) = l.filter (·.target = t)

theorem stablySorted_mergeSort (l : List Record) :
    StablySorted l (l.mergeSort fun a b => Text.le a.target b.target) := by
  have htrans : ∀ a b c : Record, Text.le a.target b.target → Text.le b.target c.target →
      Text.le a.target c.target := fun _ _ _ => Text.le_trans
  have htotal : ∀ a b : Record, Text.le a.target b.target || Text.le b.target a.target :=
    fun a b => Text.le_total a.target b.target
  refine ⟨List.mergeSort_perm l _, ?_, fun t => filter_mergeSort htrans htotal ?_ l⟩
  · exact (List.pairwise_mergeSort htrans htotal l).imp fun h => Text.le_iff.1 h
  · intro a b ha hb
    rw [of_decide_eq_true ha, of_decide_eq_true hb]
    exact Text.le_iff.2 (List.not_lt.2 (List.le_refl t))

end ApiBook.Xml
