import Mathlib.Data.List.Nodup
import ApiBook.Settings

/-! # Names in settings

Different simple names have different full names, so each full name has at most one script.
-/

namespace ApiBook.Settings

variable {s : Settings}

@[simp] theorem fullName_inj {name name' : Text} :
    s.fullName name = s.fullName name' ↔ name = name' := by
  unfold fullName
  split
  · exact Iff.rfl
  · exact List.append_right_inj _

theorem nodup_scripts (s : Settings) : (s.scripts.map Prod.fst).Nodup := by
  refine List.pairwise_map.2 (s.sorted.imp fun {e e'} hlt he => ?_)
  exact List.lt_irrefl e.1 (he ▸ hlt)

theorem nodup_fullNames (s : Settings) :
    (s.scriptPaths.map fun e => s.fullName e.1).Nodup := by
  have h : s.scriptPaths.map (fun e => s.fullName e.1) =
      (s.scripts.map Prod.fst).map s.fullName := by
    rw [scriptPaths, List.map_map, List.map_map]
    rfl
  rw [h]
  exact s.nodup_scripts.map fun _ _ => fullName_inj.1

end ApiBook.Settings
