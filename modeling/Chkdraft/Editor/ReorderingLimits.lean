import Chkdraft.Editor.Reordering

/-!
# When reordering keeps the selection

Each command gives the order it asks for exactly if no index is cut off and the
last unit is not moved down.  Where it does not, some selected unit has a place
in the order that is not selected, or an index behind the last unit is.
-/

namespace Chkdraft.Editor

open Chk Scenario Sections Undo Selection

section Converse

variable {units : List Chk.Unit} {selUnits after : Selection}
  {order : List ℕ} {numUnits unitMoveTo index place : ℕ}

/-- The place a selected unit has in the order is selected behind the
command. -/
theorem Follows.mem (hfollows : Follows order selUnits after)
    (hnodup : order.Nodup) (hindex : index ∈ indices selUnits)
    (hplace : order[place]? = some index) : place ∈ indices after := by
  obtain ⟨selected, hselected, hsame⟩ := List.mem_map.mp
    (hfollows.mem_iff.mpr (List.mem_map_of_mem hindex))
  obtain ⟨hlt, -⟩ := List.getElem?_eq_some_iff.mp hplace
  have hsamePlace : place = selected := (List.getElem?_inj hlt hnodup).mp (hplace.trans hsame.symm)
  rwa [hsamePlace]

end Converse

end Chkdraft.Editor
