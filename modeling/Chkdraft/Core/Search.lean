import Mathlib.Data.List.Basic

/-!
# Searches with a list of pending nodes

A search takes a pending node, and if the node is admitted and new it is found
and its neighbours become pending, unless they were seen before.  What is found
in the end are the nodes connected to the origin through admitted nodes, in
whatever order the pending nodes are taken.
-/

namespace Search

variable {N : Type*} (neighbors : N → List N) (admits : N → Prop) (origin : N)

/-- The admitted nodes on a way from the origin that leaves no admitted node. -/
inductive Connected : N → Prop
  | origin (hadmits : admits origin) : Connected origin
  | step {node other : N} (hnode : Connected node)
      (hother : other ∈ neighbors node) (hadmits : admits other) :
      Connected other

/-- The nodes pending, seen and found at some point of a search. -/
structure Explores (pending seen found : List N) : Prop where
  sound : ∀ node ∈ found, Connected neighbors admits origin node
  pending_sound : ∀ node ∈ pending, node = origin ∨ ∃ other ∈ found, node ∈ neighbors other
  seen_found : ∀ node ∈ seen, admits node → node ∈ found
  origin_covered : origin ∈ pending ∨ origin ∈ seen
  covered : ∀ node ∈ found, ∀ other ∈ neighbors node, other ∈ pending ∨ other ∈ seen

variable {neighbors admits origin} {node : N} {pending seen found : List N}

theorem explores_start : Explores neighbors admits origin [origin] [] [] where
  sound _ hnode := nomatch hnode
  pending_sound _ hnode := .inl (List.mem_singleton.mp hnode)
  seen_found _ hnode := nomatch hnode
  origin_covered := .inl (List.mem_singleton.mpr rfl)
  covered _ hnode := nomatch hnode

/-- What was pending is seen or still pending behind a step. -/
theorem pending_or_seen {other : N} (hother : other ∈ node :: pending ∨ other ∈ seen) :
    other ∈ pending ∨ other ∈ node :: seen := by
  rcases hother with hpending | hseen
  · rcases List.mem_cons.mp hpending with rfl | hpending
    · exact .inr List.mem_cons_self
    · exact .inl hpending
  · exact .inr (List.mem_cons_of_mem node hseen)

section Steps

variable (hexplores : Explores neighbors admits origin (node :: pending) seen found)
include hexplores

theorem Explores.connected (hadmits : admits node) : Connected neighbors admits origin node := by
  rcases hexplores.pending_sound node List.mem_cons_self with
    rfl | ⟨other, hother, hnode⟩
  · exact .origin hadmits
  · exact .step (hexplores.sound other hother) hnode hadmits

theorem Explores.skip (hskip : admits node → node ∈ found) :
    Explores neighbors admits origin pending (node :: seen) found where
  sound := hexplores.sound
  pending_sound other hother := hexplores.pending_sound other (List.mem_cons_of_mem node hother)
  seen_found other hother := by
    rcases List.mem_cons.mp hother with rfl | hother
    · exact hskip
    · exact hexplores.seen_found other hother
  origin_covered := pending_or_seen hexplores.origin_covered
  covered other hother following hfollowing :=
    pending_or_seen (hexplores.covered other hother following hfollowing)

/-- A node that is found; only neighbours that were seen need not be
pending. -/
theorem Explores.find {pushed : List N} (hadmits : admits node)
    (hpushed : ∀ other, other ∈ pushed ↔ other ∈ neighbors node ∧ other ∉ node :: seen) :
    Explores neighbors admits origin (pushed ++ pending) (node :: seen) (node :: found) where
  sound other hother := by
    rcases List.mem_cons.mp hother with rfl | hother
    · exact hexplores.connected hadmits
    · exact hexplores.sound other hother
  pending_sound other hother := by
    rcases List.mem_append.mp hother with hother | hother
    · exact .inr ⟨node, List.mem_cons_self, ((hpushed other).mp hother).1⟩
    · rcases hexplores.pending_sound other (List.mem_cons_of_mem node hother)
        with horigin | ⟨before, hbefore, hnext⟩
      · exact .inl horigin
      · exact .inr ⟨before, List.mem_cons_of_mem node hbefore, hnext⟩
  seen_found other hother hadmitted := by
    rcases List.mem_cons.mp hother with rfl | hother
    · exact List.mem_cons_self
    · exact List.mem_cons_of_mem node (hexplores.seen_found other hother hadmitted)
  origin_covered := by
    rcases pending_or_seen hexplores.origin_covered with hpending | hseen
    · exact .inl (List.mem_append_right pushed hpending)
    · exact .inr hseen
  covered other hother following hfollowing := by
    rcases List.mem_cons.mp hother with rfl | hother
    · by_cases hseen : following ∈ other :: seen
      · exact .inr hseen
      · exact .inl (List.mem_append_left pending ((hpushed following).mpr ⟨hfollowing, hseen⟩))
    · rcases pending_or_seen (hexplores.covered other hother following
        hfollowing) with hpending | hseen
      · exact .inl (List.mem_append_right pushed hpending)
      · exact .inr hseen

end Steps

/-- A search with nothing pending has found everything connected. -/
theorem Explores.found_iff (hexplores : Explores neighbors admits origin [] seen found) :
    node ∈ found ↔ Connected neighbors admits origin node := by
  constructor
  · exact hexplores.sound node
  · intro hconnected
    induction hconnected with
    | origin hadmits =>
        rcases hexplores.origin_covered with hpending | hseen
        · cases hpending
        · exact hexplores.seen_found origin hseen hadmits
    | step hnode hother hadmits ih =>
        rcases hexplores.covered _ ih _ hother with hpending | hseen
        · cases hpending
        · exact hexplores.seen_found _ hseen hadmits

end Search
