import Chkdraft.Editor.SelectionMoves

/-!
# Moves in a list

Each move takes an item out and inserts it at another index.  Moves that settle
put every item they move where they are told to, and keep the others in their
order.
-/

namespace Chkdraft.Editor

variable {A : Type}

theorem filter_insertIdx {kept : A → Bool} {item : A}
    (hitem : kept item = false) (items : List A) (index : ℕ) :
    (items.insertIdx index item).filter kept = items.filter kept := by
  induction items generalizing index with
  | nil =>
      cases index with
      | zero => simp [hitem]
      | succ index => rfl
  | cons first rest ih =>
      cases index with
      | zero => exact List.filter_cons_of_neg (by simp [hitem])
      | succ index =>
          rw [List.insertIdx_succ_cons, List.filter_cons, List.filter_cons, ih]

theorem filter_eraseIdx {kept : A → Bool} {items : List A} {index : ℕ}
    (hitem : ∀ item, items[index]? = some item → kept item = false) :
    (items.eraseIdx index).filter kept = items.filter kept := by
  induction items generalizing index with
  | nil => rfl
  | cons first rest ih =>
      cases index with
      | zero =>
          have hfirst := hitem first rfl
          exact (List.filter_cons_of_neg (by simp [hfirst])).symm
      | succ index =>
          rw [List.eraseIdx_cons_succ, List.filter_cons, List.filter_cons, ih hitem]

namespace Move

def Fits (move : Move) (count : ℕ) : Prop := move.oldIndex < count ∧ move.newIndex < count

/-- The item at the old index is inserted at the new one. -/
def apply (move : Move) (items : List A) : List A :=
  match items[move.oldIndex]? with
  | some item => (items.eraseIdx move.oldIndex).insertIdx move.newIndex item
  | none => items

variable {move : Move} {items : List A}

theorem apply_of_getElem? {item : A} (hitem : items[move.oldIndex]? = some item) :
    move.apply items = (items.eraseIdx move.oldIndex).insertIdx move.newIndex item := by
  rw [apply, hitem]

theorem newIndex_le (hfits : move.Fits items.length) :
    move.newIndex ≤ (items.eraseIdx move.oldIndex).length := by
  have hlength := List.length_eraseIdx_of_lt hfits.1
  have hnew := hfits.2
  omega

theorem perm_apply (hfits : move.Fits items.length) : (move.apply items).Perm items := by
  rw [apply_of_getElem? (List.getElem?_eq_getElem hfits.1)]
  exact (List.perm_insertIdx _ _ (newIndex_le hfits)).trans
    (List.getElem_cons_eraseIdx_perm hfits.1)

theorem length_apply (hfits : move.Fits items.length) : (move.apply items).length = items.length :=
  (perm_apply hfits).length_eq

theorem shifted_newIndex (move : Move) : move.shifted move.newIndex = move.oldIndex := if_pos rfl

/-- The move back sends an index where the move takes it from. -/
theorem shifted_back (move : Move) (index : ℕ) :
    move.shifted (move.back.shifted index) = index := by
  grind [shifted, back]

theorem shifted_of_eq (htrivial : move.oldIndex = move.newIndex)
    (index : ℕ) : move.shifted index = index := by
  unfold shifted
  split_ifs <;> omega

theorem getElem?_apply (hfits : move.Fits items.length) (index : ℕ) :
    (move.apply items)[index]? = items[move.shifted index]? := by
  have hnew := newIndex_le hfits
  obtain ⟨hold, -⟩ := hfits
  rw [apply_of_getElem? (List.getElem?_eq_getElem hold), List.getElem?_insertIdx,
    List.getElem?_eraseIdx, List.getElem?_eraseIdx, shifted]
  by_cases hsame : index = move.newIndex
  · rw [if_neg (by omega), if_pos hsame, if_pos (by omega), if_pos hsame,
      List.getElem?_eq_getElem hold]
  · rw [if_neg hsame, if_neg hsame]
    by_cases hlt : index < move.newIndex
    · rw [if_pos hlt]
      by_cases hbefore : index < move.oldIndex
      · rw [if_pos hbefore, if_neg (by omega), if_neg (by omega)]
      · rw [if_neg hbefore, if_pos ⟨hlt, by omega⟩]
    · rw [if_neg hlt]
      by_cases hbehind : index - 1 < move.oldIndex
      · rw [if_pos hbehind, if_neg (by omega), if_pos ⟨by omega, by omega⟩]
      · rw [if_neg hbehind, if_neg (by omega), if_neg (by omega), Nat.sub_add_cancel (by omega)]

theorem filter_apply {kept : A → Bool}
    (hmoved : ∀ item, items[move.oldIndex]? = some item → kept item = false) :
    (move.apply items).filter kept = items.filter kept := by
  cases hitem : items[move.oldIndex]? with
  | none => rw [apply, hitem]
  | some item =>
      rw [apply_of_getElem? hitem, filter_insertIdx (hmoved item hitem), filter_eraseIdx hmoved]

end Move

def applyMoves (moves : List Move) (items : List A) : List A :=
  moves.foldl (fun items move => move.apply items) items

/-- Where the item at an index was before the moves. -/
def origin (moves : List Move) (index : ℕ) : ℕ := moves.foldr Move.shifted index

section Moves

variable {moves : List Move} {items : List A}

theorem perm_applyMoves (hfits : ∀ move ∈ moves, move.Fits items.length) :
    (applyMoves moves items).Perm items := by
  induction moves generalizing items with
  | nil => exact List.Perm.refl items
  | cons move rest ih =>
      obtain ⟨hmove, hrest⟩ := List.forall_mem_cons.mp hfits
      refine (ih ?_).trans (Move.perm_apply hmove)
      rwa [Move.length_apply hmove]

theorem getElem?_applyMoves (hfits : ∀ move ∈ moves, move.Fits items.length) (index : ℕ) :
    (applyMoves moves items)[index]? = items[origin moves index]? := by
  induction moves generalizing items with
  | nil => rfl
  | cons move rest ih =>
      obtain ⟨hmove, hrest⟩ := List.forall_mem_cons.mp hfits
      rw [← Move.length_apply hmove] at hrest
      exact (ih hrest).trans (Move.getElem?_apply hmove _)

theorem origin_of_not_passes {index : ℕ} (hindex : ∀ move ∈ moves, ¬ move.Passes index) :
    origin moves index = index := by
  induction moves with
  | nil => rfl
  | cons move rest ih =>
      obtain ⟨hmove, hrest⟩ := List.forall_mem_cons.mp hindex
      exact (congrArg move.shifted (ih hrest)).trans (Move.shifted_of_not_passes hmove)

theorem origin_lt {index count : ℕ}
    (hfits : ∀ move ∈ moves, move.Fits count) (hindex : index < count) :
    origin moves index < count := by
  induction moves with
  | nil => exact hindex
  | cons move rest ih =>
      obtain ⟨hmove, hrest⟩ := List.forall_mem_cons.mp hfits
      exact Move.shifted_lt (ih hrest) hmove.1 hmove.2

/-- Reversing the moves from the last one on sends every index to its
origin. -/
theorem sent_reverse (moves : List Move) (index : ℕ) :
    sent moves.reverse index = origin moves index :=
  List.foldl_reverse

theorem origin_sent_back (moves : List Move) (index : ℕ) :
    origin moves (sent (moves.map Move.back) index) = index := by
  induction moves generalizing index with
  | nil => rfl
  | cons move rest ih =>
      exact (congrArg move.shifted (ih (move.back.shifted index))).trans (move.shifted_back index)

theorem MovesSettle.origin_newIndex (hsettle : MovesSettle moves) {move : Move}
    (hmove : move ∈ moves) : origin moves move.newIndex = move.oldIndex := by
  induction hsettle with
  | nil => nomatch hmove
  | @cons first rest hfirst _ ih =>
      rcases List.mem_cons.mp hmove with rfl | hmove
      · have hstays := origin_of_not_passes fun later hlater =>
          (hfirst later hlater).2
        exact (congrArg move.shifted hstays).trans move.shifted_newIndex
      · exact (congrArg first.shifted (ih hmove)).trans
          (Move.shifted_of_not_passes (hfirst move hmove).1)

/-- Moves that settle keep the order of the items they do not move. -/
theorem MovesSettle.filter_applyMoves (hsettle : MovesSettle moves)
    (hfits : ∀ move ∈ moves, move.Fits items.length) {kept : A → Bool}
    (hmoved : ∀ move ∈ moves, ∀ item, items[move.oldIndex]? = some item → kept item = false) :
    (applyMoves moves items).filter kept = items.filter kept := by
  induction hsettle generalizing items with
  | nil => rfl
  | @cons first rest hfirst _ ih =>
      obtain ⟨hfitsFirst, hfitsRest⟩ := List.forall_mem_cons.mp hfits
      have hnext : ∀ move ∈ rest, ∀ item,
          (first.apply items)[move.oldIndex]? = some item → kept item = false := by
        intro move hmove item hitem
        rw [Move.getElem?_apply hfitsFirst,
          Move.shifted_of_not_passes (hfirst move hmove).1] at hitem
        exact hmoved move (List.mem_cons_of_mem _ hmove) item hitem
      rw [← Move.length_apply hfitsFirst] at hfitsRest
      exact (ih hfitsRest hnext).trans (Move.filter_apply (hmoved first List.mem_cons_self))

theorem origin_filter {kept : Move → Bool} (htrivial : ∀ move ∈ moves, kept move = false →
      move.oldIndex = move.newIndex) (index : ℕ) :
    origin (moves.filter kept) index = origin moves index := by
  induction moves with
  | nil => rfl
  | cons move rest ih =>
      obtain ⟨hmove, hrest⟩ := List.forall_mem_cons.mp htrivial
      cases hkept : kept move with
      | true =>
          rw [List.filter_cons_of_pos hkept]
          exact congrArg move.shifted (ih hrest)
      | false =>
          rw [List.filter_cons_of_neg (by simp [hkept]), ih hrest]
          exact (Move.shifted_of_eq (hmove hkept) _).symm

end Moves

end Chkdraft.Editor
