import Chkdraft.Scenario.NameChanges

/-!
# Texts after a string was moved

`rescopeString` leads the names of a string to its copy in the other table,
deletes the string, and then deletes the strings these names had there if a
query finds no user of them.  A text is lost if a name showed another string, if
a user is not led to the copy, or if the query overlooks a user.
-/

namespace Chkdraft.Scenario

open Chk Scan Sections

variable {other : ℕ} {flag : StringUserFlag}

namespace LoadedScenario

variable {scenario : LoadedScenario} {stringId newStringId : ℕ}

theorem mem_ascending {stringIds : List ℕ} :
    stringId ∈ ascending stringIds ↔ stringId ∈ stringIds := by
  rw [ascending, List.mem_insertionSort, List.mem_dedup]

theorem getD_set_none_eq {A : Type*} (strings : List (Option A)) (stringId other : ℕ) :
    (strings.set stringId none).getD other none =
      if other = stringId then none else strings.getD other none := by
  split
  · next heq => rw [heq, getD_set_none]
  · next hne =>
      rw [List.getD_eq_getElem?_getD, List.getElem?_set_ne (Ne.symm hne),
        ← List.getD_eq_getElem?_getD]

theorem map_clearedId_of_not_mem {ids : List ℕ} (hnot : stringId ∉ ids) :
    ids.map (clearedId stringId) = ids :=
  map_eq_self fun other hmem => if_neg fun heq : other = stringId =>
    hnot (heq ▸ hmem)

/-- A field of OSTR when ids were deleted: it is emptied if its string was not
stored, since only a stored string counts as used. -/
def keptField (scenario : LoadedScenario) (deleted : List ℕ) (field : ℕ) : ℕ :=
  if field ∈ deleted ∧ scenario.kstr.strings.getD field none = none then 0
  else field

/-- What is the same and what is emptied when editor strings are deleted unless
OSTR holds them. -/
structure EditorDeleted (scenario after : LoadedScenario) (deleted : List ℕ) : Prop where
  str : after.str = scenario.str
  game : after.gameStringIds = scenario.gameStringIds
  editor : ∀ flag ∈ ostrFlags, after.editorStringIds flag =
    (scenario.editorStringIds flag).map (scenario.keptField deleted)
  kstr : ∀ flag ∈ ostrFlags, ∀ field ∈ scenario.editorStringIds flag,
    (field ∈ deleted → scenario.kstr.strings.getD field none ≠ none) →
    after.kstr.strings.getD field none = scenario.kstr.strings.getD field none

theorem editorDeleted_deleteString (scenario : LoadedScenario) (deletedId : ℕ) :
    EditorDeleted scenario (scenario.deleteString deletedId .editor true) [deletedId] := by
  change EditorDeleted scenario (scenario.deleteEditorString deletedId true) _
  have hnone : ∀ ids : List ℕ,
      (deletedId ∈ ids → scenario.kstr.strings.getD deletedId none ≠ none) →
        ids.map (scenario.keptField [deletedId]) = ids := by
    intro ids hids
    apply map_eq_self
    intro field hfield
    refine if_neg ?_
    rintro ⟨hmem, hunstored⟩
    rw [List.mem_singleton] at hmem
    subst hmem
    exact hids hfield hunstored
  cases hostr : scenario.ostrStringUsed deletedId with
  | true =>
      rw [deleteEditorString_of_used hostr]
      split
      · next hstored =>
          refine ⟨rfl, rfl, fun flag _ => ?_, fun _ _ _ _ _ => rfl⟩
          rw [editorStringIds_deleteEditorReferences]
          apply List.map_congr_left
          intro field _
          refine if_congr ?_ rfl rfl
          rw [List.mem_singleton]
          constructor
          · rintro rfl
            exact ⟨rfl, hstored⟩
          · exact And.left
      · next hstored =>
          exact ⟨rfl, rfl, fun _ _ => (hnone _ fun _ => hstored).symm, fun _ _ _ _ _ => rfl⟩
  | false =>
      have hnot : ∀ flag ∈ ostrFlags, deletedId ∉ scenario.editorStringIds flag := by
        intro flag hflag hmem
        have hused := scenario.ostrStringUsed_iff.mpr ⟨flag, hflag, hmem⟩
        rw [hostr] at hused
        cases hused
      rw [deleteEditorString_of_unused hostr]
      refine ⟨rfl, rfl, fun flag hflag => ?_, fun flag hflag field hmem _ => ?_⟩
      · rw [hnone _ fun hmem => absurd hmem (hnot flag hflag)]
        exact (scenario.editorStringIds_deleteEditorReferences deletedId
          flag).trans (map_clearedId_of_not_mem (hnot flag hflag))
      · have hne : deletedId ≠ field := by
          rintro rfl
          exact hnot flag hflag hmem
        exact (getD_set_none_eq ..).trans (if_neg (Ne.symm hne))

theorem editorDeleted_foldl (deleted : List ℕ) (scenario : LoadedScenario) :
    EditorDeleted scenario (deleted.foldl (fun scenario stringId =>
        scenario.deleteString stringId .editor true) scenario) deleted := by
  induction deleted generalizing scenario with
  | nil =>
      refine ⟨rfl, rfl, fun flag _ => ?_, fun _ _ _ _ _ => rfl⟩
      exact (map_eq_self fun field _ =>
        if_neg fun hmem => List.not_mem_nil hmem.1).symm
  | cons deletedId deleted ih =>
      have hstep := editorDeleted_deleteString scenario deletedId
      have hrun := ih (scenario.deleteString deletedId .editor true)
      -- A field that the first step does not empty keeps its string.
      have hfirst : ∀ flag ∈ ostrFlags, ∀ field ∈ scenario.editorStringIds flag,
            ¬ (field ∈ [deletedId] ∧ scenario.kstr.strings.getD field none = none) →
            field ∈ (scenario.deleteString deletedId .editor true).editorStringIds flag ∧
            (scenario.deleteString deletedId .editor true).kstr.strings.getD
              field none = scenario.kstr.strings.getD field none := by
        intro flag hflag field hmem hkept
        refine ⟨?_, hstep.kstr flag hflag field hmem fun hin hnone =>
          hkept ⟨hin, hnone⟩⟩
        rw [hstep.editor flag hflag]
        exact List.mem_map.mpr ⟨field, hmem, if_neg hkept⟩
      refine ⟨hrun.str.trans hstep.str, hrun.game.trans hstep.game,
        fun flag hflag => ?_, fun flag hflag field hmem hstored => ?_⟩
      · refine (hrun.editor flag hflag).trans ?_
        rw [hstep.editor flag hflag, List.map_map]
        apply List.map_congr_left
        intro field hmem
        by_cases hlost : field ∈ [deletedId] ∧ scenario.kstr.strings.getD field none = none
        · rw [Function.comp_apply, keptField, keptField, if_pos hlost, keptField,
            ite_self, if_pos ⟨List.mem_append_left deleted hlost.1, hlost.2⟩]
        · rw [Function.comp_apply, keptField, keptField, if_neg hlost,
            keptField, (hfirst flag hflag field hmem hlost).2]
          apply if_congr _ rfl rfl
          rw [List.mem_cons]
          rw [List.mem_singleton] at hlost
          tauto
      · have hlost : ¬ (field ∈ [deletedId] ∧
            scenario.kstr.strings.getD field none = none) := fun hlost =>
          hstored (List.mem_append_left deleted hlost.1) hlost.2
        obtain ⟨hlater, hsame⟩ := hfirst flag hflag field hmem hlost
        refine (hrun.kstr flag hflag field hlater fun hin => ?_).trans hsame
        rw [hsame]
        exact hstored (List.mem_cons_of_mem _ hin)

/-- The id is deleted: it is asked for, and the query about users in the game
finds none. -/
def Collected (scenario : LoadedScenario) (deleted : List ℕ) (stringId : ℕ) : Prop :=
  stringId ∈ deleted ∧ scenario.stringUsed stringId .game .game .all false = false

instance (scenario : LoadedScenario) (deleted : List ℕ) (stringId : ℕ) :
    Decidable (scenario.Collected deleted stringId) :=
  inferInstanceAs (Decidable (_ ∧ _))

/-- What is the same and what is emptied when game strings are deleted unless
the query finds a user. -/
structure GameDeleted (scenario after : LoadedScenario) (deleted : List ℕ) : Prop where
  kstr : after.kstr = scenario.kstr
  editor : after.editorStringIds = scenario.editorStringIds
  game : ∀ flag, after.gameStringIds flag = (scenario.gameStringIds flag).map fun other =>
      if scenario.Collected deleted other then 0 else other
  str : ∀ other, after.str.strings.getD other none =
    if scenario.Collected deleted other then none
    else scenario.str.strings.getD other none
  used : ∀ other, after.stringUsed other .game .game .all false =
    scenario.stringUsed other .game .game .all false

/-- Emptying the fields with an id the query does not find leaves every field
it looks at. -/
theorem gameStringIds_of_unused
    (hunused : ¬ scenario.HasGameUser .all stringId) (flag : StringUserFlag) :
    (scenario.deleteGameReferences stringId).gameStringIds flag =
      (scenario.gameStringIds flag).map (clearedId stringId) := by
  simp only [HasGameUser, UserMask.anyBriefingTrigger, UserMask.all,
    Bool.or_self, true_and, not_or] at hunused
  obtain ⟨-, -, -, htexts, hsounds⟩ := hunused
  by_cases htext : flag = .briefingTriggerAction
  · subst htext
    rw [briefingTexts_deleteGameReferences, map_clearedId_of_not_mem htexts]
  · by_cases hsound : flag = .briefingTriggerActionSound
    · subst hsound
      rw [briefingSounds_deleteGameReferences,
        map_clearedId_of_not_mem hsounds, gameStringIds_briefingSounds]
      apply List.map_congr_left
      intro action haction
      split
      · rfl
      · refine if_neg fun heq : action.soundStringId.toNat = stringId => ?_
        rw [gameStringIds_briefingSounds] at hsounds
        exact hsounds (List.mem_map.mpr ⟨action, haction, heq⟩)
    · exact gameStringIds_deleteGameReferences scenario stringId htext hsound

theorem gameTextIds_deleteGameReferences (scenario : LoadedScenario) (stringId : ℕ) :
    (scenario.deleteGameReferences stringId).gameTextIds =
      scenario.gameTextIds.map (clearedId stringId) := by
  have htexts : ∀ triggers : List Trigger, (triggers.flatMap fun trigger =>
        (trigger.actions.toList.filter fun action =>
          actionUsesGameStringArg action.actionType).map Action.stringId) =
        (actionsUsing actionUsesGameStringArg triggers).map Action.stringId :=
    actionIds_eq actionUsesGameStringArg Action.stringId
  have htrig : (scenario.deleteGameReferences stringId).trig =
      scenario.trig.map (updateTrigger actionUsesStringArg actionUsesSoundArg
        (clear32 stringId)) := rfl
  rw [gameTextIds, gameTextIds, htexts, htexts, htrig, actionsUsing_map_updateTrigger]
  simp only [List.map_map]
  apply List.map_congr_left
  intro action haction
  obtain ⟨trigger, -, hfilter⟩ := List.mem_flatMap.mp haction
  have htype := (List.mem_filter.mp hfilter).2
  have huses : actionUsesStringArg action.actionType = true := by
    simp only [actionUsesGameStringArg, actionUsesStringArg, List.mem_cons,
      List.not_mem_nil, or_false, decide_eq_true_eq] at htype ⊢
    tauto
  simp only [Function.comp_apply, updateAction, huses, if_true]
  exact toNat_clear32 stringId action.stringId

theorem hasGameUser_deleteGameReferences (hunused : ¬ scenario.HasGameUser .all stringId) :
    (scenario.deleteGameReferences stringId).HasGameUser .all other ↔
      scenario.HasGameUser .all other := by
  have hids := gameStringIds_of_unused hunused
  have htexts := scenario.gameTextIds_deleteGameReferences stringId
  simp only [HasGameUser, UserMask.anyBriefingTrigger, UserMask.all,
    Bool.or_self, true_and, not_or, not_exists, not_and] at hunused ⊢
  obtain ⟨hnames, hgame, hsound, hbriefing, hbriefingSound⟩ := hunused
  rw [htexts, map_clearedId_of_not_mem hgame, hids, hids, hids,
    map_clearedId_of_not_mem hsound, map_clearedId_of_not_mem hbriefing,
    map_clearedId_of_not_mem hbriefingSound]
  have hsame : ∀ flag ∈ nameFlags, (scenario.deleteGameReferences stringId).gameStringIds flag =
        scenario.gameStringIds flag := fun flag hflag =>
    (hids flag).trans (map_clearedId_of_not_mem (hnames flag hflag))
  refine or_congr_left ⟨?_, ?_⟩
  · rintro ⟨flag, hflag, hmem⟩
    exact ⟨flag, hflag, hsame flag hflag ▸ hmem⟩
  · rintro ⟨flag, hflag, hmem⟩
    exact ⟨flag, hflag, (hsame flag hflag).symm ▸ hmem⟩

theorem gameDeleted_deleteString (scenario : LoadedScenario) (deletedId : ℕ) :
    GameDeleted scenario (scenario.deleteString deletedId .game true) [deletedId] := by
  change GameDeleted scenario (scenario.deleteGameString deletedId true) _
  cases hused : scenario.stringUsed deletedId .game .game .all false with
  | true =>
      have hnone : ∀ other, ¬ scenario.Collected [deletedId] other := by
        rintro other ⟨hmem, hunused⟩
        rw [List.mem_singleton.mp hmem, hused] at hunused
        cases hunused
      rw [deleteGameString_of_used hused]
      exact ⟨rfl, rfl, fun flag => (map_eq_self fun other _ =>
        if_neg (hnone other)).symm, fun other => (if_neg (hnone other)).symm,
        fun _ => rfl⟩
  | false =>
      have hcollected : ∀ other, scenario.Collected [deletedId] other ↔ other = deletedId := by
        intro other
        rw [Collected, List.mem_singleton]
        constructor
        · exact And.left
        · rintro rfl
          exact ⟨rfl, hused⟩
      have hunused : ¬ scenario.HasGameUser .all deletedId := by
        rw [← stringUsed_game_iff, hused]
        exact Bool.false_ne_true
      rw [deleteGameString_of_unused hused]
      refine ⟨rfl, rfl, fun flag => ?_, fun other => ?_, fun other => ?_⟩
      · rw [gameStringIds_withStrings, gameStringIds_of_unused hunused]
        exact List.map_congr_left fun other _ =>
          if_congr (hcollected other).symm rfl rfl
      · rw [if_congr (hcollected other) rfl rfl]
        exact getD_set_none_eq ..
      · rw [Bool.eq_iff_iff, stringUsed_game_iff, stringUsed_game_iff,
          ← hasGameUser_deleteGameReferences hunused]
        rfl

theorem gameDeleted_foldl (deleted : List ℕ) (scenario : LoadedScenario) :
    GameDeleted scenario (deleted.foldl (fun scenario stringId =>
        scenario.deleteString stringId .game true) scenario) deleted := by
  induction deleted generalizing scenario with
  | nil =>
      have hnone : ∀ other, ¬ scenario.Collected [] other := fun _ hmem =>
        List.not_mem_nil hmem.1
      exact ⟨rfl, rfl, fun flag => (map_eq_self fun other _ =>
        if_neg (hnone other)).symm, fun other => (if_neg (hnone other)).symm,
        fun _ => rfl⟩
  | cons deletedId deleted ih =>
      have hstep := scenario.gameDeleted_deleteString deletedId
      have hrun := ih (scenario.deleteString deletedId .game true)
      have hcons : ∀ other, scenario.Collected (deletedId :: deleted) other ↔
          scenario.Collected [deletedId] other ∨
            (scenario.deleteString deletedId .game true).Collected deleted
              other := by
        intro other
        rw [Collected, Collected, Collected, hstep.used, List.mem_cons,
          List.mem_singleton, or_and_right]
      refine ⟨hrun.kstr.trans hstep.kstr, hrun.editor.trans hstep.editor,
        fun flag => ?_, fun other => ?_,
        fun other => (hrun.used other).trans (hstep.used other)⟩
      · refine (hrun.game flag).trans ?_
        rw [hstep.game, List.map_map]
        apply List.map_congr_left
        intro other _
        rw [Function.comp_apply, if_congr (hcons other) rfl rfl]
        by_cases hfirst : scenario.Collected [deletedId] other
        · simp only [hfirst, true_or, if_true, ite_self]
        · simp only [hfirst, false_or, if_false]
      · refine (hrun.str other).trans ?_
        rw [hstep.str, if_congr (hcons other) rfl rfl]
        by_cases hfirst : scenario.Collected [deletedId] other
        · simp only [hfirst, true_or, if_true, ite_self]
        · simp only [hfirst, false_or, if_false]

theorem resolve_set_none (strings : List (Option ScStr)) (stringId other : ℕ) :
    resolve (strings.set stringId none) other =
      if other = stringId then none else resolve strings other := by
  rw [resolve, resolve, getString, getString, getD_set_none_eq]
  by_cases heq : other = stringId
  · rw [if_pos heq, if_pos heq, Option.map_none, ite_self]
  · rw [if_neg heq, if_neg heq]

theorem resolve_clearedId (strings : List (Option ScStr)) (stringId other : ℕ) :
    resolve (strings.set stringId none) (clearedId stringId other) =
      if other = stringId then none else resolve strings other := by
  rw [clearedId]
  split
  · rfl
  · next hne => rw [resolve_set_none, if_neg hne]

theorem gameContents_deleteString (flag : StringUserFlag) :
    gameContents (scenario.deleteString stringId .game false) flag =
      (scenario.gameStringIds flag).map fun other =>
        if other = stringId then none
        else resolve scenario.str.strings other := by
  rw [deleteString_forced, gameContents_eq]
  change (((scenario.withStrings (scenario.str.strings.set stringId
    none)).deleteGameReferences stringId).gameStringIds flag).map
      (resolve (scenario.str.strings.set stringId none)) = _
  by_cases htext : flag = .briefingTriggerAction
  · subst htext
    rw [briefingTexts_deleteGameReferences, gameStringIds_withStrings]
    exact List.map_congr_left fun other _ => resolve_set_none ..
  · by_cases hsound : flag = .briefingTriggerActionSound
    · subst hsound
      rw [briefingSounds_deleteGameReferences, gameStringIds_briefingSounds,
        List.map_map, List.map_map]
      apply List.map_congr_left
      intro action _
      rw [Function.comp_apply, Function.comp_apply]
      split
      · exact resolve_set_none ..
      · exact resolve_clearedId ..
    · rw [gameStringIds_deleteGameReferences _ _ htext hsound,
        gameStringIds_withStrings, List.map_map]
      exact List.map_congr_left fun other _ => resolve_clearedId ..

/-- The fields whose holders have the id get the new one. -/
def redirected (stringId newStringId : ℕ) (holders fields : List ℕ) : List ℕ :=
  List.zipWith (fun holder field =>
    if holder = stringId then newStringId else field) holders fields

theorem toList_zipWith_redirect {A B : Type} {count : ℕ} {holderId : A → ℕ}
    {fieldId : B → ℕ} {redirect : A → B → B}
    (hredirect : ∀ holder field, fieldId (redirect holder field) =
      if holderId holder = stringId then newStringId else fieldId field)
    (holders : List.Vector A count) (fields : List.Vector B count) :
    (List.Vector.zipWith redirect holders fields).toList.map fieldId =
      redirected stringId newStringId (holders.toList.map holderId)
        (fields.toList.map fieldId) := by
  rw [List.Vector.zipWith_toList, List.map_zipWith, redirected, List.zipWith_map]
  exact congrArg (fun merge => List.zipWith merge holders.toList fields.toList) (funext₂ hredirect)

section

variable (hlt : newStringId < maxStrings)

include hlt

theorem toNat_redirect16 (holder : UInt32) (field : UInt16) :
    (redirect16 stringId newStringId holder field).toNat =
      if holder.toNat = stringId then newStringId else field.toNat := by
  rw [redirect16]
  split
  · exact toNat_ofNat16 hlt
  · rfl

theorem toNat_redirect32 (holder : ℕ) (field : UInt32) :
    (redirect32 stringId newStringId holder field).toNat =
      if holder = stringId then newStringId else field.toNat := by
  rw [redirect32]
  split
  · exact toNat_ofNat32 hlt
  · rfl

theorem gameStringIds_redirectToGame (flag : StringUserFlag) :
    (scenario.redirectToGame stringId newStringId).gameStringIds flag =
      if flag ∈ twoFieldFlags then
        redirected stringId newStringId (scenario.editorStringIds flag)
          (scenario.gameStringIds flag)
      else scenario.gameStringIds flag := by
  have h16 := @toNat_redirect16 stringId _ hlt
  have h32 := @toNat_redirect32 stringId _ hlt
  cases flag with
  | scenarioName | scenarioDescription =>
      exact congrArg (fun other => [other]) (h16 _ _)
  | force | originalUnitSettings | expansionUnitSettings =>
      exact toList_zipWith_redirect h16 _ _
  | sound | switch =>
      exact toList_zipWith_redirect (fun holder => h32 holder.toNat) _ _
  | location =>
      rw [if_pos (by decide)]
      change ((scenario.locations.take 1 ++ List.zipWith _
        scenario.ostr.locationName.toList scenario.locations.tail).tail.map
          fun location : Location => location.stringId.toNat) = _
      cases hlocations : scenario.locations with
      | nil => simp [redirected, gameStringIds, hlocations]
      | cons first rest =>
          rw [List.take_succ_cons, List.take_zero, List.singleton_append, List.tail_cons,
            List.tail_cons, List.map_zipWith, redirected, gameStringIds, editorStringIds,
            hlocations, List.tail_cons, List.zipWith_map]
          exact congrArg (fun merge => List.zipWith merge _ rest)
            (funext₂ fun holder location => h16 holder location.stringId)
  | _ => rfl

/-- The ids of OSTR, except for the names of locations that are not there. -/
theorem editorStringIds_redirectToEditor (hflag : flag ∈ twoFieldFlags) :
    (scenario.redirectToEditor stringId newStringId).editorStringIds flag =
      redirected stringId newStringId (scenario.readStringIds flag)
          (scenario.editorStringIds flag) ++
        (scenario.editorStringIds flag).drop (scenario.gameStringIds flag).length := by
  have h32 := @toNat_redirect32 stringId _ hlt
  have hdrop : ∀ {A B : Type} {count : ℕ} (holders : List.Vector A count)
      (fields : List.Vector B count) (holderId : A → ℕ) (fieldId : B → ℕ),
      (fields.toList.map fieldId).drop (holders.toList.map holderId).length = [] := by
    intro A B count holders fields holderId fieldId
    simp
  cases flag with
  | scenarioName | scenarioDescription =>
      exact congrArg (fun other => [other]) (h32 _ _)
  | force | originalUnitSettings | expansionUnitSettings | sound | switch =>
      refine (toList_zipWith_redirect (fun holder => h32 holder.toNat) _ _).trans ?_
      rw [gameStringIds, editorStringIds, hdrop, List.append_nil]
      rfl
  | location =>
      simp only [editorStringIds, redirectToEditor, readStringIds,
        gameStringIds, List.Vector.toList_ofFn, redirected, List.map_ofFn]
      apply List.ext_getElem?
      intro index
      have hnext : scenario.locations[index + 1]? =
          scenario.locations.tail[index]? := List.getElem?_tail.symm
      have hnames := scenario.ostr.locationName.toList_length
      rw [List.getElem?_ofFn, List.getElem?_append, List.length_zipWith, List.length_map,
        List.length_map, hnames, List.getElem?_drop, List.getElem?_zipWith,
        List.getElem?_map, List.getElem?_map, List.getElem?_map]
      by_cases hindex : index < 255
      · have hfield : scenario.ostr.locationName.toList[index]? =
            some (scenario.ostr.locationName.get ⟨index, hindex⟩) := by
          rw [List.getElem?_eq_getElem (hnames.symm ▸ hindex)]
          rfl
        rw [dif_pos hindex, Function.comp_apply, hnext, hfield]
        by_cases hinside : index < scenario.locations.tail.length
        · rw [List.getElem?_eq_getElem hinside, if_pos (Nat.lt_min.mpr ⟨hinside, hindex⟩)]
          exact congrArg some (h32 _ _)
        · have hposition : scenario.locations.tail.length +
              (index - min scenario.locations.tail.length 255) = index := by
            omega
          rw [List.getElem?_eq_none (Nat.le_of_not_lt hinside),
            if_neg (by omega), hposition, hfield]
          rfl
      · rw [dif_neg hindex, if_neg (by omega), List.getElem?_eq_none (by omega)]
        rfl
  | _ => exact absurd hflag (by decide)

end

theorem zip_redirected_left (deleted cleared : ℕ → ℕ) (fields holders : List ℕ) :
    ((redirected stringId newStringId holders fields).map deleted).zip (holders.map cleared) =
      (fields.zip holders).map fun user =>
        (deleted (if user.2 = stringId then newStringId else user.1), cleared user.2) := by
  induction fields generalizing holders with
  | nil => cases holders <;> rfl
  | cons field fields ih =>
      cases holders with
      | nil => rfl
      | cons holder holders => exact congrArg (_ :: ·) (ih holders)

theorem zip_redirected_right (cleared kept : ℕ → ℕ)
    {readIds gameIds : List ℕ} (fields : List ℕ)
    (hlength : readIds.length = gameIds.length) :
    (gameIds.map cleared).zip ((redirected stringId newStringId readIds fields ++
        fields.drop gameIds.length).map kept) =
      (readIds.zip (gameIds.zip fields)).map fun user =>
        (cleared user.2.1, kept (if user.1 = stringId then newStringId else user.2.2)) := by
  induction readIds generalizing gameIds fields with
  | nil =>
      cases List.length_eq_zero_iff.mp hlength.symm
      rfl
  | cons readId readIds ih =>
      obtain ⟨gameId, gameIds, rfl⟩ := List.exists_cons_of_length_eq_add_one hlength.symm
      cases fields with
      | nil => rfl
      | cons field fields =>
          exact congrArg (_ :: ·) (ih fields (Nat.succ.inj hlength))

/-- Moving an editor string to the game deletes the id: a name had it before,
and the query finds no user. -/
def ReplacedGone (added : LoadedScenario) (stringId newStringId other : ℕ) : Prop :=
  (added.redirectToGame stringId newStringId).Collected
    (added.replacedInGame stringId newStringId) other

instance (added : LoadedScenario) (stringId newStringId other : ℕ) :
    Decidable (added.ReplacedGone stringId newStringId other) :=
  inferInstanceAs (Decidable (Collected ..))

/-- The copy of an editor string stays, and no id is deleted by which a user
shows a text. -/
def UsersStayInGame (scenario added : LoadedScenario) (stringId newStringId : ℕ) : Prop :=
  ∀ flag gameId editorId, (gameId, editorId) ∈ scenario.users flag →
    (editorId = stringId → ¬ added.ReplacedGone stringId newStringId newStringId) ∧
    (editorId = 0 → added.ReplacedGone stringId newStringId gameId →
      resolve scenario.str.strings gameId = none)

/-- Every text is kept when an editor string is moved to the game: there is an
id for it, OSTR has a field for every location, and no user loses its text. -/
def StaysInGame (scenario : LoadedScenario) (stringId : ℕ) (text : ScStr) : Prop :=
  ∃ newStringId added, scenario.addString text = .ok (newStringId, added) ∧
    scenario.locations.length ≤ 256 ∧ scenario.UsersStayInGame added stringId newStringId

/-- The scenario after an editor string was moved to the game. -/
def movedToGame (added : LoadedScenario) (stringId newStringId : ℕ) : LoadedScenario :=
  ((added.redirectToGame stringId newStringId).deleteString stringId .editor
    false).deleteReplaced .game (added.replacedInGame stringId newStringId)

theorem mem_gameStringIds_of_mem_users {gameId editorId : ℕ}
    (hmem : (gameId, editorId) ∈ scenario.users flag) :
    gameId ∈ scenario.gameStringIds flag := by
  rw [users] at hmem
  split at hmem
  · exact (List.of_mem_zip hmem).1
  · obtain ⟨other, hother, heq⟩ := List.mem_map.mp hmem
    cases heq
    exact hother

section ToGame

variable {added : LoadedScenario} {text : ScStr}

theorem gameDeleted_movedToGame (added : LoadedScenario) (stringId newStringId : ℕ) :
    GameDeleted ((added.redirectToGame stringId newStringId).deleteString
        stringId .editor false) (added.movedToGame stringId newStringId)
      (ascending (added.replacedInGame stringId newStringId)) :=
  gameDeleted_foldl _ _

theorem replacedGone_iff :
    ((added.redirectToGame stringId newStringId).deleteString stringId .editor
        false).Collected (ascending (added.replacedInGame stringId newStringId)) other ↔
      added.ReplacedGone stringId newStringId other :=
  and_congr_left' mem_ascending

/-- What a user shows whose ids are these after the names were redirected. -/
theorem displayedText_movedToGame (gameId editorId : ℕ) :
    (added.movedToGame stringId newStringId).displayedText
        (if added.ReplacedGone stringId newStringId gameId then 0 else gameId,
          clearedId stringId editorId) =
      if editorId ≠ stringId ∧ editorId ≠ 0 then
        getString added.editorTexts editorId
      else if added.ReplacedGone stringId newStringId gameId then none
      else resolve added.str.strings gameId := by
  have hmoved := gameDeleted_movedToGame added stringId newStringId
  have hgame : resolve (added.movedToGame stringId newStringId).str.strings
      (if added.ReplacedGone stringId newStringId gameId then 0 else gameId) =
        if added.ReplacedGone stringId newStringId gameId then none
        else resolve added.str.strings gameId := by
    split
    · rfl
    · next hkept =>
        rw [resolve, resolve, getString, getString, hmoved.str,
          if_neg fun hlost => hkept (replacedGone_iff.mp hlost)]
        rfl
  rw [displayedText, hgame, clearedId]
  by_cases heq : editorId = stringId
  · simp [heq]
  · rw [if_neg heq]
    refine if_congr ⟨fun hne => ⟨heq, hne⟩, And.right⟩ ?_ rfl
    rw [getString, getString, editorTexts, editorTexts, getD_map_chars, getD_map_chars, hmoved.kstr]
    exact congrArg (fun string : Option EditorString =>
      (string.map EditorString.chars).map untilNul) ((getD_set_none_eq ..).trans (if_neg heq))

theorem users_movedToGame (hlt : newStringId < maxStrings)
    (hpos : 0 < stringId) (flag : StringUserFlag) :
    (added.movedToGame stringId newStringId).users flag = (added.users flag).map fun user =>
        let gameId := if user.2 = stringId then newStringId else user.1
        (if added.ReplacedGone stringId newStringId gameId then 0 else gameId,
          clearedId stringId user.2) := by
  have hmoved := gameDeleted_movedToGame added stringId newStringId
  have hgame := @gameStringIds_redirectToGame added stringId _ hlt flag
  have heditor : (added.movedToGame stringId newStringId).editorStringIds
      flag = (added.editorStringIds flag).map (clearedId stringId) := by
    rw [hmoved.editor]
    exact editorStringIds_deleteEditorReferences added stringId flag
  have hids : (added.movedToGame stringId newStringId).gameStringIds flag =
      ((added.redirectToGame stringId newStringId).gameStringIds flag).map
        fun other => if added.ReplacedGone stringId newStringId other then 0
          else other := by
    refine (hmoved.game flag).trans (List.map_congr_left fun other _ => ?_)
    exact if_congr replacedGone_iff rfl rfl
  rw [users, users, hids, heditor, hgame]
  split
  · rw [zip_redirected_left]
  · rw [List.map_map, List.map_map]
    apply List.map_congr_left
    intro other _
    simp only [Function.comp_apply, if_neg hpos.ne, clearedId]

/-- What is displayed does not change exactly if nothing is lost. -/
theorem displayedTexts_movedToGame_iff (hsound : scenario.TablesSound) (hpos : 0 < stringId)
    (htext : getString scenario.editorTexts stringId = some text)
    (hadd : scenario.addString text = .ok (newStringId, added)) :
    (∀ flag, (added.movedToGame stringId newStringId).displayedTexts flag =
        scenario.displayedTexts flag) ↔
      scenario.UsersStayInGame added stringId newStringId := by
  obtain ⟨-, hsame, hne, hlt, hstored⟩ := addString_sound hsound hadd
  obtain ⟨strings, rfl, -, -, -⟩ := addString_spec hadd
  have husers : (scenario.withStrings strings).users = scenario.users := by
    funext flag
    rw [users, gameStringIds_withStrings]
    rfl
  have hshown : ∀ flag, ∀ other ∈ scenario.gameStringIds flag,
      resolve strings other = resolve scenario.str.strings other := by
    intro flag
    have hgame := congrFun (congrArg MapTexts.game hsame) flag
    exact List.map_inj_left.mp ((congrArg (List.map (resolve strings))
        (gameStringIds_withStrings ..)).symm.trans hgame)
  refine forall_congr' fun flag => ?_
  rw [displayedTexts, displayedTexts, users_movedToGame hlt hpos, husers,
    List.map_map, List.map_inj_left, Prod.forall]
  refine forall₂_congr fun gameId editorId => forall_congr' fun hmem => ?_
  rw [Function.comp_apply, displayedText_movedToGame, displayedText]
  by_cases heq : editorId = stringId
  · subst heq
    have htext' : untilNul text = text := by
      obtain ⟨stored, -, rfl⟩ := getString_eq_some_iff.mp htext
      exact untilNul_untilNul stored
    have hnew : resolve strings newStringId = some text := htext' ▸ hstored
    rw [if_neg (by simp), if_pos rfl, if_pos hpos.ne', htext]
    change (if _ then none else resolve strings newStringId) = _ ↔ _
    rw [hnew]
    split
    · next hgone => simp [hgone]
    · next hkept => simp [hkept, hpos.ne']
  · by_cases hzero : editorId = 0
    · subst hzero
      have hnot : ¬ (0 ≠ stringId ∧ (0 : ℕ) ≠ 0) := fun hboth => hboth.2 rfl
      change (if _ then _ else if ReplacedGone _ _ _ (if _ then _ else gameId)
        then none else resolve strings _) = (if (0 : ℕ) ≠ 0 then _ else _) ↔ _
      rw [if_neg hnot, if_neg heq, if_neg (not_not.mpr rfl),
        hshown flag gameId (mem_gameStringIds_of_mem_users hmem)]
      split
      · next hgone => simp [hgone, heq, eq_comm]
      · next hkept => simp [hkept, heq]
    · rw [if_pos ⟨heq, hzero⟩, if_pos hzero]
      simp only [heq, hzero, false_implies, and_self, iff_true]
      rfl

end ToGame

/-- No action has the string, the names that are led to its copy showed it
before, and of the other names none showed it, nor hides a text behind an id
that is emptied. -/
def UsersStayInEditor (scenario : LoadedScenario) (stringId : ℕ) (text : ScStr) : Prop :=
  (∀ flag ∉ twoFieldFlags, stringId ∉ scenario.gameStringIds flag) ∧
    ∀ flag ∈ twoFieldFlags, ∀ readId gameId editorId, (readId, gameId, editorId) ∈
        (scenario.readStringIds flag).zip (scenario.users flag) →
      if readId = stringId then scenario.displayedText (gameId, editorId) = some text
      else if editorId = 0 then gameId ≠ stringId
      else getString scenario.editorTexts editorId = none →
        editorId ∈ scenario.replacedInOstr stringId →
        gameId ≠ stringId → resolve scenario.str.strings gameId = none

/-- Every text is kept when a game string is moved to the editor: there is an
id for it, OSTR has a field for every location that has the string, and no user
loses its text. -/
def StaysInEditor (scenario : LoadedScenario) (stringId : ℕ) (text : ScStr) : Prop :=
  (findString scenario.editorTexts text ≠ 0 ∨ ∃ unused, scenario.EditorUnused unused) ∧
    (∀ location ∈ scenario.locations.drop 256, location.stringId.toNat ≠ stringId) ∧
    scenario.UsersStayInEditor stringId text

/-- The scenario after a game string was moved to the editor. -/
def movedToEditor (added : LoadedScenario) (stringId newStringId : ℕ) : LoadedScenario :=
  ((added.redirectToEditor stringId newStringId).deleteString stringId .game
    false).deleteReplaced .editor (added.replacedInOstr stringId)

section ToEditor

variable {added : LoadedScenario} {text : ScStr}

theorem editorDeleted_movedToEditor (added : LoadedScenario) (stringId newStringId : ℕ) :
    EditorDeleted ((added.redirectToEditor stringId newStringId).deleteString
        stringId .game false) (added.movedToEditor stringId newStringId)
      (ascending (added.replacedInOstr stringId)) :=
  editorDeleted_foldl _ _

theorem getString_editorTexts_eq_none_iff :
    getString scenario.editorTexts other = none ↔ scenario.kstr.strings.getD other none = none := by
  rw [getString, editorTexts, getD_map_chars, Option.map_eq_none_iff, Option.map_eq_none_iff]

/-- Actions show what they did unless they have the string. -/
theorem displayedTexts_movedToEditor_of_action (hflag : flag ∉ twoFieldFlags) :
    (added.movedToEditor stringId newStringId).displayedTexts flag =
      (added.gameStringIds flag).map fun other =>
        if other = stringId then none else resolve added.str.strings other := by
  have hmoved := editorDeleted_movedToEditor added stringId newStringId
  rw [displayedTexts, users, if_neg hflag, List.map_map, hmoved.game]
  have hcontents := @gameContents_deleteString
    (added.redirectToEditor stringId newStringId) stringId flag
  rw [gameContents_eq, ← hmoved.str] at hcontents
  exact hcontents

theorem length_readStringIds (added : LoadedScenario) (flag : StringUserFlag) :
    (added.readStringIds flag).length = (added.gameStringIds flag).length := by
  cases flag <;> simp [readStringIds, gameStringIds]

/-- The users of two fields are the same, with other ids. -/
theorem users_movedToEditor (hlt : newStringId < maxStrings) (hflag : flag ∈ twoFieldFlags) :
    (added.movedToEditor stringId newStringId).users flag =
      ((added.readStringIds flag).zip (added.users flag)).map fun user =>
        (clearedId stringId user.2.1, added.keptField (ascending (added.replacedInOstr stringId))
            (if user.1 = stringId then newStringId else user.2.2)) := by
  have hmoved := editorDeleted_movedToEditor added stringId newStringId
  have hgame : (added.movedToEditor stringId newStringId).gameStringIds flag =
      (added.gameStringIds flag).map (clearedId stringId) := by
    rw [hmoved.game]
    exact gameStringIds_deleteGameReferences _ stringId
      (fun heq => absurd (heq ▸ hflag) (by decide))
      (fun heq => absurd (heq ▸ hflag) (by decide))
  have heditor : (added.movedToEditor stringId newStringId).editorStringIds
      flag = ((added.redirectToEditor stringId newStringId).editorStringIds
        flag).map (added.keptField (ascending (added.replacedInOstr
          stringId))) := hmoved.editor flag hflag
  rw [users, users, if_pos hflag, if_pos hflag, hgame, heditor,
    editorStringIds_redirectToEditor hlt hflag,
    zip_redirected_right _ _ _ (added.length_readStringIds flag)]

/-- What a user of two fields shows whose editor id is this after the names were
redirected. -/
theorem displayedText_movedToEditor (hflag : flag ∈ twoFieldFlags) (gameId : ℕ)
    {field : ℕ}
    (hmem : field ∈ (added.redirectToEditor stringId newStringId).editorStringIds flag) :
    (added.movedToEditor stringId newStringId).displayedText
        (clearedId stringId gameId, added.keptField
          (ascending (added.replacedInOstr stringId)) field) =
      if field = 0 ∨ field ∈ added.replacedInOstr stringId ∧
          getString added.editorTexts field = none then
        if gameId = stringId then none
        else resolve added.str.strings gameId
      else getString added.editorTexts field := by
  have hmoved := editorDeleted_movedToEditor added stringId newStringId
  have hgame : resolve (added.movedToEditor stringId newStringId).str.strings
      (clearedId stringId gameId) = if gameId = stringId then none
        else resolve added.str.strings gameId := by
    rw [hmoved.str]
    exact resolve_clearedId ..
  rw [displayedText, hgame, keptField]
  simp only [mem_ascending, ← getString_editorTexts_eq_none_iff]
  by_cases hgone : field ∈ added.replacedInOstr stringId ∧ getString added.editorTexts field = none
  · simp [hgone]
  · rw [if_neg hgone, ite_not]
    refine if_congr (or_iff_left hgone).symm rfl ?_
    rw [getString, getString, editorTexts, editorTexts, getD_map_chars,
      getD_map_chars, hmoved.kstr flag hflag field hmem fun hreplaced hnone =>
        hgone ⟨mem_ascending.mp hreplaced, getString_editorTexts_eq_none_iff.mpr hnone⟩]
    rfl

theorem mem_redirectToEditor (hlt : newStringId < maxStrings)
    (hflag : flag ∈ twoFieldFlags) {user : ℕ × ℕ × ℕ}
    (hmem : user ∈ (added.readStringIds flag).zip (added.users flag)) :
    (if user.1 = stringId then newStringId else user.2.2) ∈
      (added.redirectToEditor stringId newStringId).editorStringIds flag := by
  have hzip := @zip_redirected_right stringId newStringId id id _ _
    (added.editorStringIds flag) (added.length_readStringIds flag)
  rw [List.map_id, List.map_id, ← editorStringIds_redirectToEditor hlt hflag] at hzip
  rw [users, if_pos hflag] at hmem
  have himage := List.mem_map_of_mem (f := fun user : ℕ × ℕ × ℕ => (id user.2.1,
      id (if user.1 = stringId then newStringId else user.2.2))) hmem
  rw [← hzip] at himage
  exact (List.of_mem_zip himage).2

/-- What is displayed does not change exactly if nothing is lost. -/
theorem displayedTexts_movedToEditor_iff (hsound : scenario.TablesSound) (hpos : 0 < stringId)
    (htext : getString scenario.str.strings stringId = some text)
    (hadd : scenario.addEditorString text = .ok (newStringId, added)) :
    (∀ flag, (added.movedToEditor stringId newStringId).displayedTexts flag =
        scenario.displayedTexts flag) ↔
      scenario.UsersStayInEditor stringId text := by
  obtain ⟨-, hsame, hne, hlt, hstored⟩ := addEditorString_sound hsound hadd
  have hadded : ∃ kstr, added = { scenario with kstr } := by
    rcases addEditorString_cases hsound hadd with
      ⟨-, -, rfl⟩ | ⟨-, -, strings, rfl, -⟩
    · exact ⟨_, rfl⟩
    · exact ⟨_, rfl⟩
  obtain ⟨kstr, rfl⟩ := hadded
  have hshown : ∀ flag, ∀ other ∈ scenario.editorStringIds flag,
      resolve { scenario with kstr }.editorTexts other =
        resolve scenario.editorTexts other := fun flag =>
    List.map_inj_left.mp (congrFun (congrArg MapTexts.editor hsame) flag)
  have hresolve : resolve scenario.str.strings stringId = some text := (if_neg hpos.ne').trans htext
  rw [UsersStayInEditor, ← forall_and]
  refine forall_congr' fun flag => ?_
  by_cases hflag : flag ∈ twoFieldFlags
  · have hlength : (scenario.users flag).length ≤ (scenario.readStringIds flag).length := by
      rw [users, if_pos hflag, List.length_zip, length_readStringIds]
      exact Nat.min_le_left _ _
    have hbefore : scenario.displayedTexts flag =
        ((scenario.readStringIds flag).zip (scenario.users flag)).map
          fun user => scenario.displayedText user.2 := by
      rw [displayedTexts]
      nth_rewrite 1 [← List.map_snd_zip hlength]
      rw [List.map_map]
      rfl
    have hafter : { scenario with kstr }.readStringIds flag =
        scenario.readStringIds flag := by cases flag <;> rfl
    have husers : { scenario with kstr }.users flag = scenario.users flag :=
      rfl
    rw [and_iff_right (fun hnot => absurd hflag hnot), imp_iff_right hflag,
      displayedTexts, users_movedToEditor hlt hflag, hbefore, List.map_map, hafter,
      husers, List.map_inj_left, Prod.forall]
    refine forall_congr' fun readId => Prod.forall.trans ?_
    refine forall₂_congr fun gameId editorId => forall_congr' fun hmem => ?_
    have hfield := @mem_redirectToEditor _ stringId _ { scenario with kstr }
      hlt hflag _ (hafter.symm ▸ hmem)
    have hreplaced : { scenario with kstr }.replacedInOstr stringId =
        scenario.replacedInOstr stringId := rfl
    rw [Function.comp_apply, displayedText_movedToEditor hflag gameId hfield, hreplaced]
    change _ = scenario.displayedText (gameId, editorId) ↔ _
    by_cases heq : readId = stringId
    · -- The user is led to the copy.
      subst heq
      have hcopy : getString { scenario with kstr }.editorTexts newStringId = some text := by
        have htext' : untilNul text = text := by
          obtain ⟨stored, -, rfl⟩ := getString_eq_some_iff.mp htext
          exact untilNul_untilNul stored
        rw [resolve, if_neg hne, htext'] at hstored
        exact hstored
      simp only [if_true, hne, hcopy, reduceCtorEq, and_false, or_self, if_false, eq_comm]
    · rw [if_neg heq, if_neg heq]
      by_cases hzero : editorId = 0
      · subst hzero
        rw [if_pos (.inl rfl), if_pos rfl, displayedText, if_neg (not_not.mpr rfl)]
        by_cases hgame : gameId = stringId
        · rw [if_pos hgame, hgame, hresolve]
          simp
        · simp [hgame]
      · have hmem' : editorId ∈ scenario.editorStringIds flag := by
          have huser := (List.of_mem_zip hmem).2
          rw [users, if_pos hflag] at huser
          exact (List.of_mem_zip huser).2
        have hsame' : getString { scenario with kstr }.editorTexts editorId =
            getString scenario.editorTexts editorId := by
          have hboth := hshown flag editorId hmem'
          rwa [resolve, resolve, if_neg hzero, if_neg hzero] at hboth
        rw [if_neg hzero, displayedText, if_pos hzero, hsame']
        by_cases hgone : editorId ∈ scenario.replacedInOstr stringId ∧
            getString scenario.editorTexts editorId = none
        · rw [if_pos (.inr hgone), hgone.2]
          by_cases hgame : gameId = stringId
          · simp [hgame]
          · simp [hgame, hgone.1]
        · rw [if_neg (not_or.mpr ⟨hzero, hgone⟩)]
          exact iff_of_true rfl fun hnone hreplaced =>
            absurd ⟨hreplaced, hnone⟩ hgone
  · have hgame : { scenario with kstr }.gameStringIds flag =
        scenario.gameStringIds flag := by cases flag <;> rfl
    rw [and_iff_left (fun hmem => absurd hmem hflag), imp_iff_right hflag,
      displayedTexts_movedToEditor_of_action hflag, displayedTexts, users,
      if_neg hflag, List.map_map, hgame, List.map_inj_left]
    constructor
    · intro hkept hmem
      have hnone := hkept stringId hmem
      rw [if_pos rfl] at hnone
      exact Option.some_ne_none text (hresolve.symm.trans hnone.symm)
    · intro hnot other hmem
      exact if_neg fun heq : other = stringId => hnot (heq ▸ hmem)

end ToEditor

/-- The call returns and every text is kept. -/
def KeepsTexts (scenario : LoadedScenario) (stringId : ℕ) (changeStorageScopeTo : Scope) : Prop :=
  ∃ rescoped newStringId, scenario.rescopeString stringId changeStorageScopeTo =
        .ok (rescoped, newStringId) ∧
      ∀ flag, rescoped.displayedTexts flag = scenario.displayedTexts flag

/-- Every text is kept: a string that is moved keeps its users. -/
def TextsStay (scenario : LoadedScenario) (stringId : ℕ) : Scope → Prop
  | .editor => scenario.stringUsed stringId .both .game .all true = true →
      ∃ text, getString scenario.str.strings stringId = some text ∧
        scenario.StaysInEditor stringId text
  | .game => scenario.stringUsed stringId .both .editor .all true = true →
      ∃ text, getString scenario.editorTexts stringId = some text ∧
        scenario.StaysInGame stringId text
  | _ => True

theorem keepsTexts_iff {changeStorageScopeTo : Scope} :
    scenario.KeepsTexts stringId changeStorageScopeTo ↔
      ∃ rescoped, scenario.rescope stringId changeStorageScopeTo = .ok rescoped ∧
        ∀ flag, rescoped.displayedTexts flag = scenario.displayedTexts flag := by
  constructor
  · rintro ⟨rescoped, newStringId, hcall, htexts⟩
    rw [rescopeString, Fault.bind_eq_ok_iff] at hcall
    obtain ⟨moved, hmoved, hresult⟩ := hcall
    cases hresult
    exact ⟨rescoped, hmoved, htexts⟩
  · rintro ⟨rescoped, hmoved, htexts⟩
    refine ⟨rescoped, 0, ?_, htexts⟩
    rw [rescopeString, hmoved]
    rfl

/-- An editor string is added if it is there or an id is free. -/
theorem addEditorString_returns_iff (hsound : scenario.TablesSound) (text : ScStr) :
    (∃ newStringId added, scenario.addEditorString text = .ok (newStringId, added)) ↔
      findString scenario.editorTexts text ≠ 0 ∨ ∃ unused, scenario.EditorUnused unused := by
  have hmarks : scenario.editorMarkOutOfRange = false :=
    editorMarkOutOfRange_eq_false_iff.mpr hsound.editor_lt
  obtain ⟨hlt, hunmarked, hfree⟩ := scenario.nextUnusedEditorStringId_spec
  rw [addEditorString]
  simp only [hmarks, Bool.false_eq_true, if_false]
  by_cases hfound : findString scenario.editorTexts text ≠ 0
  · rw [if_pos hfound]
    exact iff_of_true ⟨_, _, rfl⟩ (.inl hfound)
  · rw [if_neg hfound, or_iff_right hfound]
    constructor
    · rintro ⟨newStringId, added, hadd⟩
      rcases hsound.kstr_pos with hpos | hunused
      · refine ⟨scenario.nextUnusedEditorStringId, Nat.pos_of_ne_zero ?_, hlt,
          fun flag hmem => hunmarked ⟨Nat.pos_of_ne_zero ?_, flag, rfl, hmem⟩⟩
        all_goals
          intro hzero
          rw [if_pos ⟨hzero ▸ hpos, hzero⟩] at hadd
          cases hadd
      · exact hunused
    · rintro ⟨unused, hunused⟩
      rw [if_neg fun hfull => hfree unused hunused hfull.2]
      exact ⟨_, _, rfl⟩

theorem rescopeToEditor_keeps_iff (hsound : scenario.TablesSound)
    (hpos : 0 < stringId) {text : ScStr}
    (htext : getString scenario.str.strings stringId = some text) :
    (∃ rescoped, scenario.rescopeToEditor stringId = .ok rescoped ∧
        ∀ flag, rescoped.displayedTexts flag = scenario.displayedTexts flag) ↔
      scenario.StaysInEditor stringId text := by
  have hbound : ∀ {newStringId : ℕ} {added : LoadedScenario},
      scenario.addEditorString text = .ok (newStringId, added) →
      (scenario.rescopeToEditor stringId =
        if ∃ location ∈ scenario.locations.drop 256, location.stringId.toNat = stringId then
          .error (.thrown .outOfRange)
        else .ok (added.movedToEditor stringId newStringId)) := by
    intro newStringId added hadd
    obtain ⟨-, -, hne, -, -⟩ := addEditorString_sound hsound hadd
    have hlocations : added.locations = scenario.locations := by
      rcases addEditorString_cases hsound hadd with
        ⟨-, -, rfl⟩ | ⟨-, -, strings, rfl, -⟩ <;> rfl
    rw [rescopeToEditor, htext]
    simp only [hadd]
    change (if newStringId = 0 then _ else _) = _
    rw [if_neg hne, hlocations]
    exact if_congr (by simp) rfl rfl
  rw [StaysInEditor, ← addEditorString_returns_iff hsound]
  constructor
  · rintro ⟨rescoped, hcall, htexts⟩
    cases hadd : scenario.addEditorString text with
    | error fault =>
        rw [rescopeToEditor, htext] at hcall
        simp only [hadd] at hcall
        cases hcall
    | ok result =>
        obtain ⟨newStringId, added⟩ := result
        rw [hbound hadd] at hcall
        split at hcall
        · cases hcall
        · next hinside =>
            cases hcall
            refine ⟨⟨newStringId, added, rfl⟩, ?_,
              (displayedTexts_movedToEditor_iff hsound hpos htext hadd).mp htexts⟩
            intro location hmem heq
            exact hinside ⟨location, hmem, heq⟩
  · rintro ⟨⟨newStringId, added, hadd⟩, hinside, hkept⟩
    refine ⟨_, (hbound hadd).trans (if_neg ?_),
      (displayedTexts_movedToEditor_iff hsound hpos htext hadd).mpr hkept⟩
    rintro ⟨location, hmem, heq⟩
    exact hinside location hmem heq

theorem rescopeToGame_keeps_iff (hsound : scenario.TablesSound) (hpos : 0 < stringId) {text : ScStr}
    (htext : getString scenario.editorTexts stringId = some text) :
    (∃ rescoped, scenario.rescopeToGame stringId = .ok rescoped ∧
        ∀ flag, rescoped.displayedTexts flag = scenario.displayedTexts flag) ↔
      scenario.StaysInGame stringId text := by
  have hbound : ∀ {newStringId : ℕ} {added : LoadedScenario},
      scenario.addString text = .ok (newStringId, added) →
      (scenario.rescopeToGame stringId =
        if 256 < scenario.locations.length then .error (.thrown .outOfRange)
        else .ok (added.movedToGame stringId newStringId)) := by
    intro newStringId added hadd
    have hne := addString_ne_zero hsound.str_pos hadd
    obtain ⟨strings, rfl, -⟩ := addString_spec hadd
    rw [rescopeToGame, htext]
    simp only [hadd]
    change (if newStringId = 0 then _ else _) = _
    rw [if_neg hne]
    rfl
  constructor
  · rintro ⟨rescoped, hcall, htexts⟩
    cases hadd : scenario.addString text with
    | error exception =>
        rw [rescopeToGame, htext] at hcall
        simp only [hadd] at hcall
        cases hcall
    | ok result =>
        obtain ⟨newStringId, added⟩ := result
        rw [hbound hadd] at hcall
        split at hcall
        · cases hcall
        · next hinside =>
            cases hcall
            exact ⟨newStringId, added, hadd, Nat.le_of_not_lt hinside,
              (displayedTexts_movedToGame_iff hsound hpos htext hadd).mp htexts⟩
  · rintro ⟨newStringId, added, hadd, hinside, hkept⟩
    exact ⟨_, (hbound hadd).trans (if_neg (Nat.not_lt.mpr hinside)),
      (displayedTexts_movedToGame_iff hsound hpos htext hadd).mpr hkept⟩

/-- No string is moved as asked, since the call returns no string.  If the
tables are sound, every text is kept exactly if no user of the string or of a
string that is replaced loses it. -/
theorem rescopeString_keepsTexts_iff (scenario : LoadedScenario)
    (stringId : ℕ) (changeStorageScopeTo : Scope) :
    (∀ storageScope, ¬ scenario.Rescopes stringId storageScope changeStorageScopeTo) ∧
    (scenario.TablesSound → 0 < stringId → (scenario.KeepsTexts stringId changeStorageScopeTo ↔
        scenario.TextsStay stringId changeStorageScopeTo)) := by
  refine ⟨fun storageScope => not_rescopes scenario stringId storageScope
    changeStorageScopeTo, fun hsound hpos => ?_⟩
  have hsame : ∀ {storageScope : Scope}, scenario.rescope stringId storageScope = .ok scenario →
        scenario.KeepsTexts stringId storageScope := fun hcall =>
    keepsTexts_iff.mpr ⟨scenario, hcall, fun _ => rfl⟩
  cases changeStorageScopeTo with
  | editor =>
      by_cases hused : scenario.stringUsed stringId .both .game .all true
      · have hstored : ∃ text, getString scenario.str.strings stringId = some text := by
          rw [stringUsed, Bool.and_eq_true, Bool.not_true, Bool.or_false] at hused
          obtain ⟨stored, hget⟩ := Option.isSome_iff_exists.mp hused.1
          exact ⟨_, getString_eq_some_iff.mpr ⟨stored, hget, rfl⟩⟩
        obtain ⟨text, htext⟩ := hstored
        have hcall : scenario.rescope stringId .editor =
            scenario.rescopeToEditor stringId := if_pos ⟨rfl, hused⟩
        rw [keepsTexts_iff, hcall, rescopeToEditor_keeps_iff hsound hpos htext]
        simp [TextsStay, hused, htext]
      · refine iff_of_true (hsame ?_) fun hyes => absurd hyes hused
        rw [rescope, if_neg fun hyes => hused hyes.2, if_neg fun hyes => Scope.noConfusion hyes.1]
  | game =>
      by_cases hused : scenario.stringUsed stringId .both .editor .all true
      · have hstored : ∃ text, getString scenario.editorTexts stringId = some text := by
          rw [stringUsed, Bool.and_eq_true, Bool.not_true, Bool.or_false] at hused
          obtain ⟨stored, hget⟩ := Option.isSome_iff_exists.mp hused.1
          refine ⟨_, getString_eq_some_iff.mpr ⟨stored.chars, ?_, rfl⟩⟩
          rw [editorTexts, getD_map_chars, hget, Option.map_some]
        obtain ⟨text, htext⟩ := hstored
        have hcall : scenario.rescope stringId .game = scenario.rescopeToGame stringId := by
          rw [rescope, if_neg fun hyes => Scope.noConfusion hyes.1, if_pos ⟨rfl, hused⟩]
        rw [keepsTexts_iff, hcall, rescopeToGame_keeps_iff hsound hpos htext]
        simp [TextsStay, hused, htext]
      · refine iff_of_true (hsame ?_) fun hyes => absurd hyes hused
        rw [rescope, if_neg fun hyes => Scope.noConfusion hyes.1, if_neg fun hyes => hused hyes.2]
  | _ => exact iff_of_true (hsame rfl) trivial

end LoadedScenario

end Chkdraft.Scenario
