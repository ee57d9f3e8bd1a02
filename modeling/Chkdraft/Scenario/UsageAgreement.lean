import Chkdraft.Scenario.StringUsage

/-!
# Where the queries for string users agree

The bulk query of every part of a scenario sets the ids for which its point
query answers yes, so the two queries can only differ where they delegate
differently: the bulk query passes on no mask for game users, the point query
asks KTRG in the wrong place or not at all and OSTR without a mask.
-/

namespace Chkdraft.Scenario

open BitSet Chk Sections

variable {stringId : ℕ}

theorem insideSet_iff : insideSet stringId = true ↔ 0 < stringId ∧ stringId < maxStrings := by
  simp [insideSet]

theorem nonZero_iff : nonZero stringId = true ↔ 0 < stringId := by
  simp [nonZero]

/-- For ids of the bit set no cast changes the id that is asked for. -/
theorem holdsCast_iff {width : ℕ} (hwidth : 16 ≤ width)
    (hlt : stringId < maxStrings) (fields : List ℕ) :
    holdsCast width fields stringId = true ↔ stringId ∈ fields := by
  have hpow : 2 ^ 16 ≤ 2 ^ width := Nat.pow_le_pow_right (by decide) hwidth
  have hmod : stringId % 2 ^ width = stringId := Nat.mod_eq_of_lt (lt_of_lt_of_le hlt hpow)
  simp [holdsCast, hmod]

/-- Marking the ids of a list that pass the test for 32-bit ids. -/
theorem marks_insideSet (entries : List ℕ) : Marks (markAll maxStrings insideSet entries) True
      {index | insideSet index = true ∧ index ∈ entries} := by
  apply (marks_markAll maxStrings insideSet entries).congr
  · exact iff_of_true (fun entry _ hinside => (insideSet_iff.mp hinside).2)
      trivial
  · rfl

theorem marks_nonZero {entries : List ℕ} (hbound : ∀ entry ∈ entries, entry < maxStrings) :
    Marks (markAll maxStrings nonZero entries) True
      {index | insideSet index = true ∧ index ∈ entries} := by
  apply (marks_markAll maxStrings nonZero entries).congr
  · exact iff_of_true (fun entry hentry _ => hbound entry hentry) trivial
  · ext index
    simp only [Set.mem_ofPred_eq, nonZero_iff, insideSet_iff]
    constructor
    · rintro ⟨hpos, hmem⟩
      exact ⟨⟨hpos, hbound index hmem⟩, hmem⟩
    · rintro ⟨⟨hpos, -⟩, hmem⟩
      exact ⟨hpos, hmem⟩

theorem marks_markAction (usesString usesSound : UInt8 → Bool)
    (texts sounds : Bool) (action : Action) :
    Marks (markAction usesString usesSound texts sounds action) True
      {index | insideSet index = true ∧
        actionHolds usesString usesSound texts sounds index action = true} := by
  have hboth := ((marks_insideSet [action.stringId.toNat]).when
    (texts && usesString action.actionType)).bind
      ((marks_insideSet [action.soundStringId.toNat]).when (sounds && usesSound action.actionType))
  apply hboth.congr
  · simp
  · ext index
    simp only [Set.mem_union, Set.mem_ofPred_eq, List.mem_singleton,
      actionHolds, Bool.or_eq_true, Bool.and_eq_true, decide_eq_true_eq]
    tauto

/-- The bulk query of a section of triggers sets the ids inside the set for
which its point query answers yes. -/
theorem marks_markTriggers (usesString usesSound : UInt8 → Bool)
    (texts sounds : Bool) (triggers : List Trigger) :
    Marks (markTriggers usesString usesSound texts sounds triggers) True
      {index | insideSet index = true ∧
        triggersHold usesString usesSound texts sounds index triggers = true} := by
  have htrigger : ∀ trigger : Trigger, Marks
      (fun bits => trigger.actions.toList.foldlM (fun bits action =>
        markAction usesString usesSound texts sounds action bits) bits)
      (∀ action ∈ trigger.actions.toList, True)
      {index | ∃ action ∈ trigger.actions.toList, index ∈
        {index | insideSet index = true ∧
          actionHolds usesString usesSound texts sounds index action = true}} :=
    fun trigger => Marks.foldlM (marks_markAction usesString usesSound texts sounds)
      trigger.actions.toList
  apply (Marks.foldlM htrigger triggers).congr
  · simp
  · ext index
    simp only [Set.mem_ofPred_eq, triggersHold, List.any_eq_true]
    constructor
    · rintro ⟨trigger, htrigger, action, haction, hinside, hholds⟩
      exact ⟨hinside, trigger, htrigger, action, haction, hholds⟩
    · rintro ⟨hinside, trigger, htrigger, action, haction, hholds⟩
      exact ⟨trigger, htrigger, action, haction, hinside, hholds⟩

namespace LoadedScenario

variable (scenario : LoadedScenario) (userMask : UserMask)

theorem lt_of_mem_toNat16 {fields : List UInt16}
    (hmem : stringId ∈ fields.map UInt16.toNat) : stringId < maxStrings := by
  obtain ⟨field, -, rfl⟩ := List.mem_map.mp hmem
  exact field.toNat_lt

/-- Marking 16-bit fields when the mask says so, and asking them. -/
theorem marks_fields16 (flag : StringUserFlag) (fields : List UInt16)
    (hids : scenario.gameStringIds flag = fields.map UInt16.toNat)
    (counts : Bool) :
    Marks (BitSet.when counts (scenario.markGameIds flag)) True
      {index | insideSet index = true ∧ (counts &&
        holdsCast 16 (fields.map UInt16.toNat) index) = true} := by
  have hmarks : Marks (scenario.markGameIds flag) True
      {index | insideSet index = true ∧ index ∈ fields.map UInt16.toNat} := by
    rw [← hids]
    apply marks_nonZero
    intro entry hentry
    rw [hids] at hentry
    exact lt_of_mem_toNat16 hentry
  apply (hmarks.when counts).congr
  · simp
  · ext index
    simp only [Set.mem_ofPred_eq, Bool.and_eq_true]
    constructor
    · rintro ⟨hcounts, hinside, hmem⟩
      exact ⟨hinside, hcounts, (holdsCast_iff le_rfl (insideSet_iff.mp hinside).2 _).mpr hmem⟩
    · rintro ⟨hinside, hcounts, hholds⟩
      exact ⟨hcounts, hinside, (holdsCast_iff le_rfl (insideSet_iff.mp hinside).2 _).mp hholds⟩

/-- Marking 32-bit fields when the mask says so, and asking them. -/
theorem marks_fields32 (counts : Bool) (fields : List ℕ) :
    Marks (BitSet.when counts (markAll maxStrings insideSet fields)) True
      {index | insideSet index = true ∧ (counts && holdsCast 32 fields index) = true} := by
  apply ((marks_insideSet fields).when counts).congr
  · simp
  · ext index
    simp only [Set.mem_ofPred_eq, Bool.and_eq_true]
    constructor
    · rintro ⟨hcounts, hinside, hmem⟩
      exact ⟨hinside, hcounts, (holdsCast_iff (by decide) (insideSet_iff.mp hinside).2 _).mpr hmem⟩
    · rintro ⟨hinside, hcounts, hholds⟩
      exact ⟨hcounts, hinside, (holdsCast_iff (by decide) (insideSet_iff.mp hinside).2 _).mp hholds⟩

theorem marks_section (counts : Bool) {routine : Bits → Except Hazard Bits}
    {holds : ℕ → Bool} (hmarks : Marks routine True
      {index | insideSet index = true ∧ holds index = true}) :
    Marks (BitSet.when counts routine) True
      {index | insideSet index = true ∧ (counts && holds index) = true} := by
  apply (hmarks.when counts).congr
  · simp
  · ext index
    simp only [Set.mem_ofPred_eq, Bool.and_eq_true]
    tauto

/-- Two bulk queries one after the other, and both point queries. -/
theorem marks_both {first second : Bits → Except Hazard Bits}
    {left right : ℕ → Bool}
    (hfirst : Marks first True
      {index | insideSet index = true ∧ left index = true})
    (hsecond : Marks second True
      {index | insideSet index = true ∧ right index = true}) :
    Marks (fun bits => first bits >>= second) True
      {index | insideSet index = true ∧ (left index || right index) = true} := by
  apply (hfirst.bind hsecond).congr
  · simp
  · ext index
    simp only [Set.mem_union, Set.mem_ofPred_eq, Bool.or_eq_true]
    tauto

theorem marks_sprp : Marks (scenario.sprpMarkUsedStrings userMask) True
      {index | insideSet index = true ∧ scenario.sprpStringUsed index userMask = true} :=
  marks_both (scenario.marks_fields16 .scenarioName [scenario.scenarioNameStringId] rfl
      (userMask .scenarioName))
    (scenario.marks_fields16 .scenarioDescription [scenario.scenarioDescriptionStringId] rfl
      (userMask .scenarioDescription))

theorem marks_players : Marks (scenario.playersMarkUsedStrings userMask) True
      {index | insideSet index = true ∧ scenario.playersStringUsed index userMask = true} :=
  scenario.marks_fields16 .force _ rfl (userMask .force)

theorem marks_properties : Marks (scenario.propertiesMarkUsedStrings userMask) True
      {index | insideSet index = true ∧ scenario.propertiesStringUsed index userMask = true} :=
  marks_both (scenario.marks_fields16 .originalUnitSettings _ rfl (userMask .originalUnitSettings))
    (scenario.marks_fields16 .expansionUnitSettings _ rfl (userMask .expansionUnitSettings))

theorem marks_layers : Marks (scenario.layersMarkUsedStrings userMask) True
      {index | insideSet index = true ∧ scenario.layersStringUsed index .game userMask = true} := by
  have hids : scenario.gameStringIds .location =
      (scenario.locations.tail.map Location.stringId).map UInt16.toNat := by
    rw [List.map_map]
    rfl
  have hmarks := scenario.marks_fields16 .location _ hids (userMask .location)
  rw [List.map_map] at hmarks
  exact hmarks

/-- `Triggers::markUsedStrings` for game storage. -/
theorem marks_triggers : Marks (scenario.triggersMarkUsedStrings .game userMask) True
      {index | insideSet index = true ∧
        scenario.triggersStringUsed index .game userMask = true} := by
  have hmarks := marks_both (marks_fields32 (userMask .sound) (scenario.gameStringIds .sound))
    (marks_both (marks_fields32 (userMask .switch) (scenario.gameStringIds .switch))
      (marks_both (marks_section userMask.anyTrigger (marks_markTriggers
          actionUsesStringArg actionUsesSoundArg (userMask .triggerAction)
          (userMask .triggerActionSound) scenario.trig))
        (marks_section userMask.anyBriefingTrigger (marks_markTriggers
          briefingActionUsesStringArg briefingActionUsesSoundArg
          (userMask .briefingTriggerAction)
          (userMask .briefingTriggerActionSound) scenario.mbrf))))
  apply hmarks.congr Iff.rfl
  ext index
  simp only [Set.mem_ofPred_eq, triggersStringUsed, Bool.or_assoc]
  rfl

/-- `Triggers::markUsedGameStrings` sets what its point query answers without
a mask, as soon as the mask has either kind of action field. -/
theorem marks_gameTriggers : Marks (scenario.triggersMarkUsedGameStrings userMask) True
      {index | insideSet index = true ∧
        (userMask.anyTrigger && scenario.trigGameStringUsed index .all ||
          userMask.anyBriefingTrigger && scenario.mbrfStringUsed index .all) = true} :=
  marks_both (marks_section userMask.anyTrigger (marks_markTriggers
      actionUsesGameStringArg actionUsesSoundArg true true scenario.trig))
    (marks_section userMask.anyBriefingTrigger (marks_markTriggers
      briefingActionUsesStringArg briefingActionUsesSoundArg true true
      scenario.mbrf))

/-- `Triggers::markUsedEditorStrings` for game storage leaves KTRG out. -/
theorem marks_editorTriggers : Marks (scenario.triggersMarkUsedEditorStrings .game userMask) True
      {index | insideSet index = true ∧ (userMask .sound && scenario.wavStringUsed index ||
          userMask .switch && scenario.swnmStringUsed index ||
          userMask .triggerAction && scenario.trigCommentStringUsed index) = true} := by
  have hmarks := marks_both (marks_fields32 (userMask .sound) (scenario.gameStringIds .sound))
    (marks_both (marks_fields32 (userMask .switch) (scenario.gameStringIds .switch))
      (marks_section (userMask .triggerAction) (marks_markTriggers
        isComment usesNone true false scenario.trig)))
  apply hmarks.congr Iff.rfl
  ext index
  simp only [Set.mem_ofPred_eq, Bool.or_assoc]
  rfl

end LoadedScenario

/-- The ids in one field of the actions whose types use it. -/
theorem mem_actionIds_iff {uses : UInt8 → Bool} {field : Action → UInt32}
    {triggers : List Trigger} :
    stringId ∈ (triggers.flatMap fun trigger =>
        (trigger.actions.toList.filter fun action =>
          uses action.actionType).map field).map UInt32.toNat ↔
      ∃ trigger ∈ triggers, ∃ action ∈ trigger.actions.toList,
        uses action.actionType = true ∧ (field action).toNat = stringId := by
  simp only [List.mem_map, List.mem_flatMap, List.mem_filter]
  constructor
  · rintro ⟨word, ⟨trigger, htrigger, action, ⟨haction, huses⟩, rfl⟩, hword⟩
    exact ⟨trigger, htrigger, action, haction, huses, hword⟩
  · rintro ⟨trigger, htrigger, action, haction, huses, hword⟩
    exact ⟨_, ⟨trigger, htrigger, action, ⟨haction, huses⟩, rfl⟩, hword⟩

theorem triggersHold_iff {usesString usesSound : UInt8 → Bool}
    {texts sounds : Bool} {triggers : List Trigger} :
    triggersHold usesString usesSound texts sounds stringId triggers = true ↔
      texts = true ∧ stringId ∈ (triggers.flatMap fun trigger =>
          (trigger.actions.toList.filter fun action =>
            usesString action.actionType).map Action.stringId).map UInt32.toNat ∨
        sounds = true ∧ stringId ∈ (triggers.flatMap fun trigger =>
          (trigger.actions.toList.filter fun action =>
            usesSound action.actionType).map Action.soundStringId).map UInt32.toNat := by
  simp only [mem_actionIds_iff, triggersHold, List.any_eq_true, actionHolds,
    Bool.or_eq_true, Bool.and_eq_true, decide_eq_true_eq]
  constructor
  · rintro ⟨trigger, htrigger, action, haction, ⟨⟨htexts, huses⟩, hid⟩ | ⟨⟨hsounds, huses⟩, hid⟩⟩
    · exact Or.inl ⟨htexts, trigger, htrigger, action, haction, huses, hid⟩
    · exact Or.inr ⟨hsounds, trigger, htrigger, action, haction, huses, hid⟩
  · rintro (⟨htexts, trigger, htrigger, action, haction, huses, hid⟩ |
      ⟨hsounds, trigger, htrigger, action, haction, huses, hid⟩)
    · exact ⟨trigger, htrigger, action, haction, Or.inl ⟨⟨htexts, huses⟩, hid⟩⟩
    · exact ⟨trigger, htrigger, action, haction, Or.inr ⟨⟨hsounds, huses⟩, hid⟩⟩

theorem StringUserFlag.exists_iff {holds : StringUserFlag → Prop} : (∃ flag, holds flag) ↔
      holds .scenarioName ∨ holds .scenarioDescription ∨ holds .force ∨
        holds .originalUnitSettings ∨ holds .expansionUnitSettings ∨
        holds .location ∨ holds .sound ∨ holds .switch ∨
        holds .triggerAction ∨ holds .triggerActionSound ∨
        holds .briefingTriggerAction ∨ holds .briefingTriggerActionSound ∨
        holds .extendedTriggerComment ∨ holds .extendedTriggerNotes := by
  constructor
  · rintro ⟨flag, hflag⟩
    cases flag <;> tauto
  · rintro (h | h | h | h | h | h | h | h | h | h | h | h | h | h) <;>
      exact ⟨_, h⟩

namespace LoadedScenario

variable (scenario : LoadedScenario) (userMask : UserMask)

/-- The texts of trigger actions other than comments. -/
def gameTextIds : List ℕ := (scenario.trig.flatMap fun trigger =>
    (trigger.actions.toList.filter fun action =>
      actionUsesGameStringArg action.actionType).map Action.stringId).map UInt32.toNat

def commentIds : List ℕ := (scenario.trig.flatMap fun trigger =>
    (trigger.actions.toList.filter fun action =>
      isComment action.actionType).map Action.stringId).map UInt32.toNat

theorem trigStringUsed_iff : scenario.trigStringUsed stringId userMask = true ↔
      userMask .triggerAction = true ∧ stringId ∈ scenario.gameStringIds .triggerAction ∨
        userMask .triggerActionSound = true ∧
          stringId ∈ scenario.gameStringIds .triggerActionSound :=
  triggersHold_iff

theorem trigGameStringUsed_iff : scenario.trigGameStringUsed stringId userMask = true ↔
      userMask .triggerAction = true ∧ stringId ∈ scenario.gameTextIds ∨
        userMask .triggerActionSound = true ∧
          stringId ∈ scenario.gameStringIds .triggerActionSound :=
  triggersHold_iff

theorem trigCommentStringUsed_iff : scenario.trigCommentStringUsed stringId = true ↔
      stringId ∈ scenario.commentIds := by
  have hnone : ∀ trigger : Trigger, trigger.actions.toList.filter (fun action =>
        usesNone action.actionType) = [] := fun trigger =>
    List.filter_eq_nil_iff.mpr fun action _ => Bool.false_ne_true
  rw [trigCommentStringUsed, triggersHold_iff]
  simp [commentIds]

theorem mbrfStringUsed_iff : scenario.mbrfStringUsed stringId userMask = true ↔
      userMask .briefingTriggerAction = true ∧
          stringId ∈ scenario.gameStringIds .briefingTriggerAction ∨
        userMask .briefingTriggerActionSound = true ∧
          stringId ∈ scenario.gameStringIds .briefingTriggerActionSound :=
  triggersHold_iff

/-- The test in front of TRIG repeats what the section tests. -/
theorem anyTrigger_and_iff (stringId : ℕ) : (userMask.anyTrigger = true ∧
        scenario.trigStringUsed stringId userMask = true) ↔
      userMask .triggerAction = true ∧ stringId ∈ scenario.gameStringIds .triggerAction ∨
        userMask .triggerActionSound = true ∧
          stringId ∈ scenario.gameStringIds .triggerActionSound := by
  rw [trigStringUsed_iff, UserMask.anyTrigger, Bool.or_eq_true]
  tauto

theorem anyBriefingTrigger_and_iff (stringId : ℕ) : (userMask.anyBriefingTrigger = true ∧
        scenario.mbrfStringUsed stringId userMask = true) ↔
      userMask .briefingTriggerAction = true ∧
          stringId ∈ scenario.gameStringIds .briefingTriggerAction ∨
        userMask .briefingTriggerActionSound = true ∧
          stringId ∈ scenario.gameStringIds .briefingTriggerActionSound := by
  rw [mbrfStringUsed_iff, UserMask.anyBriefingTrigger, Bool.or_eq_true]
  tauto

theorem narrowStringUsed_both_iff (hlt : stringId < maxStrings) :
    scenario.narrowStringUsed stringId userMask .both = true ↔
      ∃ flag, userMask flag = true ∧ stringId ∈ scenario.gameStringIds flag := by
  have h16 := fun fields : List ℕ =>
    @holdsCast_iff stringId 16 le_rfl hlt fields
  have h32 := fun fields : List ℕ =>
    @holdsCast_iff stringId 32 (by decide) hlt fields
  have htrigger := scenario.anyTrigger_and_iff userMask stringId
  have hbriefing := scenario.anyBriefingTrigger_and_iff userMask stringId
  simp only [narrowStringUsed, Bool.or_eq_true, sprpStringUsed, playersStringUsed,
    propertiesStringUsed, layersStringUsed, triggersStringUsed, mrgnStringUsed,
    wavStringUsed, swnmStringUsed, Bool.and_eq_true, h16, h32, htrigger, hbriefing,
    StringUserFlag.exists_iff, or_assoc]
  simp only [gameStringIds, List.not_mem_nil, and_false, or_false]

theorem marks_gameStorage_both : Marks (scenario.markUsedStrings .both .game userMask) True
      {index | scenario.marksGameString userMask index} := by
  have hmarks := marks_both (scenario.marks_sprp userMask)
    (marks_both (scenario.marks_players userMask) (marks_both (scenario.marks_properties userMask)
        (scenario.marks_triggers userMask)))
  have hlayers := (scenario.marks_layers userMask).bind Marks.nothing
  apply (hmarks.bind hlayers).congr
  · simp
  · ext index
    have hused := fun hlt : index < maxStrings =>
      scenario.narrowStringUsed_both_iff userMask hlt
    simp only [Set.mem_union, Set.mem_ofPred_eq, Set.union_empty,
      marksGameString, insideSet_iff, narrowStringUsed, Bool.or_eq_true]
      at hused ⊢
    constructor
    · rintro (⟨⟨hpos, hlt⟩, hparts⟩ | ⟨⟨hpos, hlt⟩, hparts⟩)
      · exact ⟨hpos, hlt, (hused hlt).mp (by tauto)⟩
      · exact ⟨hpos, hlt, (hused hlt).mp (by tauto)⟩
    · rintro ⟨hpos, hlt, hexists⟩
      have hparts := (hused hlt).mpr hexists
      tauto

theorem marks_gameStorage_game : Marks (scenario.markUsedStrings .game .game userMask) True
      {index | insideSet index = true ∧ (scenario.sprpStringUsed index userMask ||
          (scenario.playersStringUsed index userMask ||
            (scenario.propertiesStringUsed index userMask ||
              (userMask.anyTrigger && scenario.trigGameStringUsed index .all ||
                userMask.anyBriefingTrigger && scenario.mbrfStringUsed index .all)))) = true} := by
  have hmarks := marks_both (scenario.marks_sprp userMask)
    (marks_both (scenario.marks_players userMask) (marks_both (scenario.marks_properties userMask)
        (scenario.marks_gameTriggers userMask)))
  apply (hmarks.bind Marks.nothing).congr
  · simp
  · simp

theorem marks_gameStorage_editor : Marks (scenario.markUsedStrings .editor .game userMask) True
      {index | insideSet index = true ∧ (scenario.layersStringUsed index .game userMask ||
          (userMask .sound && scenario.wavStringUsed index ||
            userMask .switch && scenario.swnmStringUsed index ||
            userMask .triggerAction && scenario.trigCommentStringUsed index)) = true} :=
  (Marks.nothing.bind (marks_both (scenario.marks_layers userMask)
    (scenario.marks_editorTriggers userMask))).congr (by simp) (by simp)

/-- A storage scope other than `Game` and `Editor` marks nothing, and neither
does a usage scope other than these and `Both`. -/
theorem markUsedStrings_eq_ok {usageScope storageScope : Scope}
    (hscope : storageScope ≠ .game ∧ storageScope ≠ .editor ∨
      storageScope = .game ∧ usageScope.hasGame = false ∧
        usageScope.hasEditor = false) (bits : Bits) :
    scenario.markUsedStrings usageScope storageScope userMask bits = .ok bits := by
  rcases hscope with ⟨hgame, heditor⟩ | ⟨rfl, hgame, heditor⟩
  · cases storageScope with
    | game => exact absurd rfl hgame
    | editor => exact absurd rfl heditor
    | _ => rfl
  · rw [markUsedStrings, hgame, heditor]
    rfl

/-- The kinds of users OSTR holds ids for. -/
def ostrFlags : List StringUserFlag :=
  [.scenarioName, .scenarioDescription, .force, .originalUnitSettings,
    .expansionUnitSettings, .sound, .switch, .location]

/-- The kinds of users KTRG holds ids for. -/
def ktrgFlags : List StringUserFlag := [.extendedTriggerComment, .extendedTriggerNotes]

/-- Every user of editor strings is in one of the two sections. -/
theorem mem_flags_of_mem_editorStringIds {flag : StringUserFlag}
    (hmem : stringId ∈ scenario.editorStringIds flag) :
    flag ∈ ostrFlags ∨ flag ∈ ktrgFlags := by
  cases flag with
  | triggerAction => cases hmem
  | triggerActionSound => cases hmem
  | briefingTriggerAction => cases hmem
  | briefingTriggerActionSound => cases hmem
  | extendedTriggerComment => exact Or.inr (by decide)
  | extendedTriggerNotes => exact Or.inr (by decide)
  | _ => exact Or.inl (by decide)

theorem ostrStringUsed_iff : scenario.ostrStringUsed stringId = true ↔
      ∃ flag ∈ ostrFlags, stringId ∈ scenario.editorStringIds flag := by
  simp [ostrStringUsed, ostrFlags]

theorem ktrgEditorStringUsed_iff : scenario.ktrgEditorStringUsed stringId userMask = true ↔
      userMask .extendedTriggerComment = true ∧
          stringId ∈ scenario.editorStringIds .extendedTriggerComment ∨
        userMask .extendedTriggerNotes = true ∧
          stringId ∈ scenario.editorStringIds .extendedTriggerNotes := by
  simp only [ktrgEditorStringUsed, editorStringIds, List.any_eq_true,
    List.mem_map, Bool.or_eq_true, Bool.and_eq_true, decide_eq_true_eq]
  constructor
  · rintro ⟨extendedTrig, hmem, ⟨hmask, hid⟩ | ⟨hmask, hid⟩⟩
    · exact Or.inl ⟨hmask, extendedTrig, hmem, hid⟩
    · exact Or.inr ⟨hmask, extendedTrig, hmem, hid⟩
  · rintro (⟨hmask, extendedTrig, hmem, hid⟩ | ⟨hmask, extendedTrig, hmem, hid⟩)
    · exact ⟨extendedTrig, hmem, Or.inl ⟨hmask, hid⟩⟩
    · exact ⟨extendedTrig, hmem, Or.inr ⟨hmask, hid⟩⟩

/-- The ids of the users a mask selects all lie in the bit set. -/
def EditorIdsFit : Prop :=
  ∀ flag, userMask flag = true → ∀ stringId ∈ scenario.editorStringIds flag, stringId < maxStrings

theorem marks_editorIds (entries : List ℕ) : Marks (markAll maxStrings nonZero entries)
      (∀ stringId ∈ entries, stringId < maxStrings)
      {index | 0 < index ∧ index ∈ entries} := by
  apply (marks_markAll maxStrings nonZero entries).congr
  · constructor
    · intro hfits stringId hmem
      rcases Nat.eq_zero_or_pos stringId with rfl | hpos
      · decide
      · exact hfits stringId hmem (nonZero_iff.mpr hpos)
    · intro hfits stringId hmem _
      exact hfits stringId hmem
  · ext index
    simp only [Set.mem_ofPred_eq, nonZero_iff]

theorem marks_ostr : Marks (scenario.ostrMarkUsedStrings userMask)
      (∀ flag ∈ ostrFlags, userMask flag = true →
        ∀ stringId ∈ scenario.editorStringIds flag, stringId < maxStrings)
      {index | 0 < index ∧ ∃ flag ∈ ostrFlags, userMask flag = true ∧
        index ∈ scenario.editorStringIds flag} := by
  have hflag := fun flag =>
    (marks_editorIds (scenario.editorStringIds flag)).when (userMask flag)
  apply (Marks.foldlM hflag ostrFlags).congr Iff.rfl
  ext index
  constructor
  · rintro ⟨flag, hflag, hmask, hpos, hmem⟩
    exact ⟨hpos, flag, hflag, hmask, hmem⟩
  · rintro ⟨hpos, flag, hflag, hmask, hmem⟩
    exact ⟨flag, hflag, hmask, hpos, hmem⟩

theorem marks_ktrg : Marks (scenario.ktrgMarkUsedEditorStrings userMask)
      (∀ flag ∈ ktrgFlags, userMask flag = true →
        ∀ stringId ∈ scenario.editorStringIds flag, stringId < maxStrings)
      {index | 0 < index ∧ scenario.ktrgEditorStringUsed index userMask = true} := by
  have hentry := fun extendedTrig : ExtendedTrigData =>
    ((marks_editorIds [extendedTrig.commentStringId.toNat]).when
      (userMask .extendedTriggerComment)).bind
        ((marks_editorIds [extendedTrig.notesStringId.toNat]).when (userMask .extendedTriggerNotes))
  apply (Marks.foldlM hentry scenario.ktrg.reduceOption).congr
  · simp only [ktrgFlags, forall_eq, List.mem_cons, List.not_mem_nil,
      or_false, forall_eq_or_imp, editorStringIds, List.forall_mem_map]
    constructor
    · intro hfits
      exact ⟨fun hmask extendedTrig hmem => (hfits extendedTrig hmem).1 hmask,
        fun hmask extendedTrig hmem => (hfits extendedTrig hmem).2 hmask⟩
    · rintro ⟨hcomment, hnotes⟩ extendedTrig hmem
      exact ⟨fun hmask => hcomment hmask extendedTrig hmem,
        fun hmask => hnotes hmask extendedTrig hmem⟩
  · ext index
    simp only [Set.mem_union, Set.mem_ofPred_eq, List.mem_singleton, ktrgEditorStringUsed,
      List.any_eq_true, Bool.or_eq_true, Bool.and_eq_true, decide_eq_true_eq]
    constructor
    · rintro ⟨extendedTrig, hmem, ⟨hmask, hpos, hid⟩ | ⟨hmask, hpos, hid⟩⟩
      · exact ⟨hpos, extendedTrig, hmem, Or.inl ⟨hmask, hid.symm⟩⟩
      · exact ⟨hpos, extendedTrig, hmem, Or.inr ⟨hmask, hid.symm⟩⟩
    · rintro ⟨hpos, extendedTrig, hmem, ⟨hmask, hid⟩ | ⟨hmask, hid⟩⟩
      · exact ⟨extendedTrig, hmem, Or.inl ⟨hmask, hpos, hid.symm⟩⟩
      · exact ⟨extendedTrig, hmem, Or.inr ⟨hmask, hpos, hid.symm⟩⟩

/-- The bulk query for editor storage sets the ids the selected users hold; it
leaves the set when one of them does not fit. -/
theorem marks_editorStorage (usageScope : Scope) :
    Marks (scenario.markUsedStrings usageScope .editor userMask) (scenario.EditorIdsFit userMask)
      {index | scenario.marksEditorString userMask index} := by
  have hktrg := (scenario.marks_ktrg userMask).when userMask.anyTriggerExtension
  have hany : ∀ flag ∈ ktrgFlags, userMask flag = true → userMask.anyTriggerExtension = true := by
    intro flag hflag hmask
    simp only [ktrgFlags, List.mem_cons, List.not_mem_nil, or_false] at hflag
    rcases hflag with rfl | rfl <;> simp [UserMask.anyTriggerExtension, hmask]
  apply ((scenario.marks_ostr userMask).bind hktrg).congr
  · constructor
    · rintro ⟨hostr, hextended⟩ flag hmask stringId hmem
      rcases scenario.mem_flags_of_mem_editorStringIds hmem with hflag | hflag
      · exact hostr flag hflag hmask stringId hmem
      · exact hextended (hany flag hflag hmask) flag hflag hmask stringId hmem
    · intro hfits
      exact ⟨fun flag _ => hfits flag, fun _ flag _ => hfits flag⟩
  · ext index
    simp only [Set.mem_union, Set.mem_ofPred_eq, ktrgEditorStringUsed_iff, marksEditorString]
    constructor
    · rintro (⟨hpos, flag, -, hmask, hmem⟩ | ⟨-, hpos, hmem | hmem⟩)
      · exact ⟨hpos, flag, hmask, hmem⟩
      · exact ⟨hpos, _, hmem⟩
      · exact ⟨hpos, _, hmem⟩
    · rintro ⟨hpos, flag, hmask, hmem⟩
      rcases scenario.mem_flags_of_mem_editorStringIds hmem with hflag | hflag
      · exact Or.inl ⟨hpos, flag, hflag, hmask, hmem⟩
      · refine Or.inr ⟨hany flag hflag hmask, hpos, ?_⟩
        simp only [ktrgFlags, List.mem_cons, List.not_mem_nil, or_false] at hflag
        rcases hflag with rfl | rfl
        · exact Or.inl ⟨hmask, hmem⟩
        · exact Or.inr ⟨hmask, hmem⟩

end LoadedScenario

namespace LoadedScenario

variable (scenario : LoadedScenario) (userMask : UserMask) (stringId : ℕ)

/-- Users of names that are shown in the game. -/
def nameFlags : List StringUserFlag :=
  [.scenarioName, .scenarioDescription, .force, .originalUnitSettings, .expansionUnitSettings]

/-- A user for which the point query of game usage answers yes. -/
def HasGameUser : Prop :=
  (∃ flag ∈ nameFlags, userMask flag = true ∧ stringId ∈ scenario.gameStringIds flag) ∨
    userMask .triggerAction = true ∧ stringId ∈ scenario.gameTextIds ∨
    userMask .triggerActionSound = true ∧ stringId ∈ scenario.gameStringIds .triggerActionSound ∨
    userMask.anyBriefingTrigger = true ∧ (stringId ∈ scenario.gameStringIds .briefingTriggerAction ∨
        stringId ∈ scenario.gameStringIds .briefingTriggerActionSound)

/-- A user of names that only an editor shows. -/
def HasEditorUser : Prop := (∃ flag ∈ [StringUserFlag.location, .sound, .switch],
      userMask flag = true ∧ stringId ∈ scenario.gameStringIds flag) ∨
    userMask .triggerAction = true ∧ stringId ∈ scenario.commentIds

/-- When the queries agree for game storage.  For game usage the bulk query
takes texts and sounds of actions as soon as the mask has one of them; for
editor usage the point query takes KTRG as well; and the scopes without a bit
of their own count for the point query as both. -/
def GameQueriesAgree : Scope → Prop
  | .both => True
  | .game =>
      userMask .triggerAction ≠ userMask .triggerActionSound →
      (userMask .triggerAction = false ∧ stringId ∈ scenario.gameTextIds ∨
        userMask .triggerActionSound = false ∧
          stringId ∈ scenario.gameStringIds .triggerActionSound) →
      scenario.HasGameUser userMask stringId
  | .editor =>
      (∃ flag ∈ ktrgFlags, userMask flag = true ∧ stringId ∈ scenario.editorStringIds flag) →
      scenario.HasEditorUser userMask stringId
  | .none | .gameOverEditor | .editorOverGame =>
      ∀ flag, userMask flag = true → stringId ∉ scenario.gameStringIds flag

/-- When the queries agree for editor storage: no selected id lies outside the
bit set, an id in OSTR has a selected user, and an id of a selected user in
KTRG is in OSTR too. -/
def EditorQueriesAgree : Prop :=
  scenario.EditorIdsFit userMask ∧ (∀ flag ∈ ostrFlags, stringId ∈ scenario.editorStringIds flag →
      ∃ other, userMask other = true ∧ stringId ∈ scenario.editorStringIds other) ∧
    ∀ flag ∈ ktrgFlags, userMask flag = true → stringId ∈ scenario.editorStringIds flag →
      ∃ other ∈ ostrFlags, stringId ∈ scenario.editorStringIds other

def QueriesAgree (usageScope : Scope) : Scope → Prop
  | .game => scenario.GameQueriesAgree userMask stringId usageScope
  | .editor => scenario.EditorQueriesAgree userMask stringId
  | .none | .gameOverEditor | .editorOverGame | .both => True

section Inside

variable {scenario userMask stringId} (hpos : 0 < stringId) (hlt : stringId < maxStrings)

include hlt in
theorem exists_nameFlags_iff : (∃ flag ∈ nameFlags, userMask flag = true ∧
        stringId ∈ scenario.gameStringIds flag) ↔
      scenario.sprpStringUsed stringId userMask = true ∨
        scenario.playersStringUsed stringId userMask = true ∨
        scenario.propertiesStringUsed stringId userMask = true := by
  have h16 := fun fields : List ℕ =>
    @holdsCast_iff stringId 16 le_rfl hlt fields
  simp only [nameFlags, List.mem_cons, List.not_mem_nil, or_false,
    exists_eq_or_imp, exists_eq_left, sprpStringUsed, playersStringUsed,
    propertiesStringUsed, Bool.or_eq_true, Bool.and_eq_true, h16, or_assoc]
  simp only [gameStringIds, List.mem_singleton]

/-- Taking both fields of an action as soon as one is asked for differs from
taking those asked for only through the other field. -/
theorem fields_agree_iff (texts sounds : Bool)
    {names text sound briefing : Prop} :
    ((names ∨ (texts = true ∨ sounds = true) ∧
          (texts = true ∧ text ∨ sounds = true ∧ sound) ∨ briefing) ↔
        (names ∨ (texts = true ∨ sounds = true) ∧ (text ∨ sound) ∨ briefing)) ↔
      (texts ≠ sounds → (texts = false ∧ text ∨ sounds = false ∧ sound) →
        names ∨ texts = true ∧ text ∨ sounds = true ∧ sound ∨ briefing) := by
  cases texts <;> cases sounds <;> simp <;> tauto

include hpos hlt in
theorem gameQueriesAgree_game_iff :
    (∃ bits, scenario.markUsedStrings .game .game userMask (fun _ => false) = .ok bits ∧
      (scenario.narrowStringUsed stringId userMask .game = true ↔ bits stringId = true)) ↔
      scenario.GameQueriesAgree userMask stringId .game := by
  have hinside : insideSet stringId = true := insideSet_iff.mpr ⟨hpos, hlt⟩
  have hnames := @exists_nameFlags_iff scenario userMask stringId hlt
  rw [(scenario.marks_gameStorage_game userMask).exists_bit_iff,
    GameQueriesAgree, HasGameUser, hnames, ← fields_agree_iff, true_and]
  apply iff_congr
  · simp only [narrowStringUsed, triggersGameStringUsed, Bool.or_eq_true,
      Bool.and_eq_true, trigGameStringUsed_iff, mbrfStringUsed_iff,
      UserMask.all, UserMask.anyTrigger, true_and, or_assoc]
  · simp only [Set.mem_ofPred_eq, hinside, true_and, Bool.or_eq_true,
      Bool.and_eq_true, trigGameStringUsed_iff, mbrfStringUsed_iff,
      UserMask.all, UserMask.anyTrigger, or_assoc]

include hpos hlt in
theorem gameQueriesAgree_editor_iff :
    (∃ bits, scenario.markUsedStrings .editor .game userMask (fun _ => false) = .ok bits ∧
      (scenario.narrowStringUsed stringId userMask .editor = true ↔ bits stringId = true)) ↔
      scenario.GameQueriesAgree userMask stringId .editor := by
  have hinside : insideSet stringId = true := insideSet_iff.mpr ⟨hpos, hlt⟩
  have h16 := fun fields : List ℕ =>
    @holdsCast_iff stringId 16 le_rfl hlt fields
  have h32 := fun fields : List ℕ =>
    @holdsCast_iff stringId 32 (by decide) hlt fields
  have hextended : (∃ flag ∈ ktrgFlags, userMask flag = true ∧
      stringId ∈ scenario.editorStringIds flag) ↔
      userMask.anyTriggerExtension = true ∧
        scenario.ktrgEditorStringUsed stringId userMask = true := by
    simp only [ktrgFlags, List.mem_cons, List.not_mem_nil, or_false,
      exists_eq_or_imp, exists_eq_left, ktrgEditorStringUsed_iff,
      UserMask.anyTriggerExtension, Bool.or_eq_true]
    tauto
  have huser : scenario.HasEditorUser userMask stringId ↔
      scenario.layersStringUsed stringId .game userMask = true ∨
        userMask .sound = true ∧ scenario.wavStringUsed stringId = true ∨
        userMask .switch = true ∧ scenario.swnmStringUsed stringId = true ∨
        userMask .triggerAction = true ∧ scenario.trigCommentStringUsed stringId = true := by
    simp only [HasEditorUser, List.mem_cons, List.not_mem_nil, or_false, exists_eq_or_imp,
      exists_eq_left, layersStringUsed, mrgnStringUsed, wavStringUsed, swnmStringUsed,
      trigCommentStringUsed_iff, Bool.and_eq_true, h16, h32, or_assoc]
    simp only [gameStringIds]
  have hpoint : scenario.narrowStringUsed stringId userMask .editor = true ↔
      scenario.HasEditorUser userMask stringId ∨ ∃ flag ∈ ktrgFlags, userMask flag = true ∧
          stringId ∈ scenario.editorStringIds flag := by
    rw [huser, hextended]
    simp only [narrowStringUsed, triggersEditorStringUsed, Bool.or_eq_true,
      Bool.and_eq_true, or_assoc]
  rw [(scenario.marks_gameStorage_editor userMask).exists_bit_iff, hpoint,
    GameQueriesAgree, true_and, ← or_iff_left_iff_imp]
  apply iff_congr Iff.rfl
  rw [huser]
  simp only [Set.mem_ofPred_eq, hinside, true_and, Bool.or_eq_true, Bool.and_eq_true, or_assoc]

include hlt in
theorem gameQueriesAgree_other_iff {usageScope : Scope} (hgame : usageScope.hasGame = false)
    (heditor : usageScope.hasEditor = false) :
    (∃ bits, scenario.markUsedStrings usageScope .game userMask (fun _ => false) = .ok bits ∧
      (scenario.narrowStringUsed stringId userMask usageScope = true ↔ bits stringId = true)) ↔
      ∀ flag, userMask flag = true → stringId ∉ scenario.gameStringIds flag := by
  have hboth : scenario.narrowStringUsed stringId userMask usageScope =
      scenario.narrowStringUsed stringId userMask .both := by
    cases usageScope with
    | game => cases hgame
    | editor => cases heditor
    | _ => rfl
  have hbits := scenario.markUsedStrings_eq_ok userMask
    (Or.inr ⟨rfl, hgame, heditor⟩) (fun _ => false)
  rw [hboth, scenario.narrowStringUsed_both_iff userMask hlt, hbits]
  simp

include hpos in
theorem editorQueriesAgree_iff (usageScope : Scope) :
    (∃ bits, scenario.markUsedStrings usageScope .editor userMask (fun _ => false) = .ok bits ∧
      (scenario.ostrStringUsed stringId = true ↔ bits stringId = true)) ↔
      scenario.EditorQueriesAgree userMask stringId := by
  rw [(scenario.marks_editorStorage userMask usageScope).exists_bit_iff,
    EditorQueriesAgree, ostrStringUsed_iff]
  apply and_congr_right
  intro _
  simp only [Set.mem_ofPred_eq, marksEditorString, hpos, true_and]
  constructor
  · intro hagree
    refine ⟨fun flag hflag hmem => hagree.mp ⟨flag, hflag, hmem⟩, ?_⟩
    intro flag _ hmask hmem
    exact hagree.mpr ⟨flag, hmask, hmem⟩
  · rintro ⟨hostr, hktrg⟩
    constructor
    · rintro ⟨flag, hflag, hmem⟩
      exact hostr flag hflag hmem
    · rintro ⟨flag, hmask, hmem⟩
      rcases scenario.mem_flags_of_mem_editorStringIds hmem with hflag | hflag
      · exact ⟨flag, hflag, hmem⟩
      · exact hktrg flag hflag hmask hmem

end Inside

/-- The point query answers for an id as the bulk query sets its bit exactly
under the condition of its scopes. -/
theorem stringUsed_iff_marked {scenario : LoadedScenario} {stringId : ℕ}
    (hpos : 0 < stringId) (hlt : stringId < maxStrings)
    (usageScope storageScope : Scope) (userMask : UserMask) :
    (∃ bits, scenario.markUsedStrings usageScope storageScope userMask (fun _ => false) = .ok bits ∧
      (scenario.stringUsed stringId usageScope storageScope userMask false =
        true ↔ bits stringId = true)) ↔
      scenario.QueriesAgree userMask stringId usageScope storageScope := by
  cases storageScope with
  | game =>
      have hused : scenario.stringUsed stringId usageScope .game userMask
          false = scenario.narrowStringUsed stringId userMask usageScope := by
        simp [stringUsed, hlt]
      rw [hused, QueriesAgree]
      cases usageScope with
      | game => exact gameQueriesAgree_game_iff hpos hlt
      | editor => exact gameQueriesAgree_editor_iff hpos hlt
      | both =>
          rw [(scenario.marks_gameStorage_both userMask).exists_bit_iff,
            scenario.narrowStringUsed_both_iff userMask hlt]
          simp [marksGameString, hpos, hlt, GameQueriesAgree]
      | _ => exact gameQueriesAgree_other_iff hlt rfl rfl
  | editor =>
      have hused : scenario.stringUsed stringId usageScope .editor userMask
          false = scenario.ostrStringUsed stringId := by
        simp [stringUsed]
      rw [hused, QueriesAgree]
      exact editorQueriesAgree_iff hpos usageScope
  | _ =>
      refine iff_of_true ⟨_, rfl, ?_⟩ trivial
      simp [stringUsed]

/-- A scenario whose name in OSTR and a comment in KTRG share an id. -/
def sharedScenario : LoadedScenario :=
  { bareScenario [] [] with
    ostr := { (bareScenario [] []).ostr with scenarioName := 7 }
    ktrg := [none, some { ExtendedTrigData.blank with commentStringId := 7 }] }

/-- Both queries see the id. -/
theorem stringUsed_iff_marked_sharedScenario :
    maxStrings > 7 ∧ 7 ∈ sharedScenario.editorStringIds .scenarioName ∧
      sharedScenario.stringUsed 7 .both .editor .all false = true ∧
      ∃ bits, sharedScenario.markUsedStrings .both .editor .all (fun _ => false) = .ok bits ∧
        bits 7 = true := by
  have hused : sharedScenario.stringUsed 7 .both .editor .all false = true := by
    decide +kernel
  have hagree : sharedScenario.QueriesAgree .all 7 .both .editor := by
    refine ⟨?_, ?_, ?_⟩
    · intro flag _
      cases flag <;> decide +kernel
    · exact fun flag _ hmem => ⟨flag, rfl, hmem⟩
    · exact fun _ _ _ _ => ⟨.scenarioName, by decide, by decide⟩
  obtain ⟨bits, hbits, hagrees⟩ :=
    (stringUsed_iff_marked (by decide) (by decide) .both .editor .all).mpr hagree
  exact ⟨by decide, by decide, hused, bits, hbits, hagrees.mp hused⟩

/-- A scenario whose only string user is the extended comment of a trigger. -/
def commentedScenario : LoadedScenario :=
  { bareScenario [] [] with
    ktrg := [none, some { ExtendedTrigData.blank with commentStringId := 1 }] }

/-- The bulk query sees the comment, the point query does not. -/
theorem stringUsed_misses_comment : ∃ bits,
      commentedScenario.markUsedStrings .both .editor .all (fun _ => false) = .ok bits ∧
      bits 1 = true ∧
      commentedScenario.stringUsed 1 .both .editor .all false = false := by
  obtain ⟨bits, hbits, hmarked⟩ : ∃ bits,
      commentedScenario.markUsedStrings .both .editor .all (fun _ => false) =
        .ok bits ∧ bits 1 = true :=
    Fault.exists_ok_of_toOption_map (by decide +kernel)
  exact ⟨bits, hbits, hmarked, by decide +kernel⟩

end LoadedScenario

end Chkdraft.Scenario
