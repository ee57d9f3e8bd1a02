import Chkdraft.TextTrigs.Parser

/-!
# Recognising names

`parseConditionName`, `parseActionName` and the second copy of the latter in
`parseAction` compare a name piece by piece, from a fixed position on.  What
they amount to is a list of names, of which most are compared with the beginning
of the text only.
-/

namespace Chkdraft.TextTrigs

open Chk Scan

variable {literal start : String} {arg : Text}

/-- `arg.compare(pos, count, literal) == 0`.  All characters in front of `pos`
have been compared before, so `pos` is not behind the end. -/
def comparesAt (arg : Text) (pos count : ℕ) (literal : String) : Bool :=
  (arg.drop pos).take count = ascii literal

/-- The comparisons of `parseConditionName`. -/
def conditionNamed (arg : Text) : Option VirtualCondition :=
  if charAt arg 0 = 'A'.toUInt8 then
    if comparesAt arg 1 9 "CCUMULATE" then some .accumulate
    else if comparesAt arg 1 5 "LWAYS" then some .always
    else none
  else if charAt arg 0 = 'B'.toUInt8 then
    if comparesAt arg 1 4 "RING" then some .bring
    else none
  else if charAt arg 0 = 'C'.toUInt8 then
    if comparesAt arg 1 6 "OMMAND" then
      if comparesAt arg 7 8 "THELEAST" then
        if comparesAt arg 15 2 "AT" then some .commandTheLeastAt
        else if arg.length = 15 then some .commandTheLeast
        else none
      else if comparesAt arg 7 7 "THEMOST" then
        if comparesAt arg 14 2 "AT" then some .commandTheMostAt
        else if arg.length = 14 then some .commandTheMost
        else none
      else if comparesAt arg 7 10 "STHEMOSTAT" then some .commandTheMostAt
      else if arg.length = 7 then some .command
      else none
    else if comparesAt arg 1 13 "OUNTDOWNTIMER" then some .countdownTimer
    else if comparesAt arg 1 5 "USTOM" then some .custom
    else none
  else if charAt arg 0 = 'D'.toUInt8 then
    if comparesAt arg 1 5 "EATHS" then some .deaths
    else none
  else if charAt arg 0 = 'E'.toUInt8 then
    if comparesAt arg 1 10 "LAPSEDTIME" then some .elapsedTime
    else none
  else if charAt arg 0 = 'H'.toUInt8 then
    if comparesAt arg 1 11 "IGHESTSCORE" then some .highestScore
    else none
  else if charAt arg 0 = 'K'.toUInt8 then
    if comparesAt arg 1 3 "ILL" then some .kill
    else none
  else if charAt arg 0 = 'L'.toUInt8 then
    if comparesAt arg 1 4 "EAST" then
      if comparesAt arg 5 5 "KILLS" then some .leastKills
      else if comparesAt arg 5 9 "RESOURCES" then some .leastResources
      else none
    else if comparesAt arg 1 10 "OWESTSCORE" then some .lowestScore
    else none
  else if charAt arg 0 = 'M'.toUInt8 then
    if comparesAt arg 1 5 "EMORY" then some .memory
    else if comparesAt arg 1 3 "OST" then
      if comparesAt arg 4 5 "KILLS" then some .mostKills
      else if comparesAt arg 4 9 "RESOURCES" then some .mostResources
      else none
    else none
  else if charAt arg 0 = 'N'.toUInt8 then
    if comparesAt arg 1 4 "EVER" then some .never
    else none
  else if charAt arg 0 = 'O'.toUInt8 then
    if comparesAt arg 1 8 "PPONENTS" then some .opponents
    else none
  else if charAt arg 0 = 'S'.toUInt8 then
    if comparesAt arg 1 4 "CORE" then some .score
    else if comparesAt arg 1 5 "WITCH" then some .switch
    else none
  else none

/-- The comparisons of `parseActionName` and `parseAction`, which differ in one
type. -/
def actionNamed (speech : VirtualAction) (arg : Text) : Option VirtualAction :=
  if charAt arg 0 = 'C'.toUInt8 then
    if comparesAt arg 1 6 "OMMENT" then some .comment
    else if comparesAt arg 1 9 "REATEUNIT" then
      if comparesAt arg 10 14 "WITHPROPERTIES" then
        some .createUnitWithProperties
      else if arg.length = 10 then some .createUnit
      else none
    else if comparesAt arg 1 9 "ENTERVIEW" then some .centerView
    else if comparesAt arg 1 5 "USTOM" then some .custom
    else none
  else if charAt arg 0 = 'D'.toUInt8 then
    if comparesAt arg 1 17 "ISPLAYTEXTMESSAGE" then some .displayTextMessage
    else if comparesAt arg 1 5 "EFEAT" then some .defeat
    else if comparesAt arg 1 3 "RAW" then some .draw
    else none
  else if charAt arg 0 = 'G'.toUInt8 then
    if comparesAt arg 1 16 "IVEUNITSTOPLAYER" then some .giveUnitsToPlayer
    else none
  else if charAt arg 0 = 'K'.toUInt8 then
    if comparesAt arg 1 7 "ILLUNIT" then
      if comparesAt arg 8 10 "ATLOCATION" then some .killUnitAtLocation
      else if arg.length = 8 then some .killUnit
      else none
    else none
  else if charAt arg 0 = 'L'.toUInt8 then
    if comparesAt arg 1 10 "EADERBOARD" then
      if comparesAt arg 11 4 "GOAL" then
        if comparesAt arg 15 7 "CONTROL" then
          if comparesAt arg 22 10 "ATLOCATION" then
            some .leaderboardGoalCtrlAtLoc
          else if arg.length = 22 then some .leaderboardGoalCtrl
          else none
        else if comparesAt arg 15 5 "KILLS" then some .leaderboardGoalKills
        else if comparesAt arg 15 6 "POINTS" then some .leaderboardGoalPoints
        else if comparesAt arg 15 9 "RESOURCES" then
          some .leaderboardGoalResources
        else none
      else if comparesAt arg 11 7 "CONTROL" then
        if comparesAt arg 18 10 "ATLOCATION" then some .leaderboardCtrlAtLoc
        else if arg.length = 18 then some .leaderboardCtrl
        else none
      else if comparesAt arg 11 5 "GREED" then some .leaderboardGreed
      else if comparesAt arg 11 5 "KILLS" then some .leaderboardKills
      else if comparesAt arg 11 6 "POINTS" then some .leaderboardPoints
      else if comparesAt arg 11 9 "RESOURCES" then some .leaderboardResources
      else if comparesAt arg 11 15 "COMPUTERPLAYERS" then
        some .leaderboardCompPlayers
      else none
    else none
  else if charAt arg 0 = 'M'.toUInt8 then
    if comparesAt arg 1 5 "EMORY" then some .setMemory
    else if comparesAt arg 1 3 "OVE" then
      if comparesAt arg 4 4 "UNIT" then some .moveUnit
      else if comparesAt arg 4 8 "LOCATION" then some .moveLocation
      else none
    else if comparesAt arg 1 9 "ODIFYUNIT" then
      if comparesAt arg 10 6 "ENERGY" then some .modifyUnitEnergy
      else if comparesAt arg 10 11 "HANGERCOUNT" then
        some .modifyUnitHangerCount
      else if comparesAt arg 10 9 "HITPOINTS" then some .modifyUnitHitpoints
      else if comparesAt arg 10 14 "RESOURCEAMOUNT" then
        some .modifyUnitResourceAmount
      else if comparesAt arg 10 12 "SHIELDPOINTS" then
        some .modifyUnitShieldPoints
      else none
    else if comparesAt arg 1 10 "INIMAPPING" then some .minimapPing
    else if comparesAt arg 1 13 "UTEUNITSPEECH" then some .muteUnitSpeech
    else none
  else if charAt arg 0 = 'O'.toUInt8 then
    if comparesAt arg 1 4 "RDER" then some .order
    else none
  else if charAt arg 0 = 'P'.toUInt8 then
    if comparesAt arg 1 14 "RESERVETRIGGER" then some .preserveTrigger
    else if comparesAt arg 1 6 "LAYWAV" then some .playSound
    else if comparesAt arg 1 4 "AUSE" then
      if comparesAt arg 5 4 "GAME" then some .pauseGame
      else if comparesAt arg 5 5 "TIMER" then some .pauseTimer
      else none
    else none
  else if charAt arg 0 = 'R'.toUInt8 then
    if comparesAt arg 1 9 "EMOVEUNIT" then
      if comparesAt arg 10 10 "ATLOCATION" then some .removeUnitAtLocation
      else if arg.length = 10 then some .removeUnit
      else none
    else if comparesAt arg 1 10 "UNAISCRIPT" then
      if comparesAt arg 11 10 "ATLOCATION" then some .runAiScriptAtLocation
      else if arg.length = 11 then some .runAiScript
      else none
    else none
  else if charAt arg 0 = 'S'.toUInt8 then
    if comparesAt arg 1 2 "ET" then
      if comparesAt arg 3 6 "DEATHS" then some .setDeaths
      else if comparesAt arg 3 6 "SWITCH" then some .setSwitch
      else if comparesAt arg 3 9 "RESOURCES" then some .setResources
      else if comparesAt arg 3 5 "SCORE" then some .setScore
      else if comparesAt arg 3 14 "ALLIANCESTATUS" then some .setAllianceStatus
      else if comparesAt arg 3 14 "COUNTDOWNTIMER" then some .setCountdownTimer
      else if comparesAt arg 3 11 "DOODADSTATE" then some .setDoodadState
      else if comparesAt arg 3 13 "INVINCIBILITY" then some .setInvincibility
      else if comparesAt arg 3 17 "MISSIONOBJECTIVES" then
        some .setMissionObjectives
      else if comparesAt arg 3 12 "NEXTSCENARIO" then some .setNextScenario
      else if comparesAt arg 3 6 "MEMORY" then some .setMemory
      else none
    else none
  else if charAt arg 0 = 'T'.toUInt8 then
    if comparesAt arg 1 14 "ALKINGPORTRAIT" then some .talkingPortrait
    else if comparesAt arg 1 11 "RANSMISSION" then some .transmission
    else none
  else if charAt arg 0 = 'U'.toUInt8 then
    if comparesAt arg 1 6 "NPAUSE" then
      if comparesAt arg 7 5 "TIMER" then some .unpauseTimer
      else if comparesAt arg 7 4 "GAME" then some .unpauseGame
      else none
    else if comparesAt arg 1 15 "NMUTEUNITSPEECH" then some speech
    else none
  else if charAt arg 0 = 'V'.toUInt8 then
    if comparesAt arg 1 6 "ICTORY" then some .victory
    else none
  else if charAt arg 0 = 'W'.toUInt8 then
    if comparesAt arg 1 3 "AIT" then some .wait
    else none
  else none

/-- `parseActionName`, with the type it is called with. -/
def parseActionName (arg : Text) (actionType : Option VirtualAction) : Option VirtualAction :=
  (actionNamed .muteUnitSpeech arg).or actionType

deriving instance DecidableEq for NamePattern

namespace NamePattern

def name : NamePattern → String
  | .beginsWith name => name
  | .exactly name => name

/-- No text continues with `start` and matches the pattern. -/
def apart (start : String) : NamePattern → Bool
  | .beginsWith name => !(ascii start).isPrefixOf (ascii name) &&
      !(ascii name).isPrefixOf (ascii start)
  | .exactly name => !(ascii start).isPrefixOf (ascii name)

theorem matches_name (pattern : NamePattern) : pattern.matches (ascii pattern.name) = true := by
  cases pattern with
  | beginsWith name =>
      exact List.isPrefixOf_iff_prefix.mpr (List.prefix_refl _)
  | exactly name => exact decide_eq_true rfl

theorem not_matches_of_apart {pattern : NamePattern}
    (hapart : pattern.apart start = true) (hstart : continuesWith arg 0 start = true) :
    pattern.matches arg = false := by
  have hbegins : ascii start <+: arg := List.isPrefixOf_iff_prefix.mp hstart
  by_contra hmatches
  rw [Bool.not_eq_false] at hmatches
  cases pattern with
  | beginsWith name =>
      have hname : ascii name <+: arg := List.isPrefixOf_iff_prefix.mp hmatches
      simp only [apart, Bool.and_eq_true, Bool.not_eq_true',
        ← Bool.not_eq_true, List.isPrefixOf_iff_prefix] at hapart
      rcases List.prefix_or_prefix_of_prefix hbegins hname with h | h
      · exact hapart.1 h
      · exact hapart.2 h
  | exactly name =>
      have hname : arg = ascii name := of_decide_eq_true hmatches
      rw [hname] at hbegins
      simp only [apart, Bool.not_eq_true', ← Bool.not_eq_true, List.isPrefixOf_iff_prefix] at hapart
      exact hapart hbegins

end NamePattern

section Recognises

variable {A : Type}

theorem findName_append (names others : List (NamePattern × A)) (arg : Text) :
    findName (names ++ others) arg = (findName names arg).or (findName others arg) := by
  rw [findName, List.find?_append, Option.map_or]
  rfl

theorem findName_eq_none {names : List (NamePattern × A)}
    (hnone : ∀ entry ∈ names, entry.1.matches arg = false) :
    findName names arg = none := by
  have hfind : (names.find? fun entry => entry.1.matches arg) = none :=
    List.find?_eq_none.mpr fun entry hentry => by simp [hnone entry hentry]
  rw [findName, hfind]
  rfl

def Unambiguous (names : List (NamePattern × A)) : Prop :=
  names.Pairwise fun entry other => ∀ arg, entry.1.matches arg = true → other.1.matches arg = false

/-- On texts that continue with `start`, the comparisons find the name; the
names themselves continue with it. -/
structure Recognises (recogniser : Text → Option A) (start : String)
    (names : List (NamePattern × A)) : Prop where
  agrees : ∀ arg, continuesWith arg 0 start = true → recogniser arg = findName names arg
  starts : ∀ entry ∈ names, ∀ arg, entry.1.matches arg = true → continuesWith arg 0 start = true
  unambiguous : Unambiguous names

theorem ascii_append (start literal : String) :
    ascii (start ++ literal) = ascii start ++ ascii literal := by
  simp [ascii]

theorem ascii_singleton (character : Char) :
    ascii (String.singleton character) = [character.toUInt8] := by
  simp [ascii]

theorem continuesWith_append :
    continuesWith arg 0 (start ++ literal) = true ↔ continuesWith arg 0 start = true ∧
        comparesAt arg (ascii start).length (ascii literal).length literal =
          true := by
  simp only [continuesWith, comparesAt, List.drop_zero,
    List.isPrefixOf_iff_prefix, decide_eq_true_eq, ascii_append]
  constructor
  · rintro ⟨rest, rfl⟩
    simp
  · rintro ⟨⟨rest, rfl⟩, hliteral⟩
    rw [List.drop_left] at hliteral
    rw [← hliteral]
    exact (List.prefix_append_right_inj _).mpr (List.take_prefix _ _)

theorem recognises_none (start : String) : Recognises (fun _ => (none : Option A)) start [] where
  agrees := fun _ _ => rfl
  starts := fun _ hentry => nomatch hentry
  unambiguous := .nil

/-- All characters of the name were compared, and others may follow. -/
theorem recognises_name (start : String) (value : A) :
    Recognises (fun _ => some value) start [(.beginsWith start, value)] where
  agrees := fun arg hstart => by
    have hmatches : (NamePattern.beginsWith start).matches arg = true := hstart
    simp only [findName, List.find?_cons, hmatches, Option.map_some]
  starts := fun entry hentry arg hmatches => by
    obtain rfl := List.mem_singleton.mp hentry
    exact hmatches
  unambiguous := List.pairwise_singleton _ _

/-- All characters of the name were compared, and there are no others. -/
theorem recognises_size {size : ℕ} (value : A) (hsize : size = (ascii start).length) :
    Recognises (fun arg => if arg.length = size then some value else none)
      start [(.exactly start, value)] where
  agrees := fun arg hstart => by
    obtain ⟨rest, rfl⟩ := List.isPrefixOf_iff_prefix.mp hstart
    rw [hsize, findName]
    cases rest with
    | nil => simp [NamePattern.matches]
    | cons character rest => simp [NamePattern.matches]
  starts := fun entry hentry arg hmatches => by
    obtain rfl := List.mem_singleton.mp hentry
    obtain rfl : arg = ascii start := of_decide_eq_true hmatches
    exact List.isPrefixOf_iff_prefix.mpr (List.prefix_refl _)
  unambiguous := List.pairwise_singleton _ _

/-- A comparison decides between the names that continue with its literal and
others that cannot be confused with them. -/
theorem recognises_compare {matched otherwise : Text → Option A} {pos count : ℕ}
    {names others : List (NamePattern × A)}
    (hmatched : Recognises matched (start ++ literal) names)
    (hothers : Recognises otherwise start others) (hpos : pos = (ascii start).length)
    (hcount : count = (ascii literal).length)
    (hapart : ∀ entry ∈ others, entry.1.apart (start ++ literal) = true) :
    Recognises (fun arg =>
        if comparesAt arg pos count literal then matched arg else otherwise arg)
      start (names ++ others) where
  agrees := fun arg hstart => by
    rw [hpos, hcount, findName_append]
    split
    · rename_i hliteral
      have hlonger := continuesWith_append.mpr ⟨hstart, hliteral⟩
      have hnone : findName others arg = none := findName_eq_none fun entry hentry =>
          NamePattern.not_matches_of_apart (hapart entry hentry) hlonger
      rw [hmatched.agrees arg hlonger, hnone, Option.or_none]
    · rename_i hliteral
      have hnone : findName names arg = none := by
        apply findName_eq_none
        intro entry hentry
        rw [← Bool.not_eq_true]
        intro hmatches
        exact hliteral (continuesWith_append.mp (hmatched.starts entry hentry arg hmatches)).2
      rw [hothers.agrees arg hstart, hnone, Option.none_or]
  starts := fun entry hentry arg hmatches => by
    rcases List.mem_append.mp hentry with hentry | hentry
    · exact (continuesWith_append.mp (hmatched.starts entry hentry arg hmatches)).1
    · exact hothers.starts entry hentry arg hmatches
  unambiguous := by
    refine List.pairwise_append.mpr ⟨hmatched.unambiguous, hothers.unambiguous, ?_⟩
    intro entry hentry other hother arg hmatches
    exact NamePattern.not_matches_of_apart (hapart other hother)
      (hmatched.starts entry hentry arg hmatches)

/-- The switch over the first character compares it like a literal. -/
theorem recognises_switch {matched otherwise : Text → Option A}
    {character : Char} {names others : List (NamePattern × A)}
    (hmatched : Recognises matched (String.singleton character) names)
    (hothers : Recognises otherwise "" others)
    (hpos : character.toUInt8 ≠ 0)
    (hapart : ∀ entry ∈ others, entry.1.apart (String.singleton character) = true) :
    Recognises (fun arg =>
        if charAt arg 0 = character.toUInt8 then matched arg else otherwise arg)
      "" (names ++ others) := by
  have hsame (arg : Text) : comparesAt arg 0 1 (String.singleton character) = true ↔
        charAt arg 0 = character.toUInt8 := by
    rw [comparesAt, decide_eq_true_eq, ascii_singleton]
    cases arg with
    | nil => simp [charAt, hpos.symm]
    | cons first rest => simp [charAt]
  have hcompare : Recognises (fun arg =>
      if comparesAt arg 0 1 (String.singleton character) then matched arg
      else otherwise arg) "" (names ++ others) :=
    recognises_compare (by rwa [String.empty_append]) hothers rfl
      (congrArg List.length (ascii_singleton character)).symm
      (by rwa [String.empty_append])
  simpa only [hsame] using hcompare

end Recognises

theorem Recognises.congr {A : Type} {recogniser : Text → Option A}
    {names others : List (NamePattern × A)}
    (hrecognises : Recognises recogniser start names) (heq : names = others) :
    Recognises recogniser start others :=
  heq ▸ hrecognises

theorem recognises_conditionNamed : Recognises conditionNamed "" conditionNames := by
  apply Recognises.congr
  · unfold conditionNamed
    repeat' first
      | exact recognises_none _
      | exact recognises_name _ _
      | apply recognises_size
      | apply recognises_compare
      | apply recognises_switch
    -- The positions, the sizes, and the names that are kept apart.
    all_goals decide
  · rfl

theorem recognises_actionNamed : Recognises (actionNamed .unmuteUnitSpeech) "" actionNames := by
  apply Recognises.congr
  · unfold actionNamed
    repeat' first
      | exact recognises_none _
      | exact recognises_name _ _
      | apply recognises_size
      | apply recognises_compare
      | apply recognises_switch
    all_goals decide
  · rfl

theorem actionNamed_eq (speech : VirtualAction) (arg : Text) : actionNamed speech arg =
      (actionNamed .unmuteUnitSpeech arg).map fun actionType =>
        if actionType = .unmuteUnitSpeech then speech else actionType := by
  simp only [actionNamed, apply_ite (Option.map _), Option.map_some,
    Option.map_none, reduceCtorEq, if_false, if_true]

section Found

variable {A : Type} {names : List (NamePattern × A)} {arg : Text}

theorem findName_cons_of_matches {entry : NamePattern × A} (hmatches : entry.1.matches arg = true) :
    findName (entry :: names) arg = some entry.2 := by
  simp only [findName, List.find?_cons, hmatches, Option.map_some]

theorem findName_cons_of_not_matches {entry : NamePattern × A}
    (hmatches : entry.1.matches arg = false) :
    findName (entry :: names) arg = findName names arg := by
  simp only [findName, List.find?_cons, hmatches]

theorem findName_eq_some_iff (hunambiguous : Unambiguous names) {value : A} :
    findName names arg = some value ↔
      ∃ entry ∈ names, entry.1.matches arg = true ∧ entry.2 = value := by
  induction hunambiguous with
  | nil => simp [findName]
  | @cons entry names hothers _ ih =>
      rw [List.exists_mem_cons_iff]
      cases hentry : entry.1.matches arg with
      | true =>
          have hnone : ¬ ∃ other ∈ names, other.1.matches arg = true ∧ other.2 = value := by
            rintro ⟨other, hother, hmatches, -⟩
            rw [hothers other hother arg hentry] at hmatches
            nomatch hmatches
          rw [findName_cons_of_matches hentry, or_iff_left hnone, Option.some.injEq]
          exact (and_iff_right rfl).symm
      | false =>
          rw [findName_cons_of_not_matches hentry, ih]
          exact (or_iff_right fun h => nomatch h.1).symm

theorem Unambiguous.eq (hunambiguous : Unambiguous names)
    {entry other : NamePattern × A} (hentry : entry ∈ names)
    (hother : other ∈ names) (hmatches : entry.1.matches arg = true)
    (hotherMatches : other.1.matches arg = true) : entry = other := by
  induction hunambiguous with
  | nil => nomatch hentry
  | @cons first names hothers _ ih =>
      rcases List.mem_cons.mp hentry with rfl | hentryRest
      · rcases List.mem_cons.mp hother with rfl | hotherRest
        · rfl
        · rw [hothers other hotherRest arg hmatches] at hotherMatches
          nomatch hotherMatches
      · rcases List.mem_cons.mp hother with rfl | hotherRest
        · rw [hothers entry hentryRest arg hotherMatches] at hmatches
          nomatch hmatches
        · exact ih hentryRest hotherRest

end Found

theorem parseAction_eq (text : Text) (pos stop : ℕ) : parseAction text pos stop =
      (copyUpperCase (slice text pos stop)).map (actionNamed .unmuteUnitSpeech) := by
  have hnamed : actionNamed .unmuteUnitSpeech = findName actionNames := by
    funext arg
    exact recognises_actionNamed.agrees arg rfl
  rw [parseAction, hnamed]

/-- `parseActionName` and `parseAction` agree on a name. -/
def RecognisersAgree (text : Text) (pos stop : ℕ) : Prop :=
  parseAction text pos stop = .ok (parseActionName (upperNoBlanks (slice text pos stop)) none)

theorem actionNamed_eq_unmute_iff {arg : Text} :
    actionNamed .unmuteUnitSpeech arg = some .unmuteUnitSpeech ↔
      continuesWith arg 0 "UNMUTEUNITSPEECH" = true := by
  have honly : ∀ entry ∈ actionNames, entry.2 = .unmuteUnitSpeech →
      entry = (.beginsWith "UNMUTEUNITSPEECH", .unmuteUnitSpeech) := by
    decide
  rw [recognises_actionNamed.agrees arg rfl,
    findName_eq_some_iff recognises_actionNamed.unambiguous]
  constructor
  · rintro ⟨entry, hentry, hmatches, hvalue⟩
    rw [honly entry hentry hvalue] at hmatches
    exact hmatches
  · intro hcontinues
    exact ⟨(.beginsWith "UNMUTEUNITSPEECH", .unmuteUnitSpeech), by decide,
      hcontinues, rfl⟩

theorem recognisersAgree_iff (text : Text) (pos stop : ℕ) :
    RecognisersAgree text pos stop ↔ (slice text pos stop).length < 2 ^ 32 ∧
        continuesWith (upperNoBlanks (slice text pos stop)) 0
          "UNMUTEUNITSPEECH" = false := by
  rw [RecognisersAgree, parseAction_eq, copyUpperCase, parseActionName,
    Option.or_none, actionNamed_eq]
  split
  · rename_i hlength
    rw [and_iff_right hlength, ← Bool.not_eq_true,
      ← actionNamed_eq_unmute_iff, Except.map, Except.ok.injEq]
    cases hfound : actionNamed .unmuteUnitSpeech (upperNoBlanks (slice text pos stop)) with
    | none => simp
    | some actionType =>
        by_cases hunmute : actionType = .unmuteUnitSpeech
        · simp [hunmute]
        · simp [hunmute]
  · rename_i hlength
    exact iff_of_false (fun h => nomatch h) fun h => hlength h.1

theorem not_recognisersAgree_unmute : ¬ RecognisersAgree (ascii "Unmute Unit Speech") 0 18 := by
  have haction : parseAction (ascii "Unmute Unit Speech") 0 18 =
      .ok (some .unmuteUnitSpeech) := by
    decide
  have hname : parseActionName
      (upperNoBlanks (slice (ascii "Unmute Unit Speech") 0 18)) none =
        some .muteUnitSpeech := by
    decide
  rw [RecognisersAgree, haction, hname]
  decide

end Chkdraft.TextTrigs
