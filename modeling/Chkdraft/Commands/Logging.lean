import Chkdraft.Core.Scan

/-!
# Loggers and their aggregators

A logger writes to its output what is logged at a level it admits, and hands it
on to its aggregator.  A message can be logged at once or streamed character by
character.  At once, every logger of the chain is asked for its own level; the
stream goes no further than to the first aggregator that does not admit the
level.
-/

namespace Chkdraft.Commands

open Scan

variable {windows : Bool} {text : Text}

/-- A logger, where its output may be a null pointer. -/
structure Logger where
  logLevel : UInt32
  streamLogLevel : UInt32
  outputStream : Option Text

namespace Logger

def put (logger : Logger) (text : Text) : Logger :=
  { logger with outputStream := logger.outputStream.map (· ++ text) }

/-- `getPrefix`, at the time of a timestamp. -/
def getPrefix (timestamp : Text) (logLevel : UInt32) : Text := timestamp ++
    match logLevel with
    | 100 => ascii " FATAL: "
    | 200 => ascii " ERROR: "
    | 300 => ascii " WARN: "
    | 400 => ascii " INFO: "
    | 500 => ascii " DEBUG: "
    | 600 => ascii " TRACE: "
    | _ => ascii " LEVEL[" ++ ascii logLevel.toNat.repr ++ ascii "]: "

end Logger

/-- The character `std::endl` puts. -/
def newLine : UInt8 := 10

def carriageReturn : UInt8 := 13

/-- `log(logLevel, message)`. -/
def logMessage (timestamp : Text) (logLevel : UInt32) (message : Text) : List Logger → List Logger
  | [] => []
  | logger :: aggregators =>
      (if logLevel ≤ logger.logLevel then
        logger.put (Logger.getPrefix timestamp logLevel ++ message ++ [newLine])
      else logger) :: logMessage timestamp logLevel message aggregators

/-- There is an aggregator, and it admits the level. -/
def admitted (logLevel : UInt32) : List Logger → Bool
  | [] => false
  | aggregator :: _ => logLevel ≤ aggregator.logLevel

/-- `log(logLevel)`. -/
def log (timestamp : Text) (logLevel : UInt32) : List Logger → List Logger
  | [] => []
  | logger :: aggregators =>
      let logger := { logger with streamLogLevel := logLevel }
      (if logLevel ≤ logger.logLevel then
        logger.put (Logger.getPrefix timestamp logLevel)
      else logger) ::
        if admitted logLevel aggregators then
          log timestamp logLevel aggregators
        else aggregators

def overflowAggregator (c : UInt8) (sourceStreamLogLevel : UInt32) : List Logger → List Logger
  | [] => []
  | logger :: aggregators =>
      (if sourceStreamLogLevel ≤ logger.logLevel ∧ 0 < logger.logLevel then
        logger.put [c]
      else logger) ::
        if admitted sourceStreamLogLevel aggregators then
          overflowAggregator c sourceStreamLogLevel aggregators
        else aggregators

/-- On Windows a carriage return is skipped. -/
def overflow (windows : Bool) (c : UInt8) : List Logger → List Logger
  | [] => []
  | logger :: aggregators =>
      if windows = true ∧ c = carriageReturn then
        logger :: aggregators
      else
        (if logger.streamLogLevel ≤ logger.logLevel ∧ 0 < logger.streamLogLevel then
          logger.put [c]
        else logger) ::
          if admitted logger.streamLogLevel aggregators then
            overflowAggregator c logger.streamLogLevel aggregators
          else aggregators

/-- `log(logLevel) << message << std::endl`. -/
def logStream (windows : Bool) (timestamp : Text) (logLevel : UInt32)
    (message : Text) (chain : List Logger) : List Logger :=
  (message ++ [newLine]).foldl (fun chain c => overflow windows c chain)
    (log timestamp logLevel chain)

/-- Both interfaces put the same text on every output. -/
def DeliversAlike (windows : Bool) (timestamp : Text) (logLevel : UInt32)
    (message : Text) (chain : List Logger) : Prop :=
  (logMessage timestamp logLevel message chain).map Logger.outputStream =
    (logStream windows timestamp logLevel message chain).map Logger.outputStream

/-- Behind an aggregator that does not admit the level no logger with an output
does. -/
def MeetsLevels (logLevel : UInt32) (chain : List Logger) : Prop :=
  ∀ logger ∈ chain.tail.dropWhile (fun logger => logLevel ≤ logger.logLevel),
    logger.outputStream.isSome = true → ¬ logLevel ≤ logger.logLevel

/-- What is written and read of a logger besides its stream level. -/
def Logger.view (logger : Logger) : UInt32 × Option Text := (logger.logLevel, logger.outputStream)

/-- A text on the output of a logger that admits the level. -/
def deliver (logLevel : UInt32) (text : Text)
    (logger : UInt32 × Option Text) : UInt32 × Option Text :=
  if logLevel ≤ logger.1 then (logger.1, logger.2.map (· ++ text)) else logger

/-- A text on the outputs of the loggers in front of the first one that does
not admit the level. -/
def forward (logLevel : UInt32) (text : Text) :
    List (UInt32 × Option Text) → List (UInt32 × Option Text)
  | [] => []
  | logger :: aggregators =>
      if logLevel ≤ logger.1 then
        deliver logLevel text logger :: forward logLevel text aggregators
      else
        logger :: aggregators

variable {logger : Logger}

section Forward

variable {logLevel : UInt32}

/-- An aggregator that admits the level gets the text and passes it on. -/
theorem forward_view_of_le (hle : logLevel ≤ logger.logLevel) (text : Text)
    (aggregators : List (UInt32 × Option Text)) :
    forward logLevel text (logger.view :: aggregators) =
      (logger.put text).view :: forward logLevel text aggregators := by
  have hview : logLevel ≤ logger.view.1 := hle
  rw [forward, if_pos hview, deliver, if_pos hview]
  rfl

theorem forward_view_of_not_le (hle : ¬ logLevel ≤ logger.logLevel) (text : Text)
    (aggregators : List (UInt32 × Option Text)) :
    forward logLevel text (logger.view :: aggregators) = logger.view :: aggregators :=
  if_neg hle

theorem deliver_deliver (first second : Text) (logger : UInt32 × Option Text) :
    deliver logLevel second (deliver logLevel first logger) =
      deliver logLevel (first ++ second) logger := by
  by_cases hle : logLevel ≤ logger.1
  · have hfirst : deliver logLevel first logger =
        (logger.1, logger.2.map (· ++ first)) := if_pos hle
    rw [hfirst, deliver, if_pos hle, deliver, if_pos hle, Option.map_map]
    simp only [Function.comp_def, List.append_assoc]
  · have hfirst : deliver logLevel first logger = logger := if_neg hle
    rw [hfirst, deliver, if_neg hle, deliver, if_neg hle]

theorem forward_forward (first second : Text) (aggregators : List (UInt32 × Option Text)) :
    forward logLevel second (forward logLevel first aggregators) =
      forward logLevel (first ++ second) aggregators := by
  induction aggregators with
  | nil => rfl
  | cons logger aggregators ih =>
      rw [forward, forward]
      split
      · next hle =>
          have hlevel : (deliver logLevel first logger).1 = logger.1 := by
            rw [deliver, if_pos hle]
          rw [forward, if_pos (hlevel ▸ hle), deliver_deliver, ih]
      · next hle => rw [forward, if_neg hle]

/-- The prefix goes to the aggregators the stream reaches. -/
theorem view_log (timestamp : Text) (aggregators : List Logger) :
    (if admitted logLevel aggregators then
        log timestamp logLevel aggregators
      else aggregators).map Logger.view =
      forward logLevel (Logger.getPrefix timestamp logLevel) (aggregators.map Logger.view) := by
  induction aggregators with
  | nil => rfl
  | cons logger aggregators ih =>
      by_cases hle : logLevel ≤ logger.logLevel
      · rw [admitted, decide_eq_true hle, if_pos rfl, log, List.map_cons, ih,
          List.map_cons, forward_view_of_le hle]
        simp only [hle, if_true]
        rfl
      · rw [admitted, decide_eq_false hle, if_neg Bool.false_ne_true,
          List.map_cons, forward_view_of_not_le hle]

theorem view_overflowAggregator (hpos : 0 < logLevel) (c : UInt8) (aggregators : List Logger) :
    (if admitted logLevel aggregators then
        overflowAggregator c logLevel aggregators
      else aggregators).map Logger.view =
      forward logLevel [c] (aggregators.map Logger.view) := by
  induction aggregators with
  | nil => rfl
  | cons logger aggregators ih =>
      by_cases hle : logLevel ≤ logger.logLevel
      · have hoff : 0 < logger.logLevel := UInt32.lt_of_lt_of_le hpos hle
        rw [admitted, decide_eq_true hle, if_pos rfl, overflowAggregator, List.map_cons,
          ih, List.map_cons, forward_view_of_le hle, if_pos ⟨hle, hoff⟩]
      · rw [admitted, decide_eq_false hle, if_neg Bool.false_ne_true,
          List.map_cons, forward_view_of_not_le hle]

theorem deliver_nil (logger : UInt32 × Option Text) : deliver logLevel [] logger = logger := by
  rw [deliver]
  split
  · simp
  · rfl

theorem forward_nil (aggregators : List (UInt32 × Option Text)) :
    forward logLevel [] aggregators = aggregators := by
  induction aggregators with
  | nil => rfl
  | cons logger aggregators ih => rw [forward, deliver_nil, ih, ite_self]

theorem overflow_eq (windows : Bool) (hpos : 0 < logLevel) {c : UInt8}
    (hc : c ≠ carriageReturn) (hstream : logger.streamLogLevel = logLevel)
    (aggregators : List Logger) :
    ∃ written reached, overflow windows c (logger :: aggregators) = written :: reached ∧
      written.streamLogLevel = logLevel ∧
      written.view = deliver logLevel [c] logger.view ∧
      reached.map Logger.view = forward logLevel [c] (aggregators.map Logger.view) := by
  subst hstream
  rw [overflow, if_neg (by simp [hc])]
  refine ⟨_, _, rfl, ?_, ?_, view_overflowAggregator hpos c aggregators⟩
  · split
    · rfl
    · rfl
  · by_cases hle : logger.streamLogLevel ≤ logger.logLevel
    · rw [if_pos ⟨hle, hpos⟩, deliver, if_pos (by exact hle)]
      rfl
    · rw [if_neg fun hand => hle hand.1, deliver, if_neg (by exact hle)]

/-- The stream puts its characters where one text would go. -/
theorem view_overflows (hpos : 0 < logLevel) (htext : carriageReturn ∉ text)
    (hstream : logger.streamLogLevel = logLevel) (aggregators : List Logger) :
    (text.foldl (fun chain c => overflow windows c chain) (logger :: aggregators)).map Logger.view =
      deliver logLevel text logger.view :: forward logLevel text (aggregators.map Logger.view) := by
  induction text generalizing logger aggregators with
  | nil => rw [List.foldl_nil, List.map_cons, deliver_nil, forward_nil]
  | cons c text ih =>
      rw [List.mem_cons, not_or] at htext
      obtain ⟨written, reached, hoverflow, hwritten, hview, hreached⟩ :=
        overflow_eq windows hpos (Ne.symm htext.1) hstream aggregators
      rw [List.foldl_cons, hoverflow, ih htext.2 hwritten, hview, hreached,
        deliver_deliver, forward_forward, List.singleton_append]

theorem log_eq (logLevel : UInt32) (timestamp : Text) (logger : Logger)
    (aggregators : List Logger) :
    ∃ written reached, log timestamp logLevel (logger :: aggregators) = written :: reached ∧
      written.streamLogLevel = logLevel ∧
      written.view = deliver logLevel (Logger.getPrefix timestamp logLevel) logger.view ∧
      reached.map Logger.view = forward logLevel (Logger.getPrefix timestamp logLevel)
          (aggregators.map Logger.view) := by
  refine ⟨_, _, rfl, ?_, ?_, view_log timestamp aggregators⟩
  · split
    · rfl
    · rfl
  · by_cases hle : logLevel ≤ logger.logLevel
    · rw [if_pos hle, deliver, if_pos (by exact hle)]
      rfl
    · rw [if_neg hle, deliver, if_neg (by exact hle)]
      rfl

theorem view_logStream (hpos : 0 < logLevel) (timestamp : Text) {message : Text}
    (hmessage : carriageReturn ∉ message) (logger : Logger) (aggregators : List Logger) :
    (logStream windows timestamp logLevel message (logger :: aggregators)).map Logger.view =
      deliver logLevel (Logger.getPrefix timestamp logLevel ++ (message ++ [newLine]))
          logger.view ::
        forward logLevel (Logger.getPrefix timestamp logLevel ++ (message ++ [newLine]))
          (aggregators.map Logger.view) := by
  have htext : carriageReturn ∉ message ++ [newLine] := by
    rw [List.mem_append, not_or]
    exact ⟨hmessage, by decide⟩
  obtain ⟨written, reached, hlog, hstream, hview, hreached⟩ :=
    log_eq logLevel timestamp logger aggregators
  rw [logStream, hlog, view_overflows hpos htext hstream, hview, hreached,
    deliver_deliver, forward_forward]

theorem view_logMessage (timestamp message : Text) (chain : List Logger) :
    (logMessage timestamp logLevel message chain).map Logger.view =
      (chain.map Logger.view).map (deliver logLevel
        (Logger.getPrefix timestamp logLevel ++ (message ++ [newLine]))) := by
  induction chain with
  | nil => rfl
  | cons logger aggregators ih =>
      rw [logMessage, List.map_cons, ih, List.map_cons, List.map_cons]
      congr 1
      by_cases hle : logLevel ≤ logger.logLevel
      · rw [if_pos hle, deliver, if_pos (by exact hle), List.append_assoc]
        rfl
      · rw [if_neg hle, deliver, if_neg (by exact hle)]

/-- A text that is not empty leaves an output as it was only where there is
none or the level is not admitted. -/
theorem deliver_snd_eq_iff (htext : text ≠ []) (logger : UInt32 × Option Text) :
    (deliver logLevel text logger).2 = logger.2 ↔
      (logger.2.isSome = true → ¬ logLevel ≤ logger.1) := by
  obtain ⟨level, output⟩ := logger
  by_cases hle : logLevel ≤ level
  · rw [deliver, if_pos (by exact hle)]
    cases output with
    | none => simp
    | some output => simp [hle, htext]
  · rw [deliver, if_neg (by exact hle)]
    exact iff_of_true rfl fun _ => hle

/-- Stopping at the first aggregator that does not admit the level changes
nothing exactly when no output behind it admits it. -/
theorem forward_eq_deliver_iff (htext : text ≠ []) (aggregators : List (UInt32 × Option Text)) :
    (aggregators.map (deliver logLevel text)).map Prod.snd =
        (forward logLevel text aggregators).map Prod.snd ↔
      ∀ logger ∈ aggregators.dropWhile (fun logger => logLevel ≤ logger.1),
        logger.2.isSome = true → ¬ logLevel ≤ logger.1 := by
  induction aggregators with
  | nil => simp [forward]
  | cons logger aggregators ih =>
      by_cases hle : logLevel ≤ logger.1
      · rw [forward, if_pos hle, List.map_cons, List.map_cons, List.map_cons,
          List.cons.injEq, and_iff_right rfl, ih,
          List.dropWhile_cons_of_pos (by simpa using hle)]
      · rw [forward, if_neg hle, List.map_map, List.map_inj_left,
          List.dropWhile_cons_of_neg (by simpa using hle)]
        exact forall₂_congr fun logger _ => deliver_snd_eq_iff htext logger

end Forward

/-- The loggers behind the first aggregator that does not admit the level. -/
theorem dropWhile_map_view (logLevel : UInt32) (aggregators : List Logger) :
    (aggregators.map Logger.view).dropWhile (fun logger => logLevel ≤ logger.1) =
      (aggregators.dropWhile fun logger => logLevel ≤ logger.logLevel).map
        Logger.view :=
  List.dropWhile_map ..

/-- The interfaces deliver alike exactly when no logger with an output admits
the level behind an aggregator that does not. -/
theorem deliversAlike_iff (windows : Bool) (timestamp : Text)
    {logLevel : UInt32} (hpos : 0 < logLevel) {message : Text}
    (hmessage : carriageReturn ∉ message) (chain : List Logger) :
    DeliversAlike windows timestamp logLevel message chain ↔ MeetsLevels logLevel chain := by
  have hsnd : Logger.outputStream = Prod.snd ∘ Logger.view := rfl
  rw [DeliversAlike, MeetsLevels, hsnd, ← List.map_map, ← List.map_map, view_logMessage]
  cases chain with
  | nil =>
      have hstream : logStream windows timestamp logLevel message [] = [] := by
        rw [logStream, log]
        exact List.foldl_fixed' (fun _ => rfl) _
      rw [hstream]
      exact iff_of_true rfl fun _ hmem => by cases hmem
  | cons logger aggregators =>
      rw [view_logStream hpos timestamp hmessage, List.map_cons, List.map_cons,
        List.map_cons, List.map_cons, List.cons.injEq, and_iff_right rfl,
        forward_eq_deliver_iff (by simp), dropWhile_map_view,
        List.forall_mem_map]
      rfl

/-- Along decreasing levels. -/
theorem deliversAlike_decreasing : MeetsLevels 400
        [⟨400, 0, some []⟩, ⟨200, 0, some []⟩, ⟨100, 0, some []⟩] ∧
      DeliversAlike false [] 400 (ascii "Map saved")
        [⟨400, 0, some []⟩, ⟨200, 0, some []⟩, ⟨100, 0, some []⟩] :=
  have hlevels : MeetsLevels 400 [⟨400, 0, some []⟩, ⟨200, 0, some []⟩, ⟨100, 0, some []⟩] := by
    simp [MeetsLevels]
  ⟨hlevels, (deliversAlike_iff false [] (by decide) (by decide) _).mpr hlevels⟩

/-- The last of three loggers gets a message that is logged at once and not
the same message streamed, when the one in between takes errors only. -/
theorem streamed_message_stops :
    ¬ DeliversAlike false [] 400 (ascii "Map saved")
      [⟨400, 0, some []⟩, ⟨200, 0, some []⟩, ⟨400, 0, some []⟩] := by
  rw [DeliversAlike]
  decide

end Chkdraft.Commands
