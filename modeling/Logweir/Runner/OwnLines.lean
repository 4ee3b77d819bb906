import Logweir.Runner.Seal

/-!
# Whose line it is

`weirkeeper::runner_log`.  Of a job's log a controller reads the lines sealed with the
job's token, wherever they stand; what else is in the log changes nothing of what it
reads.  A job an older controller built is read whole, as that controller read it.
-/

set_option autoImplicit false

namespace Logweir.Runner

open Logweir.Text

inductive JobToken where
  | none
  | refusalDetail (token : LineToken)
  | everyLine (token : LineToken)

structure RunnerLines where
  text : String
  token : Option LineToken
  everyLine : Bool
  exitVouched : Bool
  flagRefused : Bool
  sealedAny : Bool

def RunnerLines.runnerIsOlder (lines : RunnerLines) : Bool :=
  lines.everyLine && !lines.exitVouched && lines.flagRefused && !lines.sealedAny

def RunnerLines.noSealedEnd (lines : RunnerLines) : Bool :=
  lines.everyLine && !lines.exitVouched && !lines.runnerIsOlder

def runnerLineTokenArg : String := "--runner-line-token"

def refusesLineTokenFlag (line : String) : Bool :=
  contains line runnerLineTokenArg &&
    ["unexpected argument", "unrecognised argument", "unrecognized argument"].any (contains line)

def vouchesForExit (exitCode : Int) : Bool := 0 ≤ exitCode ∧ exitCode ≤ 4

structure Scan where
  text : String
  exitVouched : Bool
  flagRefused : Bool
  sealedAny : Bool

def scanStart : Scan := { text := "", exitVouched := false, flagRefused := false, sealedAny := false }

def scanLine (token : LineToken) (bound : List String) (s : Scan) (line : String) : Scan :=
  let s := { s with flagRefused := s.flagRefused || refusesLineTokenFlag line }
  match unsealLine token line with
  | some own =>
    let s := { s with sealedAny := true }
    if startsWith own runnerExitPrefix then { s with exitVouched := true }
    else { s with text := s.text ++ own ++ "\n" }
  | none =>
    if bound.any (startsWith line) then { s with text := s.text ++ line ++ "\n" } else s

def logLines (log : String) : List String := (lines log).map (trimEnd '\r')

def scanned (token : LineToken) (bound : List String) (log : String) : RunnerLines :=
  let s := (logLines log).foldl (scanLine token bound) scanStart
  { text := s.text
    token := some token
    everyLine := true
    exitVouched := s.exitVouched
    flagRefused := s.flagRefused
    sealedAny := s.sealedAny }

def wholeLog (token : Option LineToken) (log : String) : RunnerLines :=
  { text := log
    token
    everyLine := false
    exitVouched := false
    flagRefused := false
    sealedAny := false }

def ownLines (token : JobToken) (log : String) : RunnerLines :=
  match token with
  | .everyLine t => scanned t [] log
  | .refusalDetail t => wholeLog (some t) log
  | .none => wholeLog Option.none log

def ownLinesBinding (token : JobToken) (log : String) (bound : List String) : RunnerLines :=
  match token with
  | .everyLine t => scanned t bound log
  | .refusalDetail _ => ownLines token log
  | .none => ownLines token log

inductive TerminalRead where
  | read (raw : String)
  | overBound

inductive Terminal where
  | lines (own : RunnerLines)
  | runnerOlder
  | overBound

def judgeTerminal (token : JobToken) (exitCode : Option Int) (read : TerminalRead) : Terminal :=
  match read with
  | .overBound => .overBound
  | .read raw =>
    let own := ownLines token raw
    if raw ≠ "" ∧ exitCode.any vouchesForExit ∧ own.runnerIsOlder then .runnerOlder
    else .lines own

def keptOf (token : LineToken) (bound : List String) (line : String) : Option String :=
  match unsealLine token line with
  | some own => if startsWith own runnerExitPrefix then none else some own
  | none => if bound.any (startsWith line) then some line else none

def vouches (token : LineToken) (line : String) : Bool :=
  (unsealLine token line).any fun own => startsWith own runnerExitPrefix

def isSealed (token : LineToken) (line : String) : Bool := (unsealLine token line).isSome

variable {token : LineToken} {bound : List String}

theorem scanLine_spec (s : Scan) (line : String) :
    (scanLine token bound s line).text = s.text ++ unlines (keptOf token bound line).toList ∧
      (scanLine token bound s line).exitVouched = (s.exitVouched || vouches token line) ∧
      (scanLine token bound s line).sealedAny = (s.sealedAny || isSealed token line) := by
  unfold scanLine keptOf vouches isSealed
  cases unsealLine token line with
  | none =>
      dsimp only
      split
      · simp [unlines, String.append_assoc]
      · simp [unlines]
  | some own =>
      dsimp only
      split
      · rename_i exits
        simp [unlines, exits]
      · rename_i other
        simp [unlines, other, String.append_assoc]

theorem foldl_scanLine : ∀ (ls : List String) (s : Scan),
    (ls.foldl (scanLine token bound) s).text =
        s.text ++ unlines (ls.filterMap (keptOf token bound)) ∧
      (ls.foldl (scanLine token bound) s).exitVouched =
        (s.exitVouched || ls.any (vouches token)) ∧
      (ls.foldl (scanLine token bound) s).sealedAny =
        (s.sealedAny || ls.any (isSealed token)) := by
  intro ls
  induction ls with
  | nil => intro s; simp [unlines]
  | cons line ls ih =>
      intro s
      obtain ⟨text, exit, any⟩ := ih (scanLine token bound s line)
      obtain ⟨text₁, exit₁, any₁⟩ := @scanLine_spec token bound s line
      rw [List.foldl_cons, text, exit, any, text₁, exit₁, any₁]
      refine ⟨?_, ?_, ?_⟩
      · rw [String.append_assoc, ← unlines_append, List.filterMap_cons]
        cases keptOf token bound line <;> rfl
      · rw [List.any_cons, Bool.or_assoc]
      · rw [List.any_cons, Bool.or_assoc]

def sealedLines (token : LineToken) (log : String) : List String :=
  (logLines log).filter (isSealed token)

theorem filterMap_sealed (ls : List String) :
    ls.filterMap (keptOf token []) = (ls.filter (isSealed token)).filterMap (keptOf token []) := by
  rw [List.filterMap_filter]
  apply List.filterMap_congr
  intro line _
  unfold keptOf isSealed
  cases unsealLine token line with
  | none => rfl
  | some own => rfl

theorem any_sealed (ls : List String) :
    ls.any (vouches token) = (ls.filter (isSealed token)).any (vouches token) := by
  rw [List.any_filter]
  congr 1
  funext line
  unfold vouches isSealed
  cases unsealLine token line with
  | none => rfl
  | some own => rfl

theorem ownLines_everyLine (token : LineToken) (log : String) :
    (ownLines (.everyLine token) log).text =
        unlines ((sealedLines token log).filterMap (keptOf token [])) ∧
      (ownLines (.everyLine token) log).exitVouched = (sealedLines token log).any (vouches token) ∧
      (ownLines (.everyLine token) log).sealedAny = !(sealedLines token log).isEmpty := by
  obtain ⟨text, exit, any⟩ := @foldl_scanLine token [] (logLines log) scanStart
  refine ⟨?_, ?_, ?_⟩
  · show ((logLines log).foldl (scanLine token []) scanStart).text = _
    rw [text, filterMap_sealed]
    exact String.empty_append
  · show ((logLines log).foldl (scanLine token []) scanStart).exitVouched = _
    rw [exit, any_sealed]
    rfl
  · show ((logLines log).foldl (scanLine token []) scanStart).sealedAny = _
    rw [any]
    unfold sealedLines
    rw [Bool.eq_iff_iff]
    simp [scanStart]

theorem judgeTerminal_sealed {token : LineToken} {raw : String} (some_ : sealedLines token raw ≠ [])
    (exitCode : Option Int) :
    judgeTerminal (.everyLine token) exitCode (.read raw) =
      .lines (ownLines (.everyLine token) raw) := by
  have any := (ownLines_everyLine token raw).2.2
  have sealed : (ownLines (.everyLine token) raw).sealedAny = true := by
    rw [any, Bool.not_eq_true', ← Bool.not_eq_true, List.isEmpty_iff]
    exact some_
  unfold judgeTerminal
  dsimp only
  rw [if_neg]
  rintro ⟨-, -, older⟩
  unfold RunnerLines.runnerIsOlder at older
  rw [sealed, Bool.not_true, Bool.and_false] at older
  cases older

inductive LogItem where
  | own (line : String)
  | foreign (line : String)

def LogItem.printed (token : LineToken) : LogItem → String
  | .own line => sealedLine token line
  | .foreign line => line

def LogItem.ownLine : LogItem → Option String
  | .own line => some line
  | .foreign _ => none

/-- A foreign line is one line, and not sealed with the token. -/
def LogItem.Foreign (token : LineToken) : LogItem → Prop
  | .own _ => True
  | .foreign line => '\n' ∉ line.toList ∧ unsealLine token (trimEnd '\r' line) = none

def render (token : LineToken) (items : List LogItem) : String :=
  unlines (items.map (LogItem.printed token))

theorem logLines_unlines {parts : List String} (plain : ∀ part ∈ parts, '\n' ∉ part.toList) :
    logLines (unlines parts) = parts.map (trimEnd '\r') := by
  unfold logLines
  rw [lines_unlines plain, List.map_map]
  exact List.map_congr_left fun part _ => trimEnd_stripLine part

theorem logLines_render {items : List LogItem} (foreign : ∀ i ∈ items, i.Foreign token) :
    logLines (render token items) =
      items.map fun i => trimEnd '\r' (i.printed token) := by
  unfold render
  rw [logLines_unlines, List.map_map]
  · rfl
  · intro part member
    obtain ⟨i, here, rfl⟩ := List.mem_map.mp member
    cases i with
    | own line => exact (sealedLine_plain token line).1
    | foreign line => exact (foreign _ here).1

theorem sealedLines_render {items : List LogItem} (foreign : ∀ i ∈ items, i.Foreign token) :
    sealedLines token (render token items) =
      (items.filterMap LogItem.ownLine).map (sealedLine token) := by
  unfold sealedLines
  rw [logLines_render foreign]
  induction items with
  | nil => rfl
  | cons i items ih =>
      have later := ih fun j member => foreign j (List.mem_cons_of_mem i member)
      have here := foreign i List.mem_cons_self
      rw [List.map_cons]
      cases i with
      | own line =>
          have trimmed : trimEnd '\r' (LogItem.printed token (.own line)) =
              sealedLine token line := trimEnd_of_not_mem (sealedLine_plain token line).2
          have sealed : isSealed token (sealedLine token line) = true := by
            unfold isSealed
            rw [unsealLine_sealed]
            rfl
          rw [trimmed, List.filter_cons_of_pos sealed, later]
          rfl
      | foreign line =>
          have unsealed : ¬ isSealed token (trimEnd '\r' (LogItem.printed token (.foreign line))) =
              true := by
            unfold isSealed
            rw [show LogItem.printed token (.foreign line) = line from rfl, here.2]
            exact Bool.noConfusion
          rw [List.filter_cons_of_neg unsealed, later]
          rfl

theorem inlineLines_render (token : LineToken) (ls : List String) :
    inlineLines (some (token, .everyLine)) ls =
      render token (ls.flatMap fun line => [.own line, .foreign (oneLine line)]) := by
  unfold inlineLines sealingToken render
  rw [List.map_flatMap]
  rfl

theorem finalBlockWith_render (token : LineToken) (code : Nat) (sealedOnes plain : List String) :
    finalBlockWith (some (token, .everyLine)) code sealedOnes plain =
      render token (sealedOnes.map LogItem.own ++ [.own (runnerExitLine code)] ++
        plain.map fun line => .foreign (oneLine line)) := by
  unfold finalBlockWith sealingToken render
  simp only [List.map_append, List.map_map, List.map_cons, List.map_nil]
  rfl

theorem runnerExitPrefix_plain :
    ∀ c ∈ runnerExitPrefix.toList, oneLineChar c = [c] ∧ c ≠ '\\' := by
  have chars : runnerExitPrefix.toList =
      ['r', 'u', 'n', 'n', 'e', 'r', '-', 'e', 'x', 'i', 't', '='] := by simp [runnerExitPrefix]
  rw [chars]
  intro c member
  simp only [List.mem_cons, List.not_mem_nil, or_false] at member
  rcases member with rfl | rfl | rfl | rfl | rfl | rfl | rfl | rfl | rfl | rfl | rfl | rfl <;>
    exact ⟨rfl, by decide⟩

theorem startsWith_oneLine (line : String) :
    startsWith (oneLine line) runnerExitPrefix = startsWith line runnerExitPrefix := by
  unfold startsWith oneLine
  rw [String.toList_ofList, Bool.eq_iff_iff, List.isPrefixOf_iff_prefix,
    List.isPrefixOf_iff_prefix]
  exact prefix_oneLine _ runnerExitPrefix_plain

def isExit (line : String) : Bool := startsWith line runnerExitPrefix

theorem keptOf_sealed (line : String) :
    keptOf token [] (sealedLine token line) = if isExit line then none else some (oneLine line) := by
  unfold keptOf
  rw [unsealLine_sealed]
  dsimp only
  rw [startsWith_oneLine, isExit]

theorem vouches_sealed (line : String) : vouches token (sealedLine token line) = isExit line := by
  unfold vouches
  rw [unsealLine_sealed, Option.any_some, startsWith_oneLine, isExit]

/-- A log is read as its sealed lines alone: the one-line form of each but the exit's, in
order, and the exit vouched for when one of them names it.  A job with no token of this
kind has its log read whole and no exit vouched for. -/
theorem read_as_sealed :
    (∀ (token : LineToken) (log log' : String), sealedLines token log = sealedLines token log' →
      (ownLines (.everyLine token) log).text = (ownLines (.everyLine token) log').text ∧
      (ownLines (.everyLine token) log).exitVouched =
        (ownLines (.everyLine token) log').exitVouched) ∧
    (∀ (token : LineToken) (items : List LogItem), (∀ i ∈ items, i.Foreign token) →
      (ownLines (.everyLine token) (render token items)).text =
        unlines (((items.filterMap LogItem.ownLine).filter fun l => !isExit l).map oneLine) ∧
      (ownLines (.everyLine token) (render token items)).exitVouched =
        (items.filterMap LogItem.ownLine).any isExit) ∧
    (∀ (token : LineToken) (log : String),
      (ownLines (.refusalDetail token) log).text = log ∧
      (ownLines (.refusalDetail token) log).exitVouched = false) ∧
    ∀ log : String, (ownLines .none log).text = log ∧ (ownLines .none log).exitVouched = false := by
  refine ⟨?_, ?_, fun _ _ => ⟨rfl, rfl⟩, fun _ => ⟨rfl, rfl⟩⟩
  · intro token log log' same
    obtain ⟨text, exit, -⟩ := ownLines_everyLine token log
    obtain ⟨text', exit', -⟩ := ownLines_everyLine token log'
    rw [text, exit, text', exit', same]
    exact ⟨rfl, rfl⟩
  · intro token items foreign
    obtain ⟨text, exit, -⟩ := ownLines_everyLine token (render token items)
    rw [text, exit, sealedLines_render foreign, List.filterMap_map, List.any_map]
    constructor
    · congr 1
      induction items.filterMap LogItem.ownLine with
      | nil => rfl
      | cons line ls ih =>
          rw [List.filterMap_cons, Function.comp, keptOf_sealed, ih]
          by_cases exits : isExit line = true
          · simp [exits]
          · simp [exits]
    · congr 1
      funext line
      exact vouches_sealed line

theorem text_render {items : List LogItem} (foreign : ∀ i ∈ items, i.Foreign token) :
    (ownLines (.everyLine token) (render token items)).text =
      unlines (((items.filterMap LogItem.ownLine).filter fun l => !isExit l).map oneLine) := by
  rw [(ownLines_everyLine token _).1, sealedLines_render foreign, List.filterMap_map]
  congr 1
  induction items.filterMap LogItem.ownLine with
  | nil => rfl
  | cons line ls ih =>
      rw [List.filterMap_cons, Function.comp, keptOf_sealed, ih]
      by_cases exits : isExit line = true
      · simp [exits]
      · simp [exits]

def finalItems (code : Nat) (ls : List String) : List LogItem :=
  ls.map .own ++ .own (runnerExitLine code) :: ls.map fun line => .foreign (oneLine line)

theorem ownLine_finalItems (code : Nat) (ls : List String) :
    (finalItems code ls).filterMap LogItem.ownLine = ls ++ [runnerExitLine code] := by
  have twins : (ls.map fun line => LogItem.foreign (oneLine line)).filterMap LogItem.ownLine = [] :=
    List.filterMap_eq_nil_iff.mpr fun i member => by
      obtain ⟨line, -, rfl⟩ := List.mem_map.mp member
      rfl
  have own : (ls.map LogItem.own).filterMap LogItem.ownLine = ls := by
    rw [List.filterMap_map]
    exact List.filterMap_some
  rw [finalItems, List.filterMap_append, own, List.filterMap_cons, twins]
  rfl

theorem foreign_oneLine {line : String} (plain : unsealLine token (oneLine line) = none) :
    LogItem.Foreign token (.foreign (oneLine line)) := by
  have own := oneLine_plain line
  refine ⟨own.1, ?_⟩
  rw [trimEnd_of_not_mem own.2]
  exact plain

/-- What a runner leaves: its items among others', then its final block. -/
def runnerLog (token : LineToken) (items : List LogItem) (code : Nat) (ls : List String) : String :=
  render token items ++ finalBlock (some (token, .everyLine)) code ls

theorem runnerLog_render (token : LineToken) (items : List LogItem) (code : Nat) (ls : List String) :
    runnerLog token items code ls = render token (items ++ finalItems code ls) := by
  rw [runnerLog, finalBlock, finalBlockWith_render]
  unfold render finalItems
  rw [← unlines_append, ← List.map_append, List.append_assoc, List.singleton_append]

/-- The log is read as the runner's lines alone, and never as an older runner's. -/
structure ReadAs (token : LineToken) (log : String) (ls : List String) : Prop where
  judged : ∀ exitCode, judgeTerminal (.everyLine token) exitCode (.read log) =
    .lines (ownLines (.everyLine token) log)
  vouched : (ownLines (.everyLine token) log).exitVouched = true
  ended : (ownLines (.everyLine token) log).noSealedEnd = false
  text : (ownLines (.everyLine token) log).text =
    unlines ((ls.filter fun l => !isExit l).map oneLine)

theorem readAs_runnerLog (code : Nat) {ls : List String} {items : List LogItem}
    (plain : ∀ line ∈ ls, unsealLine token (oneLine line) = none)
    (foreign : ∀ i ∈ items, i.Foreign token) :
    ReadAs token (runnerLog token items code ls) (items.filterMap LogItem.ownLine ++ ls) := by
  have last : isExit (runnerExitLine code) = true :=
    startsWith_append runnerExitPrefix (toString code)
  have all : ∀ i ∈ items ++ finalItems code ls, i.Foreign token := by
    simp only [finalItems, List.mem_append, List.mem_cons, List.mem_map]
    rintro i (given | ⟨line, -, rfl⟩ | rfl | ⟨line, listed, rfl⟩)
    · exact foreign i given
    · trivial
    · trivial
    · exact foreign_oneLine (plain line listed)
  have own : (items ++ finalItems code ls).filterMap LogItem.ownLine =
      items.filterMap LogItem.ownLine ++ ls ++ [runnerExitLine code] := by
    rw [List.filterMap_append, ownLine_finalItems, List.append_assoc]
  have sealed := sealedLines_render all
  rw [own, ← runnerLog_render] at sealed
  have vouched : (ownLines (.everyLine token) (runnerLog token items code ls)).exitVouched = true := by
    rw [(ownLines_everyLine _ _).2.1, sealed, List.any_map, List.any_eq_true]
    refine ⟨runnerExitLine code, by simp, ?_⟩
    rw [Function.comp, vouches_sealed, last]
  refine ⟨judgeTerminal_sealed ?_, vouched, ?_, ?_⟩
  · rw [sealed]
    simp
  · unfold RunnerLines.noSealedEnd
    rw [vouched, Bool.not_true, Bool.and_false, Bool.false_and]
  · rw [runnerLog_render, text_render all, own, List.filter_append, List.filter_singleton, last]
    simp

/-- Whatever is printed among a runner's lines, its log is read as what it printed before its
final block and in it; so is a log of lines each printed sealed and then plain. -/
theorem runner_log_is_read (token : LineToken) (code : Nat) (ls : List String)
    (plain : ∀ line ∈ ls, unsealLine token (oneLine line) = none) :
    (∀ items : List LogItem, (∀ i ∈ items, i.Foreign token) →
      ReadAs token (runnerLog token items code ls) (items.filterMap LogItem.ownLine ++ ls)) ∧
    ∀ before : List String, (∀ line ∈ before, unsealLine token (oneLine line) = none) →
      ReadAs token (inlineLines (some (token, .everyLine)) before ++
        finalBlock (some (token, .everyLine)) code ls) (before ++ ls) := by
  refine ⟨fun items foreign => readAs_runnerLog code plain foreign, fun before twins => ?_⟩
  have foreign : ∀ i ∈ before.flatMap fun line => [LogItem.own line, .foreign (oneLine line)],
      i.Foreign token := by
    intro i member
    obtain ⟨line, listed, here⟩ := List.mem_flatMap.mp member
    simp only [List.mem_cons, List.not_mem_nil, or_false] at here
    rcases here with rfl | rfl
    · trivial
    · exact foreign_oneLine (twins line listed)
  have own : (before.flatMap fun line => [LogItem.own line, .foreign (oneLine line)]).filterMap
      LogItem.ownLine = before := by
    rw [List.filterMap_flatMap]
    exact List.flatMap_singleton' before
  have whole := readAs_runnerLog code plain foreign
  rw [own, runnerLog, ← inlineLines_render] at whole
  exact whole

def oneToken : LineToken := ⟨"00112233445566778899aabbccddeeff", by decide⟩

/-- The exit's sealed line is not in the text, and without this kind of token an unsealed
line is. -/
theorem exit_line_left_out :
    (ownLines (.everyLine oneToken) (render oneToken [.own "runner-exit=0"])).text ≠
        unlines (["runner-exit=0"].map oneLine) ∧
      sealedLines oneToken (render oneToken [.own "a", .foreign "b"]) =
        sealedLines oneToken (render oneToken [.own "a"]) ∧
      sealedLines oneToken (render oneToken [.own "a"]) ≠ [] ∧
      (ownLines (.refusalDetail oneToken) (render oneToken [.own "a", .foreign "b"])).text ≠
        (ownLines (.refusalDetail oneToken) (render oneToken [.own "a"])).text := by
  decide +kernel

theorem runner_log_is_read_one : ReadAs oneToken (runnerLog oneToken [.foreign "b"] 0 ["a"]) ["a"] :=
  (runner_log_is_read oneToken 0 ["a"] (by decide +kernel)).1 [.foreign "b"] fun i member => by
    rw [List.mem_singleton.mp member]
    exact ⟨by decide, by decide +kernel⟩

end Logweir.Runner
