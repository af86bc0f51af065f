import NeurAvr.App.Tick
import NeurAvr.App.Report

/-!
# The application (`NeurApp_Base`)

`DoInitialSetup`, `ReInitState` and `DoPolling` over a registry: the members they change and the
trace of the calls they make. `DoPolling` takes the line `UART_GetNextLine` returned, if any,
parses it, runs a built-in command or dispatches it to the registry, then calls
`SaveReportState_Fast` on every row inside an atomic block, runs the report section of
`App/Report.lean` (one `MakeReportString` loop per run of adjacent rows), and calls
`HandlePolling` per run and `UserUpdatePoll`.

The lifecycle loops are `distinctLoop`s, so each calls its hook once per run of adjacent rows that
share a handler (`runHeads`). Two loops walk every row: `InitState` in `ReInitState`, whose comment
says multiple calls are fine, and `SaveReportState_Fast` in `DoPolling`.
-/

namespace NeurAvr

/-- `cmd_ident`: `IDQ`. -/
def cmdIdent : List UInt8 := [73, 68, 81]

/-- `cmd_reset`: `INI`. -/
def cmdReset : List UInt8 := [73, 78, 73]

/-- `cmd_echo`: `ECH`. -/
def cmdEcho : List UInt8 := [69, 67, 72]

/-- `cmd_debug_mem`: `ZZM`. -/
def cmdDebugMem : List UInt8 := [90, 90, 77]

/-- `cmd_debug_evticks`: `ZZE`. -/
def cmdDebugEvticks : List UInt8 := [90, 90, 69]

/-- The members of `NeurApp_Base` that the main loop reads and writes. -/
structure AppState (cfg : ReportConfig) where
  parser : Parser
  echoState : Bool
  reports : ReportSys cfg
  ticks : TickState

/-- `NEURAPP_DEFAULT_ECHO`. -/
def neurappDefaultEcho : Bool := true

/-- The application object after its constructor, in zero-initialised static storage:
`parser.ResetState()` and `echo_state = NEURAPP_DEFAULT_ECHO`, everything else zero. -/
def AppState.construct (cfg : ReportConfig) : AppState cfg :=
  ⟨Parser.reset, neurappDefaultEcho,
    ⟨fun _ => ⟨List.replicate cfg.bufferChars 0, List.length_replicate _ _⟩, 0, 0, 0, false, none,
      [], []⟩,
    ⟨false, false, 0, 0⟩⟩

namespace AppState

variable {cfg : ReportConfig}

/-- `ReInitState()` over `event_lut`: reset the parser, the report queue (its buffers first, then
the wait in `UART_WaitForSendDone`) and the tick totals, then `UserInitState()` and `InitState` on
every row. -/
def reInitState (s : AppState cfg) (lut : Option (List HandlerRow)) : AppState cfg × List Call :=
  ({ s with parser := s.parser.resetState, reports := s.reports.reInitState
            ticks := s.ticks.reInitState },
    [.resetReportQueue, .waitForSendDone, .user .initState] ++
      (lut.map (everyLoop fun h => [.hook .initState h])).getD [])

/-- The built-in commands, then the dispatch to the registry, for the new command `cmd`: the state
afterwards, the calls, and `bad_command`. -/
def runCommand (s : AppState cfg) (rows : List HandlerRow) (cmd : CmdOut) :
    AppState cfg × List Call × Bool :=
  if commandMatch cmd.cmd cmdHelp then
    (s, [.send .crlf, .send .helpMessageLong, .send .crlf, .send .builtinHelp] ++
      distinctLoop (fun h => [.send .crlf, .hook .getHelpScreen h, .send (.helpScreen h)]) none
        rows ++ [.send .crlf], false)
  else if commandMatch cmd.cmd cmdIdent then (s, [.send .identityMessage], false)
  else if commandMatch cmd.cmd cmdReset then
    let (s, calls) := s.reInitState (some rows)
    (s, calls, false)
  else if commandMatch cmd.cmd cmdEcho then
    if cmd.argcount = 1 then ({ s with echoState := cmd.arg1 != 0 }, [], false) else (s, [], true)
  else if commandMatch cmd.cmd cmdDebugMem then (s, [.send .freeMemory, .waitForSendDone], false)
  else if commandMatch cmd.cmd cmdDebugEvticks then
    (s, [.send (.skippedTicks s.ticks.skippedTicksShortTotal s.ticks.skippedTicksLongTotal),
      .waitForSendDone], false)
  else
    let (calls, bad) := dispatchCommand cmd rows
    (s, calls, bad)

/-- The command part of `DoPolling()`, for the line `UART_GetNextLine()` returned if any: echo it,
parse it, run a new command, print the short help for a bad line or command, and release the line.
The outputs of `WasNewCommand` are locals the code reads only when it reports a new command. -/
def pollCommand (s : AppState cfg) (rows : List HandlerRow) :
    Option (List UInt8) → AppState cfg × List Call
  | none => (s, [])
  | some line =>
    let echo := if s.echoState then [.send (.line line), .send .crlf] else []
    let (p, ok) := s.parser.parseInputLine line
    let s := { s with parser := p }
    let (s, calls) :=
      if ok then
        let (p, isNew, cmd) := s.parser.wasNewCommand ⟨[], 0, 0, 0⟩
        let s := { s with parser := p }
        if isNew then
          let (s, calls, bad) := s.runCommand rows cmd
          (s, calls ++ if bad then [.send (.shortHelp line)] else [])
        else (s, [])
      else (s, [.send (.shortHelp line)])
    (s, echo ++ calls ++ [.doneWithLine])

/-- The calls of each branch of the `CommandMatch` chain: `HLP`, `IDQ`, `INI`, `ECH`, `ZZM`, `ZZE`,
then the dispatch to the registry. -/
theorem runCommand_calls (s : AppState cfg) (rows : List HandlerRow) (cmd : CmdOut) :
    (s.runCommand rows cmd).2.1 = [.send .crlf, .send .helpMessageLong, .send .crlf,
        .send .builtinHelp] ++ distinctLoop (fun h => [.send .crlf, .hook .getHelpScreen h,
          .send (.helpScreen h)]) none rows ++ [.send .crlf] ∨
      (s.runCommand rows cmd).2.1 = [.send .identityMessage] ∨
      (s.runCommand rows cmd).2.1 = (s.reInitState (some rows)).2 ∨
      (s.runCommand rows cmd).2.1 = [] ∨
      (s.runCommand rows cmd).2.1 = [.send .freeMemory, .waitForSendDone] ∨
      (∃ a b, (s.runCommand rows cmd).2.1 = [.send (.skippedTicks a b), .waitForSendDone]) ∨
      (s.runCommand rows cmd).2.1 = (dispatchCommand cmd rows).1 := by
  unfold runCommand
  by_cases h₁ : commandMatch cmd.cmd cmdHelp
  · exact .inl (by rw [if_pos h₁])
  rw [if_neg h₁]
  by_cases h₂ : commandMatch cmd.cmd cmdIdent
  · exact .inr (.inl (by rw [if_pos h₂]))
  rw [if_neg h₂]
  by_cases h₃ : commandMatch cmd.cmd cmdReset
  · exact .inr (.inr (.inl (by rw [if_pos h₃])))
  rw [if_neg h₃]
  by_cases h₄ : commandMatch cmd.cmd cmdEcho
  · exact .inr (.inr (.inr (.inl (by rw [if_pos h₄]; split <;> rfl))))
  rw [if_neg h₄]
  by_cases h₅ : commandMatch cmd.cmd cmdDebugMem
  · exact .inr (.inr (.inr (.inr (.inl (by rw [if_pos h₅])))))
  rw [if_neg h₅]
  by_cases h₆ : commandMatch cmd.cmd cmdDebugEvticks
  · exact .inr (.inr (.inr (.inr (.inr (.inl ⟨_, _, by rw [if_pos h₆]⟩)))))
  rw [if_neg h₆]
  exact .inr (.inr (.inr (.inr (.inr (.inr rfl)))))

end AppState

open AppState

variable {cfg : ReportConfig}

end NeurAvr
