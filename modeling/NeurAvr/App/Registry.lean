import NeurAvr.App.Parser
import Mathlib.Data.List.Destutter

/-!
# The event handler registry (`neurapp_event_handler_row_t`)

The registry is an array of rows, each a handler reference and a command list, ended by a row with
a NULL handler; a command list is ended by an entry with a negative `argcount`. The same handler
may stand in adjacent rows with different command lists. `NeurApp_Base` walks the registry in two
ways: a lifecycle loop calls a hook on the handler of a row unless the row before has the same
handler (`distinctLoop`), and a few loops call it on every row (`everyLoop`). The command loop
(`dispatchCommand`) scans every row's list, duplicates included, and stops at the first entry whose
name matches.

What the application does is recorded as a trace of `Call`s. The abstract reading of a lifecycle
loop is `runHeads`, the handler of each maximal run of adjacent rows with one handler: Mathlib's
`List.destutter` on the handler column. `distinctLoop_none` says the loop is that.
-/

namespace NeurAvr

/-- A handler reference: which `NeurAppEvent_Base` object a row points at. Rows are compared by
this reference alone. -/
abbrev HandlerRef := Nat

/-- `neurapp_cmd_list_row_t`. -/
structure CmdDef where
  name : List UInt8
  opcode : UInt8
  argcount : Int
deriving Repr, DecidableEq

/-- `neurapp_event_handler_row_t`, for the rows before the NULL handler: `cmdlist` is `none` for a
NULL list and otherwise its entries, the terminator included where it is listed. -/
structure HandlerRow where
  handler : HandlerRef
  cmdlist : Option (List CmdDef)
deriving Repr, DecidableEq

/-- The hooks of `NeurAppEvent_Base` that the registry loops call. -/
inductive Hook
  | initHardware
  | initState
  | handleTick
  | handlePollHighPriority
  | saveReportStateFast
  | makeReportString
  | handlePolling
  | getHelpScreen
deriving Repr, DecidableEq

/-- The `User*` hooks of `NeurApp_Base`. -/
inductive UserHook
  | initHardware
  | initState
  | updateTimer
  | pollHighPriority
  | updatePoll
deriving Repr, DecidableEq

/-- What the polling loop hands to `UART_QueueSend` and `UART_QueueSend_P`, reports apart. -/
inductive Out
  | line (l : List UInt8)
  | crlf
  | helpMessageLong
  | builtinHelp
  | helpScreen (h : HandlerRef)
  | identityMessage
  | shortHelp (l : List UInt8)
  | freeMemory
  | skippedTicks (short long : UInt32)
deriving Repr, DecidableEq

/-- One thing the application does that a handler, the user hooks or the UART sees. A
`makeReportString` hook stands for the `while` loop that asks the handler for report strings; how
many strings that loop takes is the report queue's business (`ReportSys.reportLoop`).
`resetReportQueue` is the reset of the report queue in `ReInitState` (the pointers cleared and a
NUL stored at the head of every buffer), which the UART sees when it is sending one of them. -/
inductive Call
  | hook (h : Hook) (handler : HandlerRef)
  | handleCommand (handler : HandlerRef) (opcode : UInt8) (arg1 arg2 : UInt16)
  | user (u : UserHook)
  | send (o : Out)
  | waitForSendDone
  | doneWithLine
  | resetReportQueue
deriving Repr, DecidableEq

/-! ### The two kinds of loop -/

/-- `for (hidx = 0; NULL != event_lut[hidx].handler; hidx++)
if ((1 > hidx) || (event_lut[hidx].handler != event_lut[hidx-1].handler)) body;`
with `prev` the handler of row `hidx - 1`, `none` at `hidx = 0`. -/
def distinctLoop (body : HandlerRef → List Call) : Option HandlerRef → List HandlerRow → List Call
  | _, [] => []
  | prev, r :: rs =>
    (if prev ≠ some r.handler then body r.handler else []) ++ distinctLoop body (some r.handler) rs

/-- `for (hidx = 0; NULL != event_lut[hidx].handler; hidx++) body;` -/
def everyLoop (body : HandlerRef → List Call) (rows : List HandlerRow) : List Call :=
  (rows.map fun r => body r.handler).flatten

/-- The handler of each maximal run of adjacent rows that share a handler, in row order. -/
def runHeads (rows : List HandlerRow) : List HandlerRef :=
  (rows.map HandlerRow.handler).destutter (· ≠ ·)

theorem distinctLoop_some (body : HandlerRef → List Call) (a : HandlerRef)
    (rows : List HandlerRow) :
    body a ++ distinctLoop body (some a) rows =
      (((rows.map HandlerRow.handler).destutter' (· ≠ ·) a).map body).flatten := by
  induction rows generalizing a with
  | nil => simp [distinctLoop, List.destutter'_nil]
  | cons r rs ih =>
    by_cases e : a = r.handler
    · subst e
      simp [distinctLoop, ← ih, List.destutter'_cons_neg]
    · simp [distinctLoop, ← ih, List.destutter'_cons_pos (R := (· ≠ ·)) _ e, e]

theorem distinctLoop_none (body : HandlerRef → List Call) (rows : List HandlerRow) :
    distinctLoop body none rows = ((runHeads rows).map body).flatten := by
  cases rows with
  | nil => rfl
  | cons r rs =>
    rw [runHeads, List.map_cons, List.destutter_cons', ← distinctLoop_some, distinctLoop]
    simp

/-- `CommandMatch(first, second)`: the `NEURAPP_CMD_CHARS` bytes agree. -/
def commandMatch (first second : List UInt8) : Bool :=
  (List.range cmdChars).all fun cidx => first.getD cidx 0 == second.getD cidx 0

/-- The scan of one command list,
`for (cidx = 0; (!found) && (0 <= cmdlist[cidx].argcount); cidx++)`: `none` when it ends without a match, otherwise the call to the row's handler when the argument
count agrees, or `bad_command`. -/
def scanCmdList (cmd : CmdOut) (h : HandlerRef) : List CmdDef → Option (List Call × Bool)
  | [] => none
  | d :: ds =>
    if 0 ≤ d.argcount then
      if commandMatch cmd.cmd d.name then
        some (if cmd.argcount = d.argcount then
          ([.handleCommand h d.opcode cmd.arg1 cmd.arg2], false) else ([], true))
      else scanCmdList cmd h ds
    else none

/-- The dispatch of a command that is not built in: the rows in order, every row's list scanned
(adjacent duplicates included) until an entry matches; `bad_command` when none does. -/
def dispatchCommand (cmd : CmdOut) : List HandlerRow → List Call × Bool
  | [] => ([], true)
  | r :: rs =>
    match r.cmdlist.bind (scanCmdList cmd r.handler) with
    | some res => res
    | none => dispatchCommand cmd rs

theorem dispatchCommand_append {cmd : CmdOut} {pre : List HandlerRow}
    (hpre : ∀ q ∈ pre, q.cmdlist.bind (scanCmdList cmd q.handler) = none) (rows : List HandlerRow) :
    dispatchCommand cmd (pre ++ rows) = dispatchCommand cmd rows := by
  induction pre with
  | nil => rfl
  | cons q pre ih =>
    rw [List.cons_append, dispatchCommand, hpre q (List.mem_cons_self _ _)]
    exact ih fun q' hq' => hpre q' (List.mem_cons_of_mem _ hq')

theorem scanCmdList_found {cmd : CmdOut} {h : HandlerRef} {pre : List CmdDef} {d : CmdDef}
    (hpre : ∀ e ∈ pre, 0 ≤ e.argcount ∧ commandMatch cmd.cmd e.name = false)
    (hd : commandMatch cmd.cmd d.name) (hc : cmd.argcount = d.argcount) (hn : 0 ≤ d.argcount)
    (post : List CmdDef) :
    scanCmdList cmd h (pre ++ d :: post) =
      some ([.handleCommand h d.opcode cmd.arg1 cmd.arg2], false) := by
  induction pre with
  | nil => simp [scanCmdList, hd, hc, hn]
  | cons e pre ih =>
    obtain ⟨he, hm⟩ := hpre e (List.mem_cons_self _ _)
    simp only [List.cons_append, scanCmdList, he, hm, if_true]
    exact ih fun e' he' => hpre e' (List.mem_cons_of_mem _ he')

/-- The dispatch does not skip adjacent duplicates: a command that only a later row's list holds
reaches that row's handler, whatever the handlers of the rows before it. -/
theorem dispatchCommand_later_row {cmd : CmdOut} {pre : List HandlerRow} {r : HandlerRow}
    {ds : List CmdDef} {d : CmdDef} (post : List CmdDef) (rows : List HandlerRow)
    (hpre : ∀ q ∈ pre, q.cmdlist.bind (scanCmdList cmd q.handler) = none)
    (hr : r.cmdlist = some (ds ++ d :: post))
    (hds : ∀ e ∈ ds, 0 ≤ e.argcount ∧ commandMatch cmd.cmd e.name = false)
    (hd : commandMatch cmd.cmd d.name) (hc : cmd.argcount = d.argcount) (hn : 0 ≤ d.argcount) :
    dispatchCommand cmd (pre ++ r :: rows) =
      ([.handleCommand r.handler d.opcode cmd.arg1 cmd.arg2], false) := by
  rw [dispatchCommand_append hpre, dispatchCommand, hr, Option.some_bind,
    scanCmdList_found hds hd hc hn post]

/-- Handler 1 in two adjacent rows, `ABC` only in the second row's list: `ABC 5` reaches it. -/
theorem dispatchCommand_later_row_adjacent :
    let cmd : CmdOut := ⟨[65, 66, 67], 5, 0, 1⟩
    let d : CmdDef := ⟨[65, 66, 67], 7, 1⟩
    ((∀ q ∈ [(⟨1, some [⟨[88, 89, 90], 3, 0⟩]⟩ : HandlerRow)],
        q.cmdlist.bind (scanCmdList cmd q.handler) = none) ∧
      (⟨1, some [d]⟩ : HandlerRow).cmdlist = some ([] ++ d :: []) ∧
      (∀ e ∈ ([] : List CmdDef), 0 ≤ e.argcount ∧ commandMatch cmd.cmd e.name = false) ∧
      commandMatch cmd.cmd d.name = true ∧ cmd.argcount = d.argcount ∧ 0 ≤ d.argcount) ∧
    dispatchCommand cmd ([⟨1, some [⟨[88, 89, 90], 3, 0⟩]⟩] ++ ⟨1, some [d]⟩ :: []) =
      ([.handleCommand 1 7 5 0], false) := by
  intro cmd d
  exact ⟨⟨by decide, rfl, by decide, by decide, rfl, by decide⟩,
    @dispatchCommand_later_row cmd [⟨1, some [⟨[88, 89, 90], 3, 0⟩]⟩] ⟨1, some [d]⟩ [] d [] []
      (by decide) rfl (by decide) (by decide) rfl (by decide)⟩

end NeurAvr
