import NeurAvr.App.Base
import NeurAvr.Util
import NeurAvr.Uart.RecvInv

/-!
# The transmit pointer and the memory behind it

`UART_QueueSend(message)` copies nothing: after its wait it stores the pointer in `UART_transbuf`,
and the data-register-empty interrupt reads `transbuf[transcharptr]` from memory, one byte per
run, until the NUL. A byte stored into that buffer at or beyond the cursor before the NUL is reached
goes out on the wire. `FrameSys` keeps the pointer (`Src` and the cursor) together with the memory
it can point at: the receive rows, the report slots, `scratchstr`, the local `debug_string` of
`DoPolling`, and flash.

One `DoPolling` call is lowered to what the UART and these buffers see (`Op`): `UART_QueueSend`
(its wait, then the pointer stored), `UART_WaitForSendDone`, single-byte stores into `scratchstr`
and `debug_string`, `UART_DoneWithLine`, the report queue's reset in `ReInitState` (the wait that
follows it is the next operation), the report section's `sendPending` step and its
`MakeReportString` calls. The lowering reads the trace of the command part
(`AppState.pollCommand`); `UART_PrintChar`, `UART_PrintHex8` and `PrintShortHelp` are lowered as
the code writes them. The line `PrintShortHelp` walks is read when the call starts: the receive
interrupt leaves a held line alone (`RecvInv.run_held_slot`).

Between two operations the transmit and the receive interrupt may run (`FrameEv`); a new
`DoPolling` call starts once the previous one has returned (`SysEv.poll`). The bytes sent so far,
followed by the rest of the string in flight as memory holds it now, are the transmit `stream`;
the transmit interrupt never changes it (`stream_udreISR`).
-/

namespace NeurAvr

/-- `INT_SCRATCH_CHARS`. -/
def intScratchChars : Nat := 16

/-- What `UART_transbuf` points at: a string in flash, the receive line at address `p` of
`UART_recvlines`, report slot `k`, `scratchstr` or `debug_string`. -/
inductive Src
  | flash (text : List UInt8)
  | line (p : Nat)
  | report (k : Int)
  | scratch
  | debug
deriving Repr, DecidableEq

/-- What the main loop does that the UART or the buffers see. -/
inductive Op (n : Nat)
  | queueSend (m : Src)
  | waitForSendDone
  | storeScratch (i : Nat) (v : UInt8)
  | storeDebug (i : Nat) (v : UInt8)
  | doneWithLine
  | resetReportQueue
  | sendPending
  | makeReport (ok : Bool) (buf : ReportBuf n)
deriving DecidableEq

namespace ReportBuf

variable {n : Nat}

/-- `buffer[i] = v`. -/
def store (b : ReportBuf n) (i : Nat) (v : UInt8) : ReportBuf n :=
  ⟨b.bytes.set i v, by rw [List.length_set, b.length_eq]⟩

/-- A buffer in zero-initialised static storage. -/
def zero (n : Nat) : ReportBuf n := ⟨List.replicate n 0, List.length_replicate _ _⟩

@[simp] theorem store_bytes (b : ReportBuf n) (i : Nat) (v : UInt8) :
    (b.store i v).bytes = b.bytes.set i v := rfl

end ReportBuf

/-! ### The lowering -/

section Lowering

variable {n : Nat}

/-- `UART_PrintChar(value)`: wait until `scratchstr` is free, store the character and a NUL, send
`scratchstr`. -/
def printChar (value : UInt8) : List (Op n) :=
  [.waitForSendDone, .storeScratch 0 value, .storeScratch 1 0, .queueSend .scratch]

/-- `UART_PrintHex8(value)`: wait, zero `scratchstr`, `UTIL_WriteHex(scratchstr, value, 2)` (its
stores in the order its loop makes them; the values stored do not depend on the buffer), send
`scratchstr`. -/
def printHex8 (value : UInt8) : List (Op n) :=
  let r := writeHex (fun _ => 0) value.toUInt32 2
  .waitForSendDone :: (List.range intScratchChars).map (fun idx => .storeScratch idx 0) ++
    r.2.map (fun i => .storeScratch i (r.1 i)) ++ [.queueSend .scratch]

/-- The body shared by `UART_PrintHex32`, `UART_PrintHex16` and `UART_PrintHex8`, which differ
only in the width of `value` and in `digits`: wait, zero `scratchstr`,
`UTIL_WriteHex(scratchstr, value, digits)`, send `scratchstr`. -/
def printHex (value : UInt32) (digits : UInt8) : List (Op n) :=
  let r := writeHex (fun _ => 0) value digits
  .waitForSendDone :: (List.range intScratchChars).map (fun idx => .storeScratch idx 0) ++
    r.2.map (fun i => .storeScratch i (r.1 i)) ++ [.queueSend .scratch]

/-- `UART_PrintHex32(value)`. -/
def printHex32 (value : UInt32) : List (Op n) := printHex value 8

/-- `UART_PrintHex16(value)`. -/
def printHex16 (value : UInt16) : List (Op n) := printHex value.toUInt32 4

theorem printHex8_eq_printHex (value : UInt8) : (printHex8 value : List (Op n)) = printHex value.toUInt32 2 :=
  rfl

/-- One pass of the loop of `PrintShortHelp`: `thischar` itself when `32 <= thischar` and
`126 >= thischar` (a signed `char`), else `<`, `UART_PrintHex8(thischar)`, `>`. -/
def shortHelpChar (thischar : UInt8) : List (Op n) :=
  if 32 ≤ signedChar thischar ∧ signedChar thischar ≤ 126 then printChar thischar
  else printChar 60 ++ printHex8 thischar ++ printChar 62

/-- `PSTR("Unrecognized command:  \"")`. -/
def shortHelpIntro : List UInt8 :=
  [85, 110, 114, 101, 99, 111, 103, 110, 105, 122, 101, 100, 32, 99, 111, 109, 109, 97, 110, 100,
    58, 32, 32, 34]

/-- `PSTR("\". Type \"?\" or \"HLP\" for help.\r\n")`. -/
def shortHelpOutro : List UInt8 :=
  [34, 46, 32, 84, 121, 112, 101, 32, 34, 63, 34, 32, 111, 114, 32, 34, 72, 76, 80, 34, 32, 102,
    111, 114, 32, 104, 101, 108, 112, 46, 13, 10]

/-- `PrintShortHelp(rawline)`: the loop runs over the bytes before the NUL. -/
def printShortHelp (rawline : List UInt8) : List (Op n) :=
  .queueSend (.flash shortHelpIntro) :: (cstr rawline).flatMap shortHelpChar ++
    [.queueSend (.flash shortHelpOutro)]

/-- `snprintf_P(debug_string, NEURAPP_REPORT_BUFFER_CHARS, ...)` producing `text` (at most `n - 1`
characters and a NUL, stored in order), then `UART_QueueSend(debug_string)`. -/
def sendDebug (text : List UInt8) : List (Op n) :=
  ((text.take (n - 1) ++ [0]).enum.map fun (i, v) => .storeDebug i v) ++ [.queueSend .debug]

/-- `PSTR("\r\n")`. -/
def crlfText : List UInt8 := [13, 10]

/-- What a call of the command part does on the UART, for the line at address `p`. `texts` gives
the text of every other message: `message_lut`, `neurapp_builtin_help`, the handlers' help screens
and the `snprintf_P` results. Handler and user hooks send nothing the framework sees. -/
def lowerCall (texts : Out → List UInt8) (p : Nat) : Call → List (Op n)
  | .send (.line _) => [.queueSend (.line p)]
  | .send .crlf => [.queueSend (.flash crlfText)]
  | .send (.shortHelp l) => printShortHelp l
  | .send .freeMemory => sendDebug (texts .freeMemory)
  | .send (.skippedTicks a b) => sendDebug (texts (.skippedTicks a b))
  | .send o => [.queueSend (.flash (texts o))]
  | .waitForSendDone => [.waitForSendDone]
  | .doneWithLine => [.doneWithLine]
  | .resetReportQueue => [.resetReportQueue]
  | _ => []

/-- A report action as an operation. -/
def ReportEv.toOp : ReportEv n → List (Op n)
  | .sendPending => [.sendPending]
  | .makeReport ok buf => [.makeReport ok buf]
  | _ => []

end Lowering

/-- What one `DoPolling` call is given: the registry, the answers of its `MakeReportString` loops
(one list per run of rows, as in `AppState.doPolling`) and the texts of the messages. -/
structure Cycle (rc : ReportConfig) where
  rows : List HandlerRow
  answers : List (List (Bool × ReportBuf rc.bufferChars))
  texts : Out → List UInt8

variable {cfg : UartConfig} {rc : ReportConfig}

/-- The operations of a `DoPolling` call whose command part made `calls`, for the line at `p`: the
command part, then the report section. -/
def cycleOps (c : Cycle rc) (p : Nat) (calls : List Call) : List (Op rc.bufferChars) :=
  calls.flatMap (lowerCall c.texts p) ++
    (ReportEv.sendPending :: ((List.range (runHeads c.rows).length).map fun k =>
      ReportSys.loopEvents (c.answers.getD k [])).flatten).flatMap ReportEv.toOp

/-! ### The system -/

/-- The application's members, the receive side, `scratchstr`, `debug_string`, the transmit pointer
and cursor, the bytes put on the wire, and the main loop's remaining operations. The report
globals are `app.reports`; their `transbuf` is not kept there, the pointer being `tx`. -/
structure FrameSys (cfg : UartConfig) (rc : ReportConfig) where
  app : AppState rc
  rx : RecvState
  scratch : ReportBuf intScratchChars
  debug : ReportBuf rc.bufferChars
  tx : Option (Src × Nat)
  sent : List UInt8
  prog : List (Op rc.bufferChars)

/-- `UART_transbuf` as the report code sees it. -/
def txView : Option (Src × Nat) → Option TxBuf
  | some (.report k, _) => some (.report k)
  | some _ => some .other
  | none => none

/-- The pointer that the report code's `UART_QueueSend(reportqueue[report_read_ptr])` stores. -/
def reportTx : Option TxBuf → Option (Src × Nat)
  | some (.report k) => some (.report k, 0)
  | _ => none

/-- One action of the system: the main loop's next operation, the transmit interrupt, or the
receive interrupt with a byte. -/
inductive FrameEv
  | main
  | udre
  | recv (c : UInt8)
deriving Repr, DecidableEq

/-- An action, or the start of a `DoPolling` call. -/
inductive SysEv (rc : ReportConfig)
  | ev (e : FrameEv)
  | poll (c : Cycle rc)

namespace FrameSys

/-- The memory from the start of buffer `m` as the transmit interrupt reads it; a receive line is
read to the end of its row. -/
def content (x : FrameSys cfg rc) : Src → List UInt8
  | .flash text => text
  | .line p => (List.range cfg.lineSize).map fun j => x.rx.recvlines (p + j)
  | .report k => (x.app.reports.reportqueue k).bytes
  | .scratch => x.scratch.bytes
  | .debug => x.debug.bytes

/-- What is left to send of the string in flight, as memory holds it now. -/
def inflight (x : FrameSys cfg rc) : List UInt8 :=
  match x.tx with
  | some (m, cur) => cstr ((x.content m).drop cur)
  | none => []

/-- The transmit stream: the bytes on the wire, then the rest of the string in flight. -/
def stream (x : FrameSys cfg rc) : List UInt8 := x.sent ++ x.inflight

/-- `ISR(USART_UDRE_vect)` with `UART_GetNextSendChar_ISR`: send the byte at the cursor, or at the
NUL set `UART_transbuf = NULL`. -/
def udreISR (x : FrameSys cfg rc) : FrameSys cfg rc :=
  match x.tx with
  | none => x
  | some (m, cur) =>
    let c := (x.content m).getD cur 0
    if c = 0 then { x with tx := none } else { x with tx := some (m, cur + 1), sent := x.sent ++ [c] }

/-- `ISR(USART_RX_vect)` with `UART_HandleRecvChar_ISR`. -/
def recvISR (x : FrameSys cfg rc) (c : UInt8) : FrameSys cfg rc :=
  { x with rx := (RecvState.handleRecvCharISR cfg x.rx c).1 }

/-- The main loop runs `op`, with `ops` after it. A wait, and the wait inside `UART_QueueSend`,
spins while a string is in flight. -/
def runOp (x : FrameSys cfg rc) (ops : List (Op rc.bufferChars)) :
    Op rc.bufferChars → FrameSys cfg rc
  | .queueSend m => if x.tx = none then { x with tx := some (m, 0), prog := ops } else x
  | .waitForSendDone => if x.tx = none then { x with prog := ops } else x
  | .storeScratch i v => { x with scratch := x.scratch.store i v, prog := ops }
  | .storeDebug i v => { x with debug := x.debug.store i v, prog := ops }
  | .doneWithLine => { x with rx := RecvState.doneWithLine cfg x.rx, prog := ops }
  | .resetReportQueue =>
    { x with app := { x.app with reports := x.app.reports.reInitState }, prog := ops }
  | .sendPending =>
    let r := { x.app.reports with transbuf := txView x.tx }.sendPending
    { x with app := { x.app with reports := r }
             tx := if x.tx = none then reportTx r.transbuf else x.tx, prog := ops }
  | .makeReport ok buf =>
    { x with app := { x.app with reports := x.app.reports.makeReport ok buf }, prog := ops }

/-- The main loop's next operation, if it has one. -/
def mainStep (x : FrameSys cfg rc) : FrameSys cfg rc :=
  match x.prog with
  | [] => x
  | op :: ops => x.runOp ops op

def step (x : FrameSys cfg rc) : FrameEv → FrameSys cfg rc
  | .main => x.mainStep
  | .udre => x.udreISR
  | .recv c => x.recvISR c

def run (x : FrameSys cfg rc) (evs : List FrameEv) : FrameSys cfg rc := evs.foldl step x

@[simp] theorem run_nil (x : FrameSys cfg rc) : x.run [] = x := rfl

@[simp] theorem run_cons (x : FrameSys cfg rc) (e : FrameEv) (evs : List FrameEv) :
    x.run (e :: evs) = (x.step e).run evs := rfl

/-- The start of a `DoPolling` call, once the previous one has returned: `UART_GetNextLine`, the
decisions of the command part (`AppState.pollCommand`) on the line, and its operations with those
of the report section. The report globals change only as the operations run. -/
def startCycle (x : FrameSys cfg rc) (c : Cycle rc) : FrameSys cfg rc :=
  if x.prog.isEmpty then
    let p := RecvState.getNextLine cfg x.rx
    let r := x.app.pollCommand c.rows (p.map fun p => readCStr x.rx.recvlines p cfg.lineSize)
    { x with app := { r.1 with reports := x.app.reports }, prog := cycleOps c (p.getD 0) r.2 }
  else x

def sysStep (x : FrameSys cfg rc) : SysEv rc → FrameSys cfg rc
  | .ev e => x.step e
  | .poll c => x.startCycle c

def runSys (x : FrameSys cfg rc) (evs : List (SysEv rc)) : FrameSys cfg rc := evs.foldl sysStep x

/-! ### What each action does to the stream and the program -/

variable (x : FrameSys cfg rc)

@[simp] theorem content_tx_sent (t : Option (Src × Nat)) (s : List UInt8) (m : Src) :
    ({ x with tx := t, sent := s } : FrameSys cfg rc).content m = x.content m := by
  cases m <;> rfl

theorem stream_udreISR : x.udreISR.stream = x.stream := by
  unfold udreISR
  cases htx : x.tx with
  | none => rfl
  | some t =>
    obtain ⟨m, cur⟩ := t
    have hd := cstr_drop (x.content m) cur
    by_cases hc : (x.content m).getD cur 0 = 0
    · simp only [if_pos hc] at hd ⊢
      simp [FrameSys.stream, FrameSys.inflight, htx, hd]
    · simp only [if_neg hc] at hd ⊢
      simp [FrameSys.stream, FrameSys.inflight, htx, hd]

theorem content_recvISR (c : UInt8) {m : Src} (hm : ∀ p, m ≠ .line p) :
    (x.recvISR c).content m = x.content m := by
  cases m with
  | line p => exact absurd rfl (hm p)
  | _ => rfl

theorem stream_recvISR (c : UInt8) (h : ∀ p cur, x.tx ≠ some (.line p, cur)) :
    (x.recvISR c).stream = x.stream := by
  have htx' : (x.recvISR c).tx = x.tx := rfl
  have hsent : (x.recvISR c).sent = x.sent := rfl
  unfold FrameSys.stream FrameSys.inflight
  rw [htx', hsent]
  cases htx : x.tx with
  | none => rfl
  | some t =>
    obtain ⟨m, cur⟩ := t
    simp only [content_recvISR x c fun p hp => h p cur (hp ▸ htx)]

/-- `UART_QueueSend` with nothing in flight puts its whole string on the stream. -/
theorem stream_queueSend (htx : x.tx = none) (m : Src) (ops : List (Op rc.bufferChars)) :
    ({ x with tx := some (m, 0), prog := ops } : FrameSys cfg rc).stream =
      x.stream ++ cstr (x.content m) := by
  cases m <;> simp [FrameSys.stream, FrameSys.inflight, FrameSys.content, htx]

/-- A main-loop step spins in place, or runs the program's first operation and drops it. -/
theorem mainStep_cases : x.mainStep = x ∨ ∃ op, x.prog = op :: x.mainStep.prog := by
  unfold mainStep
  cases hp : x.prog with
  | nil => exact .inl rfl
  | cons op ops =>
    refine (?_ : x.runOp ops op = x ∨ (x.runOp ops op).prog = ops).imp id fun h => ⟨op, by rw [h]⟩
    cases op <;> simp only [runOp] <;> (try split_ifs) <;> simp

theorem sent_mainStep : x.mainStep.sent = x.sent := by
  unfold mainStep
  split
  · rfl
  · next op ops _ => cases op <;> simp only [runOp] <;> (try split_ifs) <;> rfl

theorem tx_mainStep (h : x.tx ≠ none) : x.mainStep.tx = x.tx := by
  unfold mainStep
  split
  · rfl
  · next op ops _ => cases op <;> simp [runOp, h]

theorem udreISR_mem : x.udreISR.prog = x.prog ∧ x.udreISR.app = x.app ∧ x.udreISR.rx = x.rx ∧
    x.udreISR.scratch = x.scratch ∧ x.udreISR.debug = x.debug := by
  unfold udreISR
  split
  · exact ⟨rfl, rfl, rfl, rfl, rfl⟩
  · dsimp only
    split <;> exact ⟨rfl, rfl, rfl, rfl, rfl⟩

theorem prog_step_suffix (e : FrameEv) : (x.step e).prog <:+ x.prog := by
  cases e with
  | main =>
    show x.mainStep.prog <:+ x.prog
    rcases x.mainStep_cases with h | ⟨op, h⟩
    · simp only [h, List.suffix_refl]
    · exact h ▸ List.suffix_cons op _
  | udre => simp only [step, x.udreISR_mem.1, List.suffix_refl]
  | recv c => exact List.suffix_refl _

theorem prog_run_suffix (evs : List FrameEv) : (x.run evs).prog <:+ x.prog := by
  induction evs generalizing x with
  | nil => exact List.suffix_refl _
  | cons e evs ih => exact (ih (x.step e)).trans (x.prog_step_suffix e)

end FrameSys

/-- Power-on: static storage zero, the application constructed, `UART_InitBuffers_ISR` run, nothing
in flight and the main loop between two `DoPolling` calls. -/
def FrameSys.powerOn (cfg : UartConfig) (rc : ReportConfig) : FrameSys cfg rc :=
  ⟨AppState.construct rc, RecvState.initBuffersISR cfg ⟨fun _ => 0, 0, 0, 0, 0, false, false⟩,
    ReportBuf.zero _, ReportBuf.zero _, none, [], []⟩

end NeurAvr
