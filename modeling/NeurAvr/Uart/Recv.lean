import Mathlib.Logic.Function.Basic
import Mathlib.Data.List.Range
import Mathlib.Algebra.Group.Nat.Basic

/-!
# The receive line ring (`UART_HandleRecvChar_ISR`)

The receive side of the serial channel: `UART_LINE_COUNT` slots of `UART_LINE_SIZE` bytes in one
flat array `UART_recvlines`, the cursors `oldestrow`, `newestrow`, `rowcount` (complete lines) and
`recvcharptr`, the empty-line filter flag, and the function-static `saw_cr` of the interrupt
handler. The handler is written as its branches (`terminateLine`, `appendChar`) and returns, next to
the new state, the addresses of `UART_recvlines` it stored to, so that the frame of the interrupt
can be stated.

A run is any interleaving of the RX interrupt with the main-loop calls (`RecvEv`), each atomic: the
interrupt runs with interrupts off and the main-loop calls hold an `ATOMIC_BLOCK`.
-/

namespace NeurAvr

/-- Build-time sizes of the receive ring: `UART_LINE_COUNT = 2 ^ countBits` and
`UART_LINE_SIZE = 1 << UART_LINE_BITS`. The headers require both to be powers of two, so that the
code's masks reduce modulo the size. -/
structure UartConfig where
  countBits : Nat
  lineBits : Nat
deriving Repr, DecidableEq

namespace UartConfig

/-- `UART_LINE_COUNT`. -/
def lineCount (cfg : UartConfig) : Nat := 2 ^ cfg.countBits

/-- `UART_LINE_SIZE`. -/
def lineSize (cfg : UartConfig) : Nat := 1 <<< cfg.lineBits

theorem lineCount_pos (cfg : UartConfig) : 0 < cfg.lineCount := Nat.two_pow_pos _

theorem lineSize_eq (cfg : UartConfig) : cfg.lineSize = 2 ^ cfg.lineBits := Nat.one_shiftLeft _

theorem lineSize_pos (cfg : UartConfig) : 0 < cfg.lineSize := by
  rw [lineSize_eq]; exact Nat.two_pow_pos _

end UartConfig

/-- `neur-m328p.h`: 8 lines of 64 bytes. -/
def m328p : UartConfig := ⟨3, 6⟩

/-- `neur-m2560.h`: 8 lines of 128 bytes. -/
def m2560 : UartConfig := ⟨3, 7⟩

/-- Carriage return. -/
def CR : UInt8 := 13

/-- Line feed. -/
def LF : UInt8 := 10

theorem CR_ne_LF : CR ≠ LF := by decide

/-- The receive-side globals of the UART core and the static `saw_cr` of
`UART_HandleRecvChar_ISR`. `recvlines` is `UART_recvlines` as flat memory. -/
structure RecvState where
  recvlines : Nat → UInt8
  rowcount : Nat
  oldestrow : Nat
  newestrow : Nat
  recvcharptr : Nat
  uartFilterEmptyLines : Bool
  sawCr : Bool

variable (cfg : UartConfig)

/-- `row << UART_LINE_BITS`: the first address of a slot. -/
def slotBase (r : Nat) : Nat := r <<< cfg.lineBits

/-- The `UART_LINE_SIZE` bytes of slot `r`. -/
def slotBytes (mem : Nat → UInt8) (r : Nat) : List UInt8 :=
  (List.range cfg.lineSize).map fun j => mem (slotBase cfg r + j)

/-- Address `a` lies in slot `r`. -/
def InSlot (r a : Nat) : Prop := a / cfg.lineSize = r

namespace RecvState

/-- The receive half of `UART_InitBuffers_ISR`: empty every slot, reset the cursors and the
filter. `saw_cr` is a static of the interrupt handler and is not touched. -/
def initBuffersISR (s : RecvState) : RecvState :=
  { s with
    recvlines := (List.range cfg.lineCount).foldl
      (fun m r => Function.update m (slotBase cfg r) 0) s.recvlines
    rowcount := 0, oldestrow := 0, newestrow := 0, recvcharptr := 0
    uartFilterEmptyLines := false }

/-- The end-of-line branch of `UART_HandleRecvChar_ISR`: terminate the line in progress (clamping
the cursor to the last byte), advance `newestrow` unless `UART_LINE_COUNT - 1` lines are already
complete, and empty the slot now in progress. -/
def terminateLine (s : RecvState) : RecvState × List Nat :=
  let ptr := if s.recvcharptr ≥ cfg.lineSize then cfg.lineSize - 1 else s.recvcharptr
  let a := slotBase cfg s.newestrow + ptr
  let nr := if s.rowcount < cfg.lineCount - 1 then (s.newestrow + 1) &&& (cfg.lineCount - 1)
    else s.newestrow
  let rc := if s.rowcount < cfg.lineCount - 1 then s.rowcount + 1 else s.rowcount
  let b := slotBase cfg nr
  ({ s with recvlines := Function.update (Function.update s.recvlines a 0) b 0
            newestrow := nr, rowcount := rc, recvcharptr := 0 }, [a, b])

/-- The ordinary-character branch: store the byte if the slot has room, else drop it. -/
def appendChar (s : RecvState) (c : UInt8) : RecvState × List Nat :=
  if s.recvcharptr < cfg.lineSize then
    let a := slotBase cfg s.newestrow + s.recvcharptr
    ({ s with recvlines := Function.update s.recvlines a c, recvcharptr := s.recvcharptr + 1 }, [a])
  else (s, [])

/-- The body of `UART_HandleRecvChar_ISR` before the `saw_cr` update. -/
def recvBody (s : RecvState) (c : UInt8) : RecvState × List Nat :=
  if s.sawCr && c == LF then (s, [])
  else if c == LF || c == CR then
    if s.uartFilterEmptyLines && s.recvcharptr == 0 then (s, []) else terminateLine cfg s
  else appendChar cfg s c

/-- `UART_HandleRecvChar_ISR(recvchar)`: the new state and the addresses stored to. -/
def handleRecvCharISR (s : RecvState) (c : UInt8) : RecvState × List Nat :=
  ({ (recvBody cfg s c).1 with sawCr := c == CR }, (recvBody cfg s c).2)

/-- `UART_GetNextLine()`: the address of the oldest complete line, or `NULL`. -/
def getNextLine (s : RecvState) : Option Nat :=
  if 0 < s.rowcount then some (slotBase cfg s.oldestrow) else none

/-- `UART_DoneWithLine()`. -/
def doneWithLine (s : RecvState) : RecvState :=
  if 0 < s.rowcount then
    { s with oldestrow := (s.oldestrow + 1) &&& (cfg.lineCount - 1), rowcount := s.rowcount - 1 }
  else s

/-- `UART_SetLineFiltering(new_state)`. -/
def setLineFiltering (s : RecvState) (b : Bool) : RecvState :=
  { s with uartFilterEmptyLines := b }

end RecvState

/-- One atomic action on the receive side: the RX interrupt, or a main-loop call (each of which
holds an atomic section). Reads of a returned line do not change the state. -/
inductive RecvEv
  | recvChar (c : UInt8)
  | getNextLine
  | doneWithLine
  | setLineFiltering (b : Bool)
deriving Repr, DecidableEq

namespace RecvState

/-- The effect of one action. -/
def step (s : RecvState) : RecvEv → RecvState
  | .recvChar c => (handleRecvCharISR cfg s c).1
  | .getNextLine => s
  | .doneWithLine => doneWithLine cfg s
  | .setLineFiltering b => setLineFiltering s b

/-- A run: the actions applied in order. -/
def run (s : RecvState) (evs : List RecvEv) : RecvState := evs.foldl (step cfg) s

@[simp] theorem run_nil (s : RecvState) : run cfg s [] = s := rfl

@[simp] theorem run_cons (s : RecvState) (e : RecvEv) (evs : List RecvEv) :
    run cfg s (e :: evs) = run cfg (step cfg s e) evs := rfl

end RecvState

end NeurAvr
