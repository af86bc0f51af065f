import NeurAvr.Uart.Lines
import NeurAvr.Uart.Send

/-!
# The emulator's UART threads (`UART_ReadThread`, `UART_WriteThread`, `UART_FeederThread`)

On the workstation build the UART is three threads and two string queues. `UART_ReadThread` reads
a line of standard input with `getline`, puts the newline back and appends the string to
`read_buffer`. `UART_WriteThread` takes the oldest string of `write_buffer` and prints it.
`UART_FeederThread` stands for the two interrupts: while `uart_active` it moves a finished transmit
string to `write_buffer`, takes the next string of `read_buffer` once the current one is used up,
hands one received character to `UART_HandleRecvChar_ISR`, and calls `UART_GetNextSendChar_ISR`
once, collecting the characters of a message until a call returns `false`. `UART_Init` only sets
`real_baud_rate` and `uart_active`.

Each thread touches the queues, the flags and the framework's UART state only inside
`ATOMIC_BLOCK`, which the emulation's atomic section makes mutually exclusive (`Emu/Atomic`), so
those blocks are the model's atomic steps; `getline` and the print touch only the thread's own
string. `EmuUart` is the three threads with the framework's receive side (`Consumer`: the main
loop's `UART_GetNextLine` and `UART_DoneWithLine`) and transmit side (`TxSys`: its
`UART_QueueSend`), standard input still unread and standard output so far. The threads may run
from the start; before `UART_Init` the feeder finds `uart_active` clear. Standard input is a
finite stream. At its end `getline` returns what follows the last LF and sets `eofbit`; from then
on its sentry fails and it returns at once, leaving the reader's `thismsg` as it was, so the reader
pushes that string with one more LF on every pass (`eofBytes`).

`RelayInv` is the invariant of every run: the bytes handed to `UART_HandleRecvChar_ISR`, the
bytes in transit and the unread input are the input, in order, followed by what the reader made up
at its end; the bytes printed and in transit are the bytes `UART_GetNextSendChar_ISR` returned, in
order; and the framework's two sides are runs of their own models on exactly the events the
threads and the main loop produced.
-/

namespace NeurAvr

/-- The main loop's calls on the receive side. -/
inductive RxCall
  | getNextLine
  | doneWithLine
  | setLineFiltering (b : Bool)
deriving Repr, DecidableEq

def RxCall.toRecvEv : RxCall → RecvEv
  | .getNextLine => .getNextLine
  | .doneWithLine => .doneWithLine
  | .setLineFiltering b => .setLineFiltering b

/-- The main loop's calls on the transmit side: `UART_QueueSend(m)`, and one step of the call in
progress. -/
inductive TxCall
  | queueSend (m : Option Msg)
  | mainStep
deriving Repr, DecidableEq

def TxCall.toTxEv : TxCall → TxEv
  | .queueSend m => .queueSend m
  | .mainStep => .mainStep

/-- The emulator's UART: `uart_active`, `real_baud_rate`, the two queues, each thread's own
string (the reader's `thismsg`, and whether it is yet to be pushed; the writer's `thismsg` between
its pop and its print; the feeder's `transmit_string`, `transmit_string_ready` and
`receive_string` from `receive_idx` on), the framework's two sides, standard input still unread and
whether `getline` has met its end, standard output so far, and as history the events each side has
seen and the `getline` calls at the end of input. -/
structure EmuUart where
  uartActive : Bool
  realBaudRate : UInt32
  readBuffer : List (List UInt8)
  writeBuffer : List (List UInt8)
  readerMsg : List UInt8
  readerReady : Bool
  writerMsg : Option (List UInt8)
  transmitString : List UInt8
  transmitStringReady : Bool
  receiveRest : List UInt8
  rx : Consumer
  tx : TxSys
  stdin : List UInt8
  stdinEof : Bool
  stdout : List UInt8
  rxLog : List RecvEv
  txLog : List TxEv
  eofReads : Nat

/-- One atomic step of one thread, or a call of the main loop. -/
inductive EmuEv
  | getline
  | readerPush
  | writerPop
  | writerPrint
  | feeder
  | uartInit (baudRate : UInt32)
  | rxCall (c : RxCall)
  | txCall (c : TxCall)
deriving Repr, DecidableEq

namespace EmuUart

variable (cfg : UartConfig)

/-- The static state with standard input `input`, the receive side `m₀` and the transmit side
after `UART_InitBuffers_ISR`. -/
def start (input : List UInt8) (m₀ : Consumer) (s : SendState) : EmuUart :=
  ⟨false, 0, [], [], [], false, none, [], false, [], m₀, TxSys.init s, input, false, [], [], [], 0⟩

/-- `getline(std::cin, thismsg); thismsg += '\n';`. `getline` reads up to an LF and drops it; at
the end of input it returns the rest and sets `eofbit`, after which its sentry fails and it leaves
`thismsg` as it was. -/
def getline (u : EmuUart) : EmuUart :=
  if u.readerReady then u
  else if u.stdinEof then
    { u with readerMsg := u.readerMsg ++ [LF], readerReady := true, eofReads := u.eofReads + 1 }
  else
    match u.stdin.dropWhile (· ≠ LF) with
    | _ :: rest =>
      { u with readerMsg := u.stdin.takeWhile (· ≠ LF) ++ [LF], readerReady := true, stdin := rest }
    | [] =>
      { u with readerMsg := u.stdin ++ [LF], readerReady := true, stdin := [], stdinEof := true
               eofReads := u.eofReads + 1 }

/-- The reader's atomic block: `read_buffer.push_back(thismsg)`. -/
def readerPush (u : EmuUart) : EmuUart :=
  if u.readerReady then { u with readBuffer := u.readBuffer ++ [u.readerMsg], readerReady := false }
  else u

/-- The reader's string while it is yet to be pushed. -/
def readerPending (u : EmuUart) : List UInt8 := if u.readerReady then u.readerMsg else []

/-- The writer's atomic block: the oldest string of `write_buffer`, if any, into `thismsg`. -/
def writerPop (u : EmuUart) : EmuUart :=
  match u.writerMsg, u.writeBuffer with
  | none, m :: ms => { u with writerMsg := some m, writeBuffer := ms }
  | _, _ => u

/-- `std::cout << thismsg`. -/
def writerPrint (u : EmuUart) : EmuUart :=
  match u.writerMsg with
  | some m => { u with stdout := u.stdout ++ m, writerMsg := none }
  | none => u

/-- `if (transmit_string_ready)`: the finished transmit string goes to `write_buffer`. -/
def queueTransmit (u : EmuUart) : EmuUart :=
  if u.transmitStringReady then
    { u with writeBuffer := u.writeBuffer ++ [u.transmitString], transmitStringReady := false,
             transmitString := [] }
  else u

/-- `if (receive_string.end() == receive_idx)`: the next string of `read_buffer`, if any. -/
def takeReceived (u : EmuUart) : EmuUart :=
  match u.receiveRest, u.readBuffer with
  | [], m :: ms => { u with receiveRest := m, readBuffer := ms }
  | _, _ => u

/-- `if (receive_string.end() != receive_idx)`: one character to `UART_HandleRecvChar_ISR`. -/
def handOver (u : EmuUart) : EmuUart :=
  match u.receiveRest with
  | c :: cs =>
    { u with rx := Consumer.step cfg u.rx (.recvChar c), rxLog := u.rxLog ++ [.recvChar c],
             receiveRest := cs }
  | [] => u

/-- One call of `UART_GetNextSendChar_ISR`: its character extends `transmit_string`; its `false`
marks a non-empty one finished. -/
def collect (u : EmuUart) : EmuUart :=
  match u.tx.tx.udreISR.2 with
  | some c => { u with tx := u.tx.step .udre, txLog := u.txLog ++ [.udre],
                       transmitString := u.transmitString ++ [c] }
  | none => { u with tx := u.tx.step .udre, txLog := u.txLog ++ [.udre],
                     transmitStringReady := u.transmitStringReady || !u.transmitString.isEmpty }

/-- One pass of the feeder's loop, its atomic block. -/
def feeder (u : EmuUart) : EmuUart :=
  if u.uartActive then collect (handOver cfg (takeReceived (queueTransmit u))) else u

def step (u : EmuUart) : EmuEv → EmuUart
  | .getline => u.getline
  | .readerPush => u.readerPush
  | .writerPop => u.writerPop
  | .writerPrint => u.writerPrint
  | .feeder => u.feeder cfg
  | .uartInit b => { u with realBaudRate := b, uartActive := decide (0 < b) }
  | .rxCall c => { u with rx := Consumer.step cfg u.rx c.toRecvEv, rxLog := u.rxLog ++ [c.toRecvEv] }
  | .txCall c => { u with tx := u.tx.step c.toTxEv, txLog := u.txLog ++ [c.toTxEv] }

def run (u : EmuUart) (evs : List EmuEv) : EmuUart := evs.foldl (step cfg) u

end EmuUart

/-! ### End of input -/

/-- What follows the last LF of a stream: what `getline` returns at its end. -/
def lastLine (bs : List UInt8) : List UInt8 :=
  bs.foldl (fun l c => if c = LF then [] else l ++ [c]) []

/-- The bytes the reader makes up in `k` passes at the end of input: the LF after what followed the
last LF, then that line again with one more LF each pass. -/
def eofBytes (l : List UInt8) : Nat → List UInt8
  | 0 => []
  | 1 => [LF]
  | k + 2 => eofBytes l (k + 1) ++ l ++ List.replicate (k + 2) LF

@[simp] theorem eofBytes_zero (l : List UInt8) : eofBytes l 0 = [] := rfl

theorem eofBytes_succ_of_pos (l : List UInt8) {k : Nat} (hk : 0 < k) :
    eofBytes l (k + 1) = eofBytes l k ++ l ++ List.replicate (k + 1) LF := by
  obtain ⟨j, rfl⟩ : ∃ j, k = j + 1 := ⟨k - 1, by omega⟩
  rfl

theorem lastLine_append_LF (bs rest : List UInt8) : lastLine (bs ++ LF :: rest) = lastLine rest := by
  simp only [lastLine, List.foldl_append, List.foldl_cons, if_true]

theorem foldl_lastLine_of_forall (acc : List UInt8) {bs : List UInt8} (h : ∀ c ∈ bs, c ≠ LF) :
    bs.foldl (fun l c => if c = LF then [] else l ++ [c]) acc = acc ++ bs := by
  induction bs generalizing acc with
  | nil => simp
  | cons c cs ih =>
    rw [List.foldl_cons, if_neg (h c (List.mem_cons_self _ _)),
      ih _ fun d hd => h d (List.mem_cons_of_mem _ hd), List.append_assoc, List.singleton_append]

theorem lastLine_of_forall {bs : List UInt8} (h : ∀ c ∈ bs, c ≠ LF) : lastLine bs = bs :=
  foldl_lastLine_of_forall [] h

/-! ### The relay invariant -/

@[simp] theorem recvBytes_append (l l' : List RecvEv) : recvBytes (l ++ l') = recvBytes l ++ recvBytes l' :=
  List.filterMap_append _ _ _

@[simp] theorem recvBytes_rxCall (c : RxCall) : recvBytes [c.toRecvEv] = [] := by
  cases c <;> rfl

@[simp] theorem sent_step_txCall (t : TxSys) (c : TxCall) : (t.step c.toTxEv).sent = t.sent := by
  cases c with
  | queueSend m => simp only [TxCall.toTxEv, TxSys.step]; split <;> rfl
  | mainStep =>
    simp only [TxCall.toTxEv, TxSys.step, TxSys.mainStep]
    split
    · rfl
    · split <;> rfl
    all_goals rfl

/-- The relay invariant, from standard input `input`, receive side `m₀` and transmit side `t₀`. -/
structure RelayInv (cfg : UartConfig) (input : List UInt8) (m₀ : Consumer) (t₀ : TxSys)
    (u : EmuUart) : Prop where
  rx : u.rx = m₀.run cfg u.rxLog
  tx : u.tx = t₀.run u.txLog
  recv : recvBytes u.rxLog ++ u.receiveRest ++ u.readBuffer.flatten ++ u.readerPending ++ u.stdin =
    input ++ eofBytes (lastLine input) u.eofReads
  send : t₀.sent ++ u.stdout ++ u.writerMsg.getD [] ++ u.writeBuffer.flatten ++ u.transmitString = u.tx.sent
  atEof : u.stdinEof = true →
    u.stdin = [] ∧ 0 < u.eofReads ∧ u.readerMsg = lastLine input ++ List.replicate u.eofReads LF
  beforeEof : u.stdinEof = false → u.eofReads = 0 ∧ lastLine u.stdin = lastLine input

namespace RelayInv

variable {cfg : UartConfig} {input : List UInt8} {m₀ : Consumer} {t₀ : TxSys} {u : EmuUart}

theorem start (input : List UInt8) (m₀ : Consumer) (s : SendState) :
    RelayInv cfg input m₀ (TxSys.init s) (EmuUart.start input m₀ s) :=
  ⟨rfl, rfl, by simp [EmuUart.start, EmuUart.readerPending, recvBytes],
    by simp [EmuUart.start, TxSys.init], fun h => absurd h Bool.false_ne_true, fun _ => ⟨rfl, rfl⟩⟩

/-- `getline` moves a whole line, its newline included, from the input to the reader's string; at
the end of input it makes up one more LF. -/
theorem getline (h : RelayInv cfg input m₀ t₀ u) : RelayInv cfg input m₀ t₀ u.getline := by
  unfold EmuUart.getline
  split
  case isTrue => exact h
  case isFalse hr =>
    have hrecv := h.recv
    rw [show u.readerPending = [] by simp [EmuUart.readerPending, hr], List.append_nil] at hrecv
    split
    case isTrue he =>
      -- the sentry fails: one more LF on the string pushed last
      obtain ⟨hs, hk, hm⟩ := h.atEof he
      refine ⟨h.rx, h.tx, ?_, h.send, fun _ => ⟨hs, Nat.succ_pos _, by
        rw [hm, List.append_assoc, ← List.replicate_succ']⟩, fun h' => Bool.noConfusion (he.symm.trans h')⟩
      rw [hs, List.append_nil] at hrecv
      show _ ++ (u.readerMsg ++ [LF]) ++ u.stdin = input ++ eofBytes (lastLine input) (u.eofReads + 1)
      rw [hs, List.append_nil, ← List.append_assoc, hrecv, hm, eofBytes_succ_of_pos _ hk,
        List.replicate_succ']
      simp only [List.append_assoc]
    case isFalse he =>
      obtain ⟨hk, hl⟩ := h.beforeEof (by simpa using he)
      split
      next c rest hd =>
        -- a whole line
        have hc : LF :: rest = u.stdin.dropWhile (· ≠ LF) := by
          have := List.head_dropWhile_not (· ≠ LF) u.stdin (by rw [hd]; exact List.cons_ne_nil _ _)
          simp only [hd, List.head_cons, decide_eq_false_iff_not, not_not] at this
          rw [hd, this]
        have hsplit : u.stdin = u.stdin.takeWhile (· ≠ LF) ++ LF :: rest := by
          rw [hc, List.takeWhile_append_dropWhile]
        refine ⟨h.rx, h.tx, ?_, h.send, fun h' => absurd h' he, fun _ =>
          ⟨hk, by rw [← hl, hsplit, lastLine_append_LF]⟩⟩
        show _ ++ (u.stdin.takeWhile (· ≠ LF) ++ [LF]) ++ rest =
          input ++ eofBytes (lastLine input) u.eofReads
        rw [← hrecv]
        conv_rhs => rw [hsplit]
        simp
      next hd =>
        -- the end of input: what follows the last LF, and a made-up LF
        have hall : ∀ c ∈ u.stdin, c ≠ LF := by simpa using List.dropWhile_eq_nil_iff.1 hd
        have hlast : lastLine input = u.stdin := by rw [← hl, lastLine_of_forall hall]
        refine ⟨h.rx, h.tx, ?_, h.send, fun _ => ⟨rfl, by simp [hk], by simp [hk, hlast]⟩,
          fun h' => Bool.noConfusion h'⟩
        rw [hk, eofBytes_zero, List.append_nil] at hrecv
        show _ ++ (u.stdin ++ [LF]) ++ [] = input ++ eofBytes (lastLine input) (u.eofReads + 1)
        rw [hk, List.append_nil, ← List.append_assoc, hrecv]
        rfl

theorem readerPush (h : RelayInv cfg input m₀ t₀ u) : RelayInv cfg input m₀ t₀ u.readerPush := by
  unfold EmuUart.readerPush
  split
  · next hr => exact ⟨h.rx, h.tx, by simp [← h.recv, EmuUart.readerPending, hr], h.send, h.atEof,
      h.beforeEof⟩
  · exact h

theorem writerPop (h : RelayInv cfg input m₀ t₀ u) : RelayInv cfg input m₀ t₀ u.writerPop := by
  unfold EmuUart.writerPop
  split
  · exact ⟨h.rx, h.tx, h.recv, by simp [← h.send, *], h.atEof, h.beforeEof⟩
  · exact h

theorem writerPrint (h : RelayInv cfg input m₀ t₀ u) : RelayInv cfg input m₀ t₀ u.writerPrint := by
  unfold EmuUart.writerPrint
  split
  · exact ⟨h.rx, h.tx, h.recv, by simp [← h.send, *], h.atEof, h.beforeEof⟩
  · exact h

theorem queueTransmit (h : RelayInv cfg input m₀ t₀ u) : RelayInv cfg input m₀ t₀ u.queueTransmit := by
  unfold EmuUart.queueTransmit
  split
  · exact ⟨h.rx, h.tx, h.recv, by simp [← h.send], h.atEof, h.beforeEof⟩
  · exact h

theorem takeReceived (h : RelayInv cfg input m₀ t₀ u) : RelayInv cfg input m₀ t₀ u.takeReceived := by
  unfold EmuUart.takeReceived
  split
  · next m ms hr hb =>
    exact ⟨h.rx, h.tx, by simp [← h.recv, hr, hb, EmuUart.readerPending], h.send, h.atEof, h.beforeEof⟩
  · exact h

theorem handOver (h : RelayInv cfg input m₀ t₀ u) : RelayInv cfg input m₀ t₀ (u.handOver cfg) := by
  unfold EmuUart.handOver
  split
  · next c cs hr =>
    refine ⟨by simp [Consumer.run, List.foldl_append, h.rx], h.tx, ?_, h.send, h.atEof, h.beforeEof⟩
    simp [← h.recv, hr, recvBytes, EmuUart.readerPending]
  · exact h

theorem collect (h : RelayInv cfg input m₀ t₀ u) : RelayInv cfg input m₀ t₀ u.collect := by
  have htx : u.tx.step .udre = t₀.run (u.txLog ++ [.udre]) := by
    rw [h.tx, TxSys.run_append]; rfl
  unfold EmuUart.collect
  split
  · next c hc => exact ⟨h.rx, htx, h.recv, by simp [TxSys.step, hc, ← h.send], h.atEof, h.beforeEof⟩
  · next hc => exact ⟨h.rx, htx, h.recv, by simp [TxSys.step, hc, ← h.send], h.atEof, h.beforeEof⟩

theorem step (h : RelayInv cfg input m₀ t₀ u) (e : EmuEv) : RelayInv cfg input m₀ t₀ (u.step cfg e) := by
  cases e with
  | getline => exact h.getline
  | readerPush => exact h.readerPush
  | writerPop => exact h.writerPop
  | writerPrint => exact h.writerPrint
  | feeder =>
    show RelayInv cfg input m₀ t₀ (u.feeder cfg)
    unfold EmuUart.feeder
    split
    · exact h.queueTransmit.takeReceived.handOver.collect
    · exact h
  | uartInit b => exact ⟨h.rx, h.tx, h.recv, h.send, h.atEof, h.beforeEof⟩
  | rxCall c =>
    exact ⟨by simp [EmuUart.step, Consumer.run, List.foldl_append, h.rx], h.tx,
      by simp [EmuUart.step, EmuUart.readerPending, ← h.recv], h.send, h.atEof, h.beforeEof⟩
  | txCall c =>
    exact ⟨h.rx, by simp [EmuUart.step, TxSys.run_append, h.tx], h.recv,
      by simp [EmuUart.step, ← h.send], h.atEof, h.beforeEof⟩

theorem run (h : RelayInv cfg input m₀ t₀ u) (evs : List EmuEv) :
    RelayInv cfg input m₀ t₀ (u.run cfg evs) := by
  induction evs generalizing u with
  | nil => exact h
  | cons e evs ih => exact ih (h.step e)

end RelayInv

/-- The emulator's UART over every interleaving of its reader, writer and feeder threads with the
main loop's `UART_GetNextLine`, `UART_DoneWithLine`, `UART_SetLineFiltering` and `UART_QueueSend`
calls and with `UART_Init`: no byte of a queued message is lost, duplicated or reordered on its way
to standard output. Standard output, then the strings not yet printed and the feeder's transmit
string, then the rest of the message in flight and the message waiting in `UART_QueueSend`, are
the queued messages up to their NULs, in call order. -/
theorem emu_uart_prints_queued (cfg : UartConfig) (input : List UInt8) (m₀ : Consumer)
    (s : SendState) (evs : List EmuEv) :
    let u := (EmuUart.start input m₀ s).run cfg evs
    u.stdout ++ u.writerMsg.getD [] ++ u.writeBuffer.flatten ++ u.transmitString ++
        inflight u.tx.tx ++ u.tx.pc.pendingBytes = (u.tx.calls.map callBytes).flatten := by
  intro u
  have h := (@RelayInv.start cfg input m₀ s).run evs
  have ht := (TxInv.init s).run u.txLog
  rw [← h.tx] at ht
  rw [← ht.history, ← h.send]
  simp [TxSys.init]

/-! ### Lines read in the emulator -/

theorem frameStep_fst_grows (st : List (List UInt8) × List UInt8 × Bool) (c : UInt8) :
    st.1 <+: (frameStep st c).1 := by
  unfold frameStep
  split
  · exact List.prefix_append _ _
  · split <;> exact List.prefix_refl _

theorem foldl_frameStep_fst_grows (st : List (List UInt8) × List UInt8 × Bool) (w : List UInt8) :
    st.1 <+: (w.foldl frameStep st).1 := by
  induction w generalizing st with
  | nil => exact List.prefix_refl _
  | cons c w ih => exact (frameStep_fst_grows st c).trans (ih _)

/-- Framing only adds lines: the lines of a stream begin with the lines of any prefix of it. -/
theorem frameLines_append_extends (w v : List UInt8) : frameLines w <+: frameLines (w ++ v) := by
  unfold frameLines
  rw [List.foldl_append]
  exact foldl_frameStep_fst_grows _ v

open List in
/-- In the emulator, from power-on, over every interleaving of the threads with the main loop:
the bytes handed to `UART_HandleRecvChar_ISR`, then those read and not yet handed over, then the
unread input, are standard input followed by what the reader makes up at its end, and nothing is
made up before `getline` meets the end. The strings the main loop has read through
`UART_GetNextLine` are lines of that stream under the reference framing, in order and each at most
once, cut as the receive ring cuts them: a line can be dropped by the ring (full, or empty while
filtering) but not split, merged or reordered on its way through the threads. -/
theorem emu_uart_reads_input_lines (cfg : UartConfig) (input : List UInt8) (mem : Nat → UInt8)
    (s : SendState) (evs : List EmuEv) :
    let u := (EmuUart.start input (Consumer.powerOn cfg mem) s).run cfg evs
    recvBytes u.rxLog ++ u.receiveRest ++ u.readBuffer.flatten ++ u.readerPending ++ u.stdin =
        input ++ eofBytes (lastLine input) u.eofReads ∧
      (u.stdinEof = false → u.eofReads = 0) ∧
      u.rx.reads <+ (frameLines (input ++ eofBytes (lastLine input) u.eofReads)).map (truncLine cfg) := by
  intro u
  have h := (@RelayInv.start cfg input (Consumer.powerOn cfg mem) s).run evs
  refine ⟨h.recv, fun he => (h.beforeEof he).1, ?_⟩
  have hs := ((Sim.powerOn cfg mem).run rfl u.rxLog).1
  have hh : LineSpec.Hist (LineSpec.run cfg LineSpec.init u.rxLog) :=
    (⟨rfl, fun _ h => absurd h (List.not_mem_nil _)⟩ : LineSpec.Hist LineSpec.init).run u.rxLog
  have hf : (LineSpec.run cfg LineSpec.init u.rxLog).log.map Prod.fst = frameLines (recvBytes u.rxLog) :=
    congrArg Prod.fst (@LineSpec.framing_run cfg LineSpec.init u.rxLog)
  rw [h.rx, hs.reads]
  refine List.Sublist.map _ ?_
  calc (LineSpec.run cfg LineSpec.init u.rxLog).reads
      <+ (LineSpec.run cfg LineSpec.init u.rxLog).reads ++ (LineSpec.run cfg LineSpec.init u.rxLog).queue :=
        List.sublist_append_left _ _
    _ = ((LineSpec.run cfg LineSpec.init u.rxLog).log.filter (·.2 == .kept)).map Prod.fst := hh.kept
    _ <+ (LineSpec.run cfg LineSpec.init u.rxLog).log.map Prod.fst := (List.filter_sublist _).map _
    _ = frameLines (recvBytes u.rxLog) := hf
    _ <+ frameLines (input ++ eofBytes (lastLine input) u.eofReads) := by
      rw [← h.recv]
      simp only [List.append_assoc]
      exact (frameLines_append_extends _ _).sublist

end NeurAvr
