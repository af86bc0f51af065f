import NeurAvr.CString

/-!
# The transmit side (`UART_QueueSend`, `UART_GetNextSendChar_ISR`)

One message in flight: `UART_transbuf` points at it (or is `NULL`), `transcharptr` is the cursor and
`trans_is_flash` says whether it lives in flash. The main loop's `UART_QueueSend(message)` and
`UART_QueueSend_P(message)` busy-wait in `UART_WaitForSendDone` until `UART_transbuf` is `NULL`,
then install the message and call `UART_EnableTransmit_ISR`, inside an atomic block. The
data-register-empty interrupt calls `UART_GetNextSendChar_ISR`: it sends the next byte, or at the
NUL clears `UART_transbuf`, and on `false` the interrupt turns itself off (`UCSR0B = TXIDLE`).

`TxSys` is the main loop's position in `UART_QueueSend` together with that state; the interrupt may
fire at any point (the emulator's feeder thread calls `UART_GetNextSendChar_ISR` without waiting
for the enable bit, so the model lets it run even when disabled). `TxInv` is the invariant of
every run: the bytes sent so far, the rest of the message in flight and the message waiting to be
installed are the queued messages in call order.
-/

namespace NeurAvr

/-- A message passed to `UART_QueueSend` / `UART_QueueSend_P`: the memory from the pointer on
(reading past the list gives a NUL) and whether it is in flash. -/
structure Msg where
  bytes : List UInt8
  flash : Bool
deriving Repr, DecidableEq

/-- The transmit globals and the data-register-empty interrupt enable of `UCSR0B` (`TXON` sets it,
`TXIDLE` clears it). -/
structure SendState where
  transbuf : Option (List UInt8)
  transcharptr : Nat
  transIsFlash : Bool
  udrie : Bool
deriving Repr, DecidableEq

namespace SendState

/-- The transmit half of `UART_InitBuffers_ISR`, with `UCSR0B = UART_CSRB_TXIDLE` from
`UART_Init`. -/
def initBuffersISR (s : SendState) : SendState :=
  { s with transbuf := none, transcharptr := 0, transIsFlash := false, udrie := false }

/-- `UART_IsSendInProgress()`. -/
def isSendInProgress (s : SendState) : Bool := s.transbuf.isSome

/-- `UART_EnableTransmit_ISR()` (m328p): `UCSR0B = UART_CSRB_TXON`. -/
def enableTransmitISR (s : SendState) : SendState := { s with udrie := true }

/-- The atomic block of `UART_QueueSend` / `UART_QueueSend_P` for a non-null message. -/
def install (m : Msg) (s : SendState) : SendState :=
  enableTransmitISR { s with transbuf := some m.bytes, transcharptr := 0, transIsFlash := m.flash }

/-- `UART_GetNextSendChar_ISR(sendchar)`: the new state, the result and `sendchar`. -/
def getNextSendCharISR (s : SendState) : SendState × Bool × UInt8 :=
  match s.transbuf with
  | some m =>
    let c := m.getD s.transcharptr 0
    if c = 0 then ({ s with transbuf := none, transcharptr := 0, transIsFlash := false }, false, c)
    else ({ s with transcharptr := s.transcharptr + 1 }, true, c)
  | none => (s, false, 0)

/-- `ISR(USART_UDRE_vect)`: send the byte, or disable the interrupt (`UCSR0B = TXIDLE`). -/
def udreISR (s : SendState) : SendState × Option UInt8 :=
  match getNextSendCharISR s with
  | (s', true, c) => (s', some c)
  | (s', false, _) => ({ s' with udrie := false }, none)

end SendState

/-- Where the main loop is in a call of `UART_QueueSend(m)` (or `_P`; `none` is a `NULL`
message): outside any call, in the busy-wait of `UART_WaitForSendDone`, or past it and about to
take the atomic block. -/
inductive TxPc
  | idle
  | waiting (m : Option Msg)
  | installing (m : Option Msg)
deriving Repr, DecidableEq

/-- The transmit side with the main loop's position, the bytes put on the wire and, as history,
every message passed to `UART_QueueSend` in call order. -/
structure TxSys where
  tx : SendState
  pc : TxPc
  sent : List UInt8
  calls : List (Option Msg)

/-- One action: the main loop calls `UART_QueueSend(m)`, the main loop takes one step of that
call, or the data-register-empty interrupt runs. -/
inductive TxEv
  | queueSend (m : Option Msg)
  | mainStep
  | udre
deriving Repr, DecidableEq

namespace TxSys

/-- The main loop's step inside `UART_QueueSend`: one check of `UART_IsSendInProgress()` in the
busy-wait, then the atomic install (nothing for a `NULL` message). -/
def mainStep (t : TxSys) : TxSys :=
  match t.pc with
  | .idle => t
  | .waiting m => if t.tx.isSendInProgress then t else { t with pc := .installing m }
  | .installing none => { t with pc := .idle }
  | .installing (some m) => { t with tx := t.tx.install m, pc := .idle }

def step (t : TxSys) : TxEv → TxSys
  | .queueSend m => match t.pc with
    | .idle => { t with pc := .waiting m, calls := t.calls ++ [m] }
    | _ => t
  | .mainStep => mainStep t
  | .udre =>
    let r := t.tx.udreISR
    { t with tx := r.1, sent := t.sent ++ r.2.toList }

def run (t : TxSys) (evs : List TxEv) : TxSys := evs.foldl step t

@[simp] theorem run_nil (t : TxSys) : t.run [] = t := rfl

@[simp] theorem run_cons (t : TxSys) (e : TxEv) (evs : List TxEv) :
    t.run (e :: evs) = (t.step e).run evs := rfl

theorem run_append (t : TxSys) (evs evs' : List TxEv) : t.run (evs ++ evs') = (t.run evs).run evs' :=
  List.foldl_append _ _ _ _

/-- After `UART_Init`: nothing in flight, the interrupt off, the main loop outside any call. -/
def init (s : SendState) : TxSys := ⟨s.initBuffersISR, .idle, [], []⟩

end TxSys

/-- What is left to send of the message in flight. -/
def inflight (s : SendState) : List UInt8 :=
  match s.transbuf with
  | some m => cstr (m.drop s.transcharptr)
  | none => []

/-- The bytes a call of `UART_QueueSend` queues: its message up to the first NUL. -/
def callBytes (m : Option Msg) : List UInt8 := (m.map fun m => cstr m.bytes).getD []

@[simp] theorem inflight_install (m : Msg) (s : SendState) :
    inflight (s.install m) = cstr m.bytes := by
  simp [inflight, SendState.install, SendState.enableTransmitISR]

@[simp] theorem udrie_install (m : Msg) (s : SendState) : (s.install m).udrie = true := rfl

/-- The message of the call the main loop is in, not yet installed. -/
def TxPc.pendingBytes : TxPc → List UInt8
  | .idle => []
  | .waiting m | .installing m => callBytes m

namespace SendState

theorem inflight_of_none {s : SendState} (h : s.transbuf = none) : inflight s = [] := by
  simp [inflight, h]

theorem udreISR_cases (s : SendState) :
    (s.udreISR.2 = none ∧ s.udreISR.1.transbuf = none ∧ s.udreISR.1.udrie = false ∧
      inflight s = []) ∨
    ∃ c, s.udreISR.2 = some c ∧ s.udreISR.1 = { s with transcharptr := s.transcharptr + 1 } ∧
      s.transbuf.isSome ∧ inflight s = c :: inflight s.udreISR.1 := by
  unfold udreISR getNextSendCharISR
  cases h : s.transbuf with
  | none => exact .inl ⟨rfl, h, rfl, inflight_of_none h⟩
  | some m =>
    have hi : inflight s = cstr (m.drop s.transcharptr) := by simp [inflight, h]
    dsimp only
    split_ifs with hc
    · exact .inl ⟨rfl, rfl, rfl, by rw [hi, cstr_drop, if_pos hc]⟩
    · exact .inr ⟨_, rfl, rfl, rfl, by rw [hi, cstr_drop, if_neg hc]; rfl⟩

end SendState

namespace TxSys

/-- Everything one action can do: nothing (a call while another is in progress, the main loop
outside a call, a busy-wait check that finds a message in flight), or one of the moves below. -/
theorem step_cases (t : TxSys) (e : TxEv) :
    t.step e = t ∨
    (∃ m, e = .queueSend m ∧ t.pc = .idle ∧
      t.step e = { t with pc := .waiting m, calls := t.calls ++ [m] }) ∨
    (∃ m, e = .mainStep ∧ t.pc = .waiting m ∧ t.tx.transbuf = none ∧
      t.step e = { t with pc := .installing m }) ∨
    (e = .mainStep ∧ t.pc = .installing none ∧ t.step e = { t with pc := .idle }) ∨
    (∃ m, e = .mainStep ∧ t.pc = .installing (some m) ∧
      t.step e = { t with tx := t.tx.install m, pc := .idle }) ∨
    (e = .udre ∧ t.step e = { t with tx := t.tx.udreISR.1, sent := t.sent ++ t.tx.udreISR.2.toList })
    := by
  rcases e with m | _ | _
  · rcases h : t.pc with _ | m' | m'
    · exact .inr (.inl ⟨m, rfl, rfl, by simp [step, h]⟩)
    all_goals exact .inl (by simp [step, h])
  · rcases h : t.pc with _ | m | (_ | m)
    · exact .inl (by simp [step, mainStep, h])
    · by_cases hb : t.tx.isSendInProgress
      · exact .inl (by simp [step, mainStep, h, hb])
      · exact .inr (.inr (.inl ⟨m, rfl, rfl, by simpa [SendState.isSendInProgress] using hb,
          by simp [step, mainStep, h, hb]⟩))
    · exact .inr (.inr (.inr (.inl ⟨rfl, rfl, by simp [step, mainStep, h]⟩)))
    · exact .inr (.inr (.inr (.inr (.inl ⟨m, rfl, rfl, by simp [step, mainStep, h]⟩))))
  · exact .inr (.inr (.inr (.inr (.inr ⟨rfl, rfl⟩))))

end TxSys

/-- The transmit invariant. While a message is in flight the interrupt that drains it is enabled
(no lost wake-up); the main loop installs only over an empty buffer; and the bytes sent, the rest
of the message in flight and the message of the call in progress are, in this order, every queued
message up to its NUL. -/
structure TxInv (t : TxSys) : Prop where
  enabled : t.tx.transbuf.isSome → t.tx.udrie = true
  free : ∀ m, t.pc = .installing m → t.tx.transbuf = none
  history : t.sent ++ inflight t.tx ++ t.pc.pendingBytes = (t.calls.map callBytes).flatten

namespace TxInv

variable {t : TxSys}

theorem init (s : SendState) : TxInv (TxSys.init s) :=
  ⟨by simp [TxSys.init, SendState.initBuffersISR], by simp [TxSys.init],
    by simp [TxSys.init, SendState.initBuffersISR, TxPc.pendingBytes, inflight]⟩

theorem udre (h : TxInv t) :
    TxInv { t with tx := t.tx.udreISR.1, sent := t.sent ++ t.tx.udreISR.2.toList } := by
  obtain ⟨he, hf, hh⟩ := h
  rcases t.tx.udreISR_cases with ⟨hr, hb, -, hi⟩ | ⟨c, hr, hs, hsome, hi⟩
  · refine ⟨by simp [hb], fun _ _ => hb, ?_⟩
    simp [← hh, hr, hi, SendState.inflight_of_none hb]
  · refine ⟨fun _ => by simpa [hs] using he hsome, fun m hm => by simpa [hs] using hf m hm, ?_⟩
    simp [← hh, hr, hi]

theorem step (h : TxInv t) (e : TxEv) : TxInv (t.step e) := by
  obtain ⟨he, hf, hh⟩ := h
  rcases t.step_cases e with hs | ⟨m, -, hpc, hs⟩ | ⟨m, -, hpc, hb, hs⟩ | ⟨-, hpc, hs⟩ |
    ⟨m, -, hpc, hs⟩ | ⟨-, hs⟩ <;> rw [hs]
  · exact ⟨he, hf, hh⟩
  · refine ⟨he, by simp, ?_⟩
    simp [← hh, hpc, TxPc.pendingBytes]
  · exact ⟨he, fun _ h => by cases h; exact hb, by rw [← hh, hpc]; rfl⟩
  · refine ⟨he, by simp, ?_⟩
    simp [← hh, hpc, TxPc.pendingBytes, callBytes, SendState.inflight_of_none (hf none hpc)]
  · refine ⟨fun _ => rfl, by simp, ?_⟩
    simp [← hh, hpc, TxPc.pendingBytes, callBytes, SendState.inflight_of_none (hf _ hpc)]
  · exact udre ⟨he, hf, hh⟩

theorem run (h : TxInv t) (evs : List TxEv) : TxInv (t.run evs) := by
  induction evs generalizing t with
  | nil => exact h
  | cons e evs ih => exact ih (h.step e)

end TxInv

namespace TxSys

end TxSys

end NeurAvr
