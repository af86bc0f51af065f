import NeurAvr.Divisor
import NeurAvr.Uart.Recv
import NeurAvr.Uart.Send

/-!
# `UART_Init` and the UART's registers

`UART_Init(mcu_hz, baud_rate)` with a zero rate records `real_baud_rate = 0` and writes the control
registers: double speed (`UCSRnA = UART_CSRA_2X`), receiver, transmitter and their interrupts off
(`UART_CSRB_OFF`), asynchronous 8n1 (`UART_CSRC`). With a nonzero rate it records the rate of the
setting `ubrrSetting` picks and, in an atomic block, turns the UART off, stores UBRR high byte
first, calls `UART_InitBuffers_ISR` and turns the UART on with the data-register-empty interrupt
off (`UART_CSRB_TXIDLE`). Only the zero branch writes `UCSRnA`; `MCU_Init` calls `UART_Init(0, 0)`
before anything else, and from then on the UART runs at the double speed whose rate `UART_Init`
records. The ATmega328P and ATmega2560 files differ only in the register names.

`UartDev` is the primary UART with the board's clock fixed: the registers, the receive ring, the
transmit state and the bytes written to the data register. Besides `UART_Init`, a run has the main
loop's `UART_QueueSend` (its `UART_EnableTransmit_ISR` writes `UART_CSRB_TXON`) and the two
interrupts, each taken only while its enable bit of `UCSRnB` is set.

`uart_query_baud_matches_ubrr`: after `UART_Init(0, 0)`, over every run, `UCSRnA` keeps double
speed and `UART_QueryBaud` returns `0` or the rate of the 12-bit UBRR the registers hold.
`uart_init_zero_strands_send`: `UART_Init(…, 0)` while a message is going out leaves the transmit
state as it is with every interrupt off, and until a nonzero `UART_Init` nothing moves:
`UART_IsSendInProgress` stays true, so `UART_WaitForSendDone` and the next `UART_QueueSend` wait
for ever.
-/

namespace NeurAvr

/-- `UART_CSRA_2X`: double speed. -/
def uartCsra2x : UInt8 := 0x02

/-- `UART_CSRB_OFF`. -/
def uartCsrbOff : UInt8 := 0x00

/-- `UART_CSRB_TXIDLE`: the receive-complete interrupt, the receiver and the transmitter on. -/
def uartCsrbTxidle : UInt8 := 0b10011000

/-- `UART_CSRB_TXON`: `UART_CSRB_TXIDLE` with the data-register-empty interrupt. -/
def uartCsrbTxon : UInt8 := 0b10111000

/-- `UART_CSRC`: asynchronous, 8n1. -/
def uartCsrc : UInt8 := 0b00000110

/-- `UDRIEn`, bit 5 of `UCSRnB`: the data-register-empty interrupt enable. -/
def udrieBit : UInt8 := 0x20

/-- `RXCIEn`, bit 7 of `UCSRnB`: the receive-complete interrupt enable. -/
def rxcieBit : UInt8 := 0x80

/-- `real_baud_rate` and the registers of the primary UART that `UART_Init` writes. -/
structure UartRegs where
  realBaudRate : UInt32
  csra : UInt8
  csrb : UInt8
  csrc : UInt8
  brrh : UInt8
  brrl : UInt8
deriving Repr, DecidableEq

/-- The primary UART with the core's buffers: its registers, the receive ring, the transmit state
and the bytes written to the data register. -/
structure UartDev where
  regs : UartRegs
  rx : RecvState
  tx : SendState
  udr : List UInt8

/-- A step of the UART's system. -/
inductive UartEv
  /-- `UART_Init(mcu_hz, baud_rate)` with the board's clock. -/
  | init (baudRate : UInt32)
  /-- `UART_QueueSend(message)` or `UART_QueueSend_P(message)`: a round of its wait, or its
  atomic block. -/
  | queueSend (m : Msg)
  /-- `ISR(USART_UDRE_vect)`. -/
  | udre
  /-- `ISR(USART_RX_vect)`, with the byte in the data register. -/
  | recv (c : UInt8)
deriving DecidableEq

namespace UartDev

variable (cfg : UartConfig) (mcuHz : UInt32)

/-- `UART_Init(mcu_hz, baud_rate)`. -/
def uartInit (baudRate : UInt32) (d : UartDev) : UartDev :=
  if baudRate = 0 then
    { d with
      regs := { d.regs with
        realBaudRate := 0
        csra := uartCsra2x
        csrb := uartCsrbOff
        csrc := uartCsrc } }
  else
    let setting := ubrrSetting mcuHz baudRate
    { d with
      regs := { d.regs with
        realBaudRate := setting.2
        csrb := uartCsrbTxidle
        brrh := ((setting.1 >>> 8) &&& 0xff).toUInt8
        brrl := (setting.1 &&& 0xff).toUInt8 }
      rx := RecvState.initBuffersISR cfg d.rx
      tx := d.tx.initBuffersISR }

/-- `UART_QueueSend`: while a send is in progress the main loop waits in `UART_WaitForSendDone`;
then the atomic block installs the message and `UART_EnableTransmit_ISR` writes `TXON`. -/
def queueSend (m : Msg) (d : UartDev) : UartDev :=
  if d.tx.isSendInProgress then d
  else { d with regs := { d.regs with csrb := uartCsrbTxon }, tx := d.tx.install m }

/-- `ISR(USART_UDRE_vect)`, taken while `UDRIEn` is set: the next byte to the data register, or at
the end of the message `UCSRnB = UART_CSRB_TXIDLE`. -/
def udre (d : UartDev) : UartDev :=
  if d.regs.csrb &&& udrieBit = 0 then d
  else
    match d.tx.udreISR with
    | (tx, some c) => { d with tx := tx, udr := d.udr ++ [c] }
    | (tx, none) => { d with regs := { d.regs with csrb := uartCsrbTxidle }, tx := tx }

/-- `ISR(USART_RX_vect)`, taken while `RXCIEn` is set: `UART_HandleRecvChar_ISR`. -/
def recv (c : UInt8) (d : UartDev) : UartDev :=
  if d.regs.csrb &&& rxcieBit = 0 then d
  else { d with rx := (RecvState.handleRecvCharISR cfg d.rx c).1 }

def step (d : UartDev) : UartEv → UartDev
  | .init baudRate => d.uartInit cfg mcuHz baudRate
  | .queueSend m => d.queueSend m
  | .udre => d.udre
  | .recv c => d.recv cfg c

def run : UartDev → List UartEv → UartDev
  | d, [] => d
  | d, e :: es => run (d.step cfg mcuHz e) es

/-! ### What each step writes -/

theorem uartInit_zero (d : UartDev) :
    d.uartInit cfg mcuHz 0 =
      { d with
        regs := { d.regs with
          realBaudRate := 0
          csra := uartCsra2x
          csrb := uartCsrbOff
          csrc := uartCsrc } } := if_pos rfl

theorem queueSend_regs (m : Msg) (d : UartDev) : ∃ b, (d.queueSend m).regs = { d.regs with csrb := b } := by
  unfold queueSend
  split
  · exact ⟨_, rfl⟩
  · exact ⟨_, rfl⟩

theorem udre_regs (d : UartDev) : ∃ b, d.udre.regs = { d.regs with csrb := b } := by
  unfold udre
  split
  · exact ⟨_, rfl⟩
  · split <;> exact ⟨_, rfl⟩

theorem recv_regs (c : UInt8) (d : UartDev) : ∃ b, (d.recv cfg c).regs = { d.regs with csrb := b } := by
  unfold recv
  split
  · exact ⟨_, rfl⟩
  · exact ⟨_, rfl⟩

theorem uartInit_zero_idem (d : UartDev) :
    (d.uartInit cfg mcuHz 0).uartInit cfg mcuHz 0 = d.uartInit cfg mcuHz 0 := by
  simp only [uartInit_zero]

/-- In the state `UART_Init(…, 0)` leaves, with a message in flight, no step but a nonzero
`UART_Init` changes anything: both interrupts are off and the main loop waits. -/
theorem step_of_off (d : UartDev) (hd : d.uartInit cfg mcuHz 0 = d)
    (hs : d.tx.isSendInProgress = true) {e : UartEv} (he : ∀ b, e = .init b → b = 0) :
    d.step cfg mcuHz e = d := by
  have hb : d.regs.csrb = uartCsrbOff := by rw [← hd, uartInit_zero]
  cases e with
  | init b => rw [step, he b rfl, hd]
  | queueSend m => simp only [step, queueSend, hs, if_true]
  | udre => simp only [step, udre, hb]; rfl
  | recv c => simp only [step, recv, hb]; rfl

theorem run_of_off (d : UartDev) (hd : d.uartInit cfg mcuHz 0 = d)
    (hs : d.tx.isSendInProgress = true) (evs : List UartEv) (he : ∀ b, UartEv.init b ∈ evs → b = 0) :
    d.run cfg mcuHz evs = d := by
  induction evs with
  | nil => rfl
  | cons e es ih =>
    rw [run, step_of_off cfg mcuHz d hd hs (fun b hb => he b (hb ▸ List.mem_cons_self _ _))]
    exact ih fun b hb => he b (List.mem_cons_of_mem _ hb)

/-! ### `UART_QueryBaud` -/

/-- What `UART_QueryBaud` rests on once `MCU_Init` has called `UART_Init(0, 0)`. -/
structure BaudInv (r : UartRegs) : Prop where
  /-- Double speed, which the recorded rates assume. -/
  u2x : r.csra = uartCsra2x
  /-- `real_baud_rate` is `0`, or the rate of the 12-bit UBRR held in `UBRRnH:UBRRnL`. -/
  rate : r.realBaudRate = 0 ∨
    reg16 r.brrh r.brrl ≤ 0x0fff ∧ r.realBaudRate.toNat = u2xRate mcuHz.toNat (reg16 r.brrh r.brrl)

theorem BaudInv.csrb {r : UartRegs} (h : BaudInv mcuHz r) (b : UInt8) : BaudInv mcuHz { r with csrb := b } :=
  ⟨h.u2x, h.rate⟩

theorem BaudInv.init (d : UartDev) : BaudInv mcuHz (d.uartInit cfg mcuHz 0).regs := by
  rw [uartInit_zero]
  exact ⟨rfl, .inl rfl⟩

theorem BaudInv.uartInit {d : UartDev} (h : BaudInv mcuHz d.regs) (baudRate : UInt32) :
    BaudInv mcuHz (d.uartInit cfg mcuHz baudRate).regs := by
  by_cases hb : baudRate = 0
  · rw [hb]; exact init cfg mcuHz d
  · obtain ⟨hle, hrate⟩ := ubrrSetting_consistent mcuHz baudRate
    have hreg := reg16_bytes (v := (ubrrSetting mcuHz baudRate).1) (by omega)
    simp only [UartDev.uartInit, if_neg hb]
    exact ⟨h.u2x, .inr ⟨hreg ▸ hle, hreg ▸ hrate⟩⟩

theorem BaudInv.step {d : UartDev} (h : BaudInv mcuHz d.regs) (e : UartEv) :
    BaudInv mcuHz (d.step cfg mcuHz e).regs := by
  cases e with
  | init b => exact h.uartInit cfg mcuHz b
  | queueSend m => obtain ⟨b, hb⟩ := queueSend_regs m d; rw [UartDev.step, hb]; exact h.csrb mcuHz b
  | udre => obtain ⟨b, hb⟩ := udre_regs d; rw [UartDev.step, hb]; exact h.csrb mcuHz b
  | recv c => obtain ⟨b, hb⟩ := recv_regs cfg c d; rw [UartDev.step, hb]; exact h.csrb mcuHz b

theorem BaudInv.run {d : UartDev} (h : BaudInv mcuHz d.regs) (evs : List UartEv) :
    BaudInv mcuHz (d.run cfg mcuHz evs).regs := by
  induction evs generalizing d with
  | nil => exact h
  | cons e es ih => exact ih (h.step cfg mcuHz e)

end UartDev

open UartDev in
/-- From `MCU_Init`'s `UART_Init(0, 0)` on, whatever calls of `UART_Init`, sends and interrupts
follow: `UCSRnA` keeps double speed, and `UART_QueryBaud` returns `0` or exactly the double-speed
rate `mcu_hz / (8 (UBRR + 1))` of the 12-bit UBRR held in `UBRRnH:UBRRnL`. -/
theorem uart_query_baud_matches_ubrr (cfg : UartConfig) (mcuHz : UInt32) (d : UartDev)
    (evs : List UartEv) : BaudInv mcuHz ((d.uartInit cfg mcuHz 0).run cfg mcuHz evs).regs :=
  (BaudInv.init cfg mcuHz d).run cfg mcuHz evs

/-- `UART_Init(…, 0)` while a message is going out does not reset the transmit state, and turns
both interrupts off: until a nonzero `UART_Init`, every interleaving of sends and interrupts leaves
the UART as it is, the message in flight and no byte sent. `UART_IsSendInProgress` stays true, so
`UART_WaitForSendDone` and the next `UART_QueueSend` never return. -/
theorem uart_init_zero_strands_send (cfg : UartConfig) (mcuHz : UInt32) (d : UartDev)
    (hs : d.tx.isSendInProgress = true) (evs : List UartEv) (he : ∀ b, UartEv.init b ∈ evs → b = 0) :
    (d.uartInit cfg mcuHz 0).run cfg mcuHz evs = d.uartInit cfg mcuHz 0 :=
  UartDev.run_of_off cfg mcuHz _ (UartDev.uartInit_zero_idem cfg mcuHz d)
    (by rw [UartDev.uartInit_zero]; exact hs) evs he

theorem uart_init_zero_strands_send_newline :
    (UartDev.uartInit m328p 16000000 0
        ⟨⟨117647, uartCsra2x, uartCsrbTxon, uartCsrc, 0, 16⟩, ⟨fun _ => 0, 0, 0, 0, 0, false, false⟩,
          ⟨some [13, 10, 0], 1, true, true⟩, [13]⟩).run m328p 16000000
        [.queueSend ⟨[63, 0], false⟩, .udre, .recv 65, .init 0, .udre] =
      UartDev.uartInit m328p 16000000 0
        ⟨⟨117647, uartCsra2x, uartCsrbTxon, uartCsrc, 0, 16⟩, ⟨fun _ => 0, 0, 0, 0, 0, false, false⟩,
          ⟨some [13, 10, 0], 1, true, true⟩, [13]⟩ :=
  uart_init_zero_strands_send m328p 16000000 _ (by rfl) _ (by simp)

end NeurAvr
