import Mathlib.Tactic.IntervalCases
import NeurAvr.Gpio.Bank

/-!
# The GPIO of the ATmega2560

The ATmega2560 build of the GPIO functions maps both banks: the 8-bit bank puts GP0..GP3 on
pins H3..H6 and GP4..GP7 on pins B4..B7; the 16-bit bank puts GP8..GP15 on port L and GP16..GP23
on port C, whole ports, so its functions mask nothing. The other pins of ports H and B stay high-Z
inputs (`GPMASK_PORTH`, `GPMASK_PORTB`).

`Gpio.view8` and `Gpio.view16` read the registers as the two banks, through the pin maps of
`IO8_ReadData` (`lines8`) and `IO16_ReadData` (`lines16`). Each function refines its `Bank`
operation in every state of `Gpio.Inv`, which every call keeps, and leaves the other bank alone.
Over every sequence of calls from power-on each bank is the one-port bank after the calls to it,
the reads agree, and the pins of ports H and B outside the bank stay high-Z inputs
(`m2560_gpio_refines_banks`).
-/

namespace NeurAvr

namespace M2560

/-- `GPMASK_PORTH`. -/
def gpmaskPorth : UInt8 := 0x0f <<< (3 : UInt8)

/-- `GPMASK_PORTB`. -/
def gpmaskPortb : UInt8 := 0xf0

/-- The last step of `IO8_ReadData`: `scratch_h >>= 3; scratch_h &= 0x0f; scratch_b &= 0xf0;
return scratch_h | scratch_b;` -/
def lines8 (scratchH scratchB : UInt8) : UInt8 :=
  ((scratchH >>> (3 : UInt8)) &&& 0x0f) ||| (scratchB &&& 0xf0)

/-- The last step of `IO16_ReadData`: `word_l = byte_l; word_c = byte_c; word_c <<= 8;
return word_l | word_c;` -/
def lines16 (byteL byteC : UInt8) : UInt16 :=
  byteL.toUInt16 ||| (byteC.toUInt16 <<< (8 : UInt16))

/-- The globals and registers of the ATmega2560 GPIO code: ports H and B for the 8-bit bank,
ports L and C for the 16-bit bank, `lastval_8` and `lastval_16`. -/
structure Gpio where
  h : PortRegs
  b : PortRegs
  l : PortRegs
  c : PortRegs
  lastval8 : UInt8
  lastval16 : UInt16
deriving DecidableEq, Repr

namespace Gpio

/-- After `MCU_Init`. -/
def init : Gpio := ⟨.init, .init, .init, .init, 0, 0⟩

/-- `IO8_SelectOutputs(output_mask)`. -/
def io8SelectOutputs (s : Gpio) (outputMask : UInt8) : Gpio :=
  { s with
    h := s.h.setDir (((outputMask &&& 0x0f) <<< (3 : UInt8)) &&& gpmaskPorth)
    b := s.b.setDir ((outputMask &&& 0xf0) &&& gpmaskPortb) }

/-- `IO8_WriteData(output_data)`. -/
def io8WriteData (s : Gpio) (outputData : UInt8) : Gpio :=
  { s with
    h := s.h.writeData ((outputData &&& 0x0f) <<< (3 : UInt8))
    b := s.b.writeData (outputData &&& 0xf0)
    lastval8 := outputData }

/-- `IO8_GetOutputValue()`. -/
def io8GetOutputValue (s : Gpio) : UInt8 := s.lastval8

/-- `IO8_SetPullups(pullup_mask)`. -/
def io8SetPullups (s : Gpio) (pullupMask : UInt8) : Gpio :=
  { s with
    h := s.h.setPullups
      ((((pullupMask &&& 0x0f) <<< (3 : UInt8)) &&& ~~~s.h.dirmask) &&& gpmaskPorth)
    b := s.b.setPullups (((pullupMask &&& 0xf0) &&& ~~~s.b.dirmask) &&& gpmaskPortb) }

/-- `IO8_ReadData()`, the pins reading `pinh` and `pinb`. -/
def io8ReadData (s : Gpio) (pinh pinb : UInt8) : UInt8 :=
  lines8 ((pinh &&& ~~~s.h.dirmask) &&& gpmaskPorth) ((pinb &&& ~~~s.b.dirmask) &&& gpmaskPortb)

/-- `IO16_SelectOutputs(output_mask)`. -/
def io16SelectOutputs (s : Gpio) (outputMask : UInt16) : Gpio :=
  { s with
    l := s.l.setDir (outputMask &&& 0xff).toUInt8
    c := s.c.setDir (outputMask >>> (8 : UInt16)).toUInt8 }

/-- `IO16_WriteData(output_data)`. -/
def io16WriteData (s : Gpio) (outputData : UInt16) : Gpio :=
  { s with
    l := s.l.writeData (outputData &&& 0xff).toUInt8
    c := s.c.writeData (outputData >>> (8 : UInt16)).toUInt8
    lastval16 := outputData }

/-- `IO16_GetOutputValue()`. -/
def io16GetOutputValue (s : Gpio) : UInt16 := s.lastval16

/-- `IO16_SetPullups(pullup_mask)`. -/
def io16SetPullups (s : Gpio) (pullupMask : UInt16) : Gpio :=
  { s with
    l := s.l.setPullups ((pullupMask &&& 0xff).toUInt8 &&& ~~~s.l.dirmask)
    c := s.c.setPullups ((pullupMask >>> (8 : UInt16)).toUInt8 &&& ~~~s.c.dirmask) }

/-- `IO16_ReadData()`, the pins reading `pinl` and `pinc`. -/
def io16ReadData (s : Gpio) (pinl pinc : UInt8) : UInt16 :=
  lines16 (pinl &&& ~~~s.l.dirmask) (pinc &&& ~~~s.c.dirmask)

def call (s : Gpio) : GpioCall → Gpio
  | .io8 (.selectOutputs m) => s.io8SelectOutputs m
  | .io8 (.writeData v) => s.io8WriteData v
  | .io8 (.setPullups m) => s.io8SetPullups m
  | .io16 (.selectOutputs m) => s.io16SelectOutputs m
  | .io16 (.writeData v) => s.io16WriteData v
  | .io16 (.setPullups m) => s.io16SetPullups m

def run (s : Gpio) (cs : List GpioCall) : Gpio := cs.foldl call s

/-- The 8-bit bank the registers of ports H and B present. -/
def view8 (s : Gpio) : Bank UInt8 := ⟨lines8 s.h.ddr s.b.ddr, lines8 s.h.port s.b.port, s.lastval8⟩

/-- The 16-bit bank the registers of ports L and C present. -/
def view16 (s : Gpio) : Bank UInt16 :=
  ⟨lines16 s.l.ddr s.c.ddr, lines16 s.l.port s.c.port, s.lastval16⟩

/-- The four ports keep their invariant, H and B within their `GPMASK`, L and C whole. -/
structure Inv (s : Gpio) : Prop where
  h : s.h.Inv gpmaskPorth
  b : s.b.Inv gpmaskPortb
  l : s.l.Inv 0xff
  c : s.c.Inv 0xff

end Gpio

/-! ### The pin maps -/

theorem byteBit_lines8 (h b : UInt8) {i : Nat} (hi : i < 8) :
    byteBit (lines8 h b) i = if i < 4 then byteBit h (i + 3) else byteBit b i := by
  simp only [lines8, byteBit_or, byteBit_and, byteBit_shiftRight _ (by decide : 3 < 8),
    byteBit_ofNat]
  interval_cases i <;> simp [Nat.testBit_to_div_mod, Nat.add_comm]

theorem byteBit_laneH (v : UInt8) {i : Nat} (hi : i < 4) :
    byteBit ((v &&& 0x0f) <<< (3 : UInt8)) (i + 3) = byteBit v i := by
  rw [byteBit_shiftLeft _ (by decide)]
  interval_cases i <;> simp [Nat.testBit_to_div_mod]

theorem byteBit_laneB (v : UInt8) {i : Nat} (h4 : 4 ≤ i) (hi : i < 8) :
    byteBit (v &&& 0xf0) i = byteBit v i := by
  interval_cases i <;> simp [Nat.testBit_to_div_mod]

theorem byteBit_gpmaskPorth {i : Nat} (hi : i < 4) : byteBit gpmaskPorth (i + 3) = true := by
  interval_cases i <;> decide

theorem byteBit_gpmaskPortb {i : Nat} (h4 : 4 ≤ i) (hi : i < 8) : byteBit gpmaskPortb i = true := by
  interval_cases i <;> decide

theorem byteBit_of_not_lt {x : UInt8} {i : Nat} (hi : ¬ i < 8) : byteBit x i = false :=
  Bool.eq_false_iff.2 fun h => hi (byteBit_lt h)

theorem wordBit_lines16 (l c : UInt8) {i : Nat} (hi : i < 16) :
    wordBit (lines16 l c) i = if i < 8 then byteBit l i else byteBit c (i - 8) := by
  rw [lines16, wordBit_or, wordBit_toUInt16, wordBit_shiftLeft _ (by decide), wordBit_toUInt16]
  by_cases h8 : i < 8
  · simp [h8, Nat.not_le.2 h8]
  · simp [h8, byteBit_of_not_lt h8, hi, Nat.le_of_not_lt h8]

theorem byteBit_laneL (v : UInt16) {i : Nat} (hi : i < 8) :
    byteBit (v &&& 0xff).toUInt8 i = wordBit v i := by
  rw [byteBit_toUInt8, wordBit_and, wordBit_ofNat]
  interval_cases i <;> simp [Nat.testBit_to_div_mod]

theorem byteBit_laneC (v : UInt16) {i : Nat} (h8 : 8 ≤ i) (hi : i < 16) :
    byteBit (v >>> (8 : UInt16)).toUInt8 (i - 8) = wordBit v i := by
  rw [byteBit_toUInt8, wordBit_shiftRight _ (by decide), Nat.add_sub_cancel' h8]
  simp [show i - 8 < 8 by omega]

theorem byteBit_ff_off {x : UInt8} {j : Nat} (hj : byteBit 0xff j = false) : byteBit x j = false :=
  byteBit_of_not_lt fun h => by interval_cases j <;> simp_all [Nat.testBit_to_div_mod]

theorem lines8_zero : lines8 0 0 = 0 := by decide

theorem lines16_zero : lines16 0 0 = 0 := by decide

/-! ### Each call refines its bank operation -/

namespace Gpio

variable {s : Gpio}

theorem view8_io8SelectOutputs (s : Gpio) (m : UInt8) :
    (s.io8SelectOutputs m).view8 = s.view8.selectOutputs m := by
  simp only [view8, io8SelectOutputs, Bank.selectOutputs, PortRegs.setDir, Bank.mk.injEq,
    and_true]
  refine byte_ext fun i hi => ?_
  rw [byteBit_lines8 _ _ hi]
  split_ifs with h4
  · simp [byteBit_laneH m h4, byteBit_gpmaskPorth h4]
  · simp [byteBit_laneB m (by omega) hi, byteBit_gpmaskPortb (by omega) hi]

theorem view8_io8WriteData (h : s.Inv) (v : UInt8) :
    (s.io8WriteData v).view8 = s.view8.writeData v := by
  simp only [view8, io8WriteData, Bank.writeData, PortRegs.writeData_ddr, Bank.mk.injEq, true_and,
    and_true]
  refine byte_ext fun i hi => ?_
  simp only [byteBit_or, byteBit_and, byteBit_not, byteBit_lines8 _ _ hi, hi, decide_True,
    Bool.true_and]
  by_cases h4 : i < 4
  · simp only [if_pos h4, PortRegs.byteBit_writeData, byteBit_laneH v h4, h.h.ddr_eq, h.h.port_eq]
    cases byteBit s.h.dirmask (i + 3) <;> simp
  · simp only [if_neg h4, PortRegs.byteBit_writeData, byteBit_laneB v (by omega) hi, h.b.ddr_eq,
      h.b.port_eq]
    cases byteBit s.b.dirmask i <;> simp

theorem view8_io8SetPullups (h : s.Inv) (m : UInt8) :
    (s.io8SetPullups m).view8 = s.view8.setPullups m := by
  simp only [view8, io8SetPullups, Bank.setPullups, PortRegs.setPullups_ddr, Bank.mk.injEq,
    true_and, and_true]
  refine byte_ext fun i hi => ?_
  simp only [byteBit_or, byteBit_and, byteBit_not, byteBit_lines8 _ _ hi, hi, decide_True,
    Bool.true_and]
  by_cases h4 : i < 4
  · simp [h4, PortRegs.byteBit_setPullups, byteBit_laneH m h4, byteBit_gpmaskPorth h4, h.h.ddr_eq,
      h.h.port_eq, show i + 3 < 8 by omega]
  · simp [h4, PortRegs.byteBit_setPullups, byteBit_laneB m (by omega) hi,
      byteBit_gpmaskPortb (by omega) hi, h.b.ddr_eq, h.b.port_eq, hi]

theorem io8ReadData_eq (h : s.Inv) (pinh pinb : UInt8) :
    s.io8ReadData pinh pinb = s.view8.readData (lines8 pinh pinb) := by
  refine byte_ext fun i hi => ?_
  simp only [io8ReadData, view8, Bank.readData, byteBit_and, byteBit_not, byteBit_lines8 _ _ hi,
    hi, decide_True, Bool.true_and]
  split_ifs with h4
  · simp [byteBit_gpmaskPorth h4, h.h.ddr_eq, show i + 3 < 8 by omega]
  · simp [byteBit_gpmaskPortb (by omega) hi, h.b.ddr_eq, hi]

theorem view16_io16SelectOutputs (s : Gpio) (m : UInt16) :
    (s.io16SelectOutputs m).view16 = s.view16.selectOutputs m := by
  simp only [view16, io16SelectOutputs, Bank.selectOutputs, PortRegs.setDir, Bank.mk.injEq,
    and_true]
  refine word_ext fun i hi => ?_
  rw [wordBit_lines16 _ _ hi]
  split_ifs with h8
  · exact byteBit_laneL m h8
  · exact byteBit_laneC m (by omega) hi

theorem view16_io16WriteData (h : s.Inv) (v : UInt16) :
    (s.io16WriteData v).view16 = s.view16.writeData v := by
  simp only [view16, io16WriteData, Bank.writeData, PortRegs.writeData_ddr, Bank.mk.injEq,
    true_and, and_true]
  refine word_ext fun i hi => ?_
  simp only [wordBit_or, wordBit_and, wordBit_not, wordBit_lines16 _ _ hi, hi, decide_True,
    Bool.true_and]
  by_cases h8 : i < 8
  · simp only [if_pos h8, PortRegs.byteBit_writeData, byteBit_laneL v h8, h.l.ddr_eq, h.l.port_eq]
    cases byteBit s.l.dirmask i <;> simp
  · simp only [if_neg h8, PortRegs.byteBit_writeData, byteBit_laneC v (by omega) hi, h.c.ddr_eq,
      h.c.port_eq]
    cases byteBit s.c.dirmask (i - 8) <;> simp

theorem view16_io16SetPullups (h : s.Inv) (m : UInt16) :
    (s.io16SetPullups m).view16 = s.view16.setPullups m := by
  simp only [view16, io16SetPullups, Bank.setPullups, PortRegs.setPullups_ddr, Bank.mk.injEq,
    true_and, and_true]
  refine word_ext fun i hi => ?_
  simp only [wordBit_or, wordBit_and, wordBit_not, wordBit_lines16 _ _ hi, hi, decide_True,
    Bool.true_and]
  by_cases h8 : i < 8
  · simp [h8, PortRegs.byteBit_setPullups, byteBit_laneL m h8, h.l.ddr_eq, h.l.port_eq]
  · simp [h8, PortRegs.byteBit_setPullups, byteBit_laneC m (by omega) hi, h.c.ddr_eq, h.c.port_eq,
      show i - 8 < 8 by omega]

/-- `IO16_ReadData` reads the bank's inputs from the pins and gives 0 for its outputs. -/
theorem io16ReadData_eq (h : s.Inv) (pinl pinc : UInt8) :
    s.io16ReadData pinl pinc = s.view16.readData (lines16 pinl pinc) := by
  refine word_ext fun i hi => ?_
  simp only [io16ReadData, view16, Bank.readData, wordBit_and, wordBit_not, wordBit_lines16 _ _ hi,
    hi, decide_True, Bool.true_and]
  split_ifs with h8
  · simp [h.l.ddr_eq, h8]
  · simp [h.c.ddr_eq, show i - 8 < 8 by omega]

/-! ### The invariant along a run -/

theorem Inv.init : Gpio.init.Inv := ⟨.init _, .init _, .init _, .init _⟩

theorem Inv.call (h : s.Inv) : ∀ c, (s.call c).Inv
  | .io8 (.selectOutputs _) =>
    { h with h := h.h.setDir fun j hj => by simp [hj], b := h.b.setDir fun j hj => by simp [hj] }
  | .io8 (.writeData _) => { h with h := h.h.writeData _, b := h.b.writeData _ }
  | .io8 (.setPullups _) =>
    { h with h := h.h.setPullups fun j hj => by simp [hj],
             b := h.b.setPullups fun j hj => by simp [hj] }
  | .io16 (.selectOutputs _) =>
    { h with l := h.l.setDir fun _ hj => byteBit_ff_off hj,
             c := h.c.setDir fun _ hj => byteBit_ff_off hj }
  | .io16 (.writeData _) => { h with l := h.l.writeData _, c := h.c.writeData _ }
  | .io16 (.setPullups _) =>
    { h with l := h.l.setPullups fun _ hj => byteBit_ff_off hj,
             c := h.c.setPullups fun _ hj => byteBit_ff_off hj }

theorem Inv.run (h : s.Inv) (cs : List GpioCall) : (s.run cs).Inv := by
  induction cs generalizing s with
  | nil => exact h
  | cons c cs ih => exact ih (h.call c)

theorem view8_call (h : s.Inv) :
    ∀ c, (s.call c).view8 = ((c.io8?).map s.view8.call).getD s.view8
  | .io8 (.selectOutputs m) => s.view8_io8SelectOutputs m
  | .io8 (.writeData v) => view8_io8WriteData h v
  | .io8 (.setPullups m) => view8_io8SetPullups h m
  | .io16 (.selectOutputs _) | .io16 (.writeData _) | .io16 (.setPullups _) => rfl

/-- A call to the 16-bit bank is its bank operation; a call to the 8-bit bank leaves it alone. -/
theorem view16_call (h : s.Inv) :
    ∀ c, (s.call c).view16 = ((c.io16?).map s.view16.call).getD s.view16
  | .io8 (.selectOutputs _) | .io8 (.writeData _) | .io8 (.setPullups _) => rfl
  | .io16 (.selectOutputs m) => s.view16_io16SelectOutputs m
  | .io16 (.writeData v) => view16_io16WriteData h v
  | .io16 (.setPullups m) => view16_io16SetPullups h m

theorem view8_run (h : s.Inv) (cs : List GpioCall) :
    (s.run cs).view8 = s.view8.run (cs.filterMap GpioCall.io8?) := by
  induction cs generalizing s with
  | nil => rfl
  | cons c cs ih =>
    show ((s.call c).run cs).view8 = _
    rw [ih (h.call c), view8_call h c]
    cases c <;> rfl

theorem view16_run (h : s.Inv) (cs : List GpioCall) :
    (s.run cs).view16 = s.view16.run (cs.filterMap GpioCall.io16?) := by
  induction cs generalizing s with
  | nil => rfl
  | cons c cs ih =>
    show ((s.call c).run cs).view16 = _
    rw [ih (h.call c), view16_call h c]
    cases c <;> rfl

end Gpio

/-- From power-on, over every sequence of calls to the GPIO functions of the ATmega2560: the
registers of ports H and B, read through the pin map, are the one-port 8-bit bank after the calls
to it, and those of ports L and C the one-port 16-bit bank after the calls to it, neither bank
seeing the other's calls; `IO8_ReadData` and `IO16_ReadData` read their bank's inputs from the
pins and give 0 for its outputs; and the pins of ports H and B outside the bank stay high-Z
inputs. -/
theorem m2560_gpio_refines_banks (calls : List GpioCall) :
    let s := Gpio.init.run calls
    s.view8 = (⟨0, 0, 0⟩ : Bank UInt8).run (calls.filterMap GpioCall.io8?) ∧
      s.view16 = (⟨0, 0, 0⟩ : Bank UInt16).run (calls.filterMap GpioCall.io16?) ∧
      (∀ pinh pinb, s.io8ReadData pinh pinb = s.view8.readData (lines8 pinh pinb)) ∧
      (∀ pinl pinc, s.io16ReadData pinl pinc = s.view16.readData (lines16 pinl pinc)) ∧
      s.h.ddr &&& ~~~gpmaskPorth = 0 ∧ s.h.port &&& ~~~gpmaskPorth = 0 ∧
      s.b.ddr &&& ~~~gpmaskPortb = 0 ∧ s.b.port &&& ~~~gpmaskPortb = 0 := by
  intro s
  have h : s.Inv := Gpio.Inv.init.run calls
  refine ⟨?_, ?_, Gpio.io8ReadData_eq h, Gpio.io16ReadData_eq h, h.h.highZ.1, h.h.highZ.2,
    h.b.highZ.1, h.b.highZ.2⟩
  · rw [Gpio.view8_run Gpio.Inv.init]
    simp only [Gpio.view8, Gpio.init, PortRegs.init, lines8_zero]
  · rw [Gpio.view16_run Gpio.Inv.init]
    simp only [Gpio.view16, Gpio.init, PortRegs.init, lines16_zero]

end M2560

end NeurAvr
