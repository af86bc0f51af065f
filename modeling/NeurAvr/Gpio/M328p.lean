import Mathlib.Tactic.IntervalCases
import NeurAvr.Gpio.Bank

/-!
# The GPIO of the ATmega328P

`m328p/neur-m328p-gpio.cpp`: the 8-bit bank puts GP0..GP2 on pins D5..D7 and GP3..GP7 on pins
B0..B4; the 16-bit bank is not mapped, and its functions do nothing and read 0. The other pins of
ports D and B (the UART's D0 and D1 among them) are to stay high-Z inputs, which `GPMASK_PORTD`
and `GPMASK_PORTB` see to.

`Gpio.view` reads the registers of the two ports as one bank, through `lines`, the pin map of
`IO8_ReadData`. Each function refines its `Bank` operation (`view_io8WriteData`, ...) in every
state of `Gpio.Inv`, the two ports' invariant, which every call keeps. Over every sequence of calls
from power-on the bank is the one-port bank after the same calls, the reads agree, and the pins
outside the bank stay high-Z inputs (`m328p_gpio_refines_bank`).
-/

namespace NeurAvr

namespace M328p

/-- `GPMASK_PORTD`. -/
def gpmaskPortd : UInt8 := 0xe0

/-- `GPMASK_PORTB`. -/
def gpmaskPortb : UInt8 := 0x1f

/-- The last step of `IO8_ReadData`, from port bits to data bits: `scratch_d >>= 5;
scratch_d &= 0x07; scratch_b <<= 3; scratch_b &= 0xf8; return scratch_d | scratch_b;` -/
def lines (scratchD scratchB : UInt8) : UInt8 :=
  ((scratchD >>> (5 : UInt8)) &&& 0x07) ||| ((scratchB <<< (3 : UInt8)) &&& 0xf8)

/-- The globals and registers of `neur-m328p-gpio.cpp`: ports D and B, and `lastval_8`. -/
structure Gpio where
  d : PortRegs
  b : PortRegs
  lastval8 : UInt8
deriving DecidableEq, Repr

namespace Gpio

/-- After `MCU_Init`. -/
def init : Gpio := ⟨.init, .init, 0⟩

/-- `IO8_SelectOutputs(output_mask)`. -/
def io8SelectOutputs (s : Gpio) (outputMask : UInt8) : Gpio :=
  { s with
    d := s.d.setDir (((outputMask &&& 0x07) <<< (5 : UInt8)) &&& gpmaskPortd)
    b := s.b.setDir (((outputMask &&& 0xf8) >>> (3 : UInt8)) &&& gpmaskPortb) }

/-- `IO8_WriteData(output_data)`. -/
def io8WriteData (s : Gpio) (outputData : UInt8) : Gpio :=
  { d := s.d.writeData ((outputData &&& 0x07) <<< (5 : UInt8))
    b := s.b.writeData ((outputData &&& 0xf8) >>> (3 : UInt8))
    lastval8 := outputData }

/-- `IO8_GetOutputValue()`. -/
def io8GetOutputValue (s : Gpio) : UInt8 := s.lastval8

/-- `IO8_SetPullups(pullup_mask)`. -/
def io8SetPullups (s : Gpio) (pullupMask : UInt8) : Gpio :=
  { s with
    d := s.d.setPullups
      ((((pullupMask &&& 0x07) <<< (5 : UInt8)) &&& ~~~s.d.dirmask) &&& gpmaskPortd)
    b := s.b.setPullups
      ((((pullupMask &&& 0xf8) >>> (3 : UInt8)) &&& ~~~s.b.dirmask) &&& gpmaskPortb) }

/-- `IO8_ReadData()`, the pins reading `pind` and `pinb`. -/
def io8ReadData (s : Gpio) (pind pinb : UInt8) : UInt8 :=
  lines ((pind &&& ~~~s.d.dirmask) &&& gpmaskPortd) ((pinb &&& ~~~s.b.dirmask) &&& gpmaskPortb)

/-- `IO16_SelectOutputs`: not mapped. -/
def io16SelectOutputs (s : Gpio) (_ : UInt16) : Gpio := s

/-- `IO16_WriteData`: not mapped. -/
def io16WriteData (s : Gpio) (_ : UInt16) : Gpio := s

/-- `IO16_GetOutputValue`: not mapped. -/
def io16GetOutputValue (_ : Gpio) : UInt16 := 0

/-- `IO16_SetPullups`: not mapped. -/
def io16SetPullups (s : Gpio) (_ : UInt16) : Gpio := s

/-- `IO16_ReadData`: not mapped. -/
def io16ReadData (_ : Gpio) : UInt16 := 0

def call (s : Gpio) : GpioCall → Gpio
  | .io8 (.selectOutputs m) => s.io8SelectOutputs m
  | .io8 (.writeData v) => s.io8WriteData v
  | .io8 (.setPullups m) => s.io8SetPullups m
  | .io16 (.selectOutputs m) => s.io16SelectOutputs m
  | .io16 (.writeData v) => s.io16WriteData v
  | .io16 (.setPullups m) => s.io16SetPullups m

def run (s : Gpio) (cs : List GpioCall) : Gpio := cs.foldl call s

/-- The bank the registers present: a line is an output when the `DDR` bit of its pin is set, at
the level of its `PORT` bit. -/
def view (s : Gpio) : Bank UInt8 := ⟨lines s.d.ddr s.b.ddr, lines s.d.port s.b.port, s.lastval8⟩

/-- Both ports keep their invariant, each within its `GPMASK`. -/
structure Inv (s : Gpio) : Prop where
  d : s.d.Inv gpmaskPortd
  b : s.b.Inv gpmaskPortb

end Gpio

/-! ### The pin map -/

theorem byteBit_lines (d b : UInt8) {i : Nat} (hi : i < 8) :
    byteBit (lines d b) i = if i < 3 then byteBit d (i + 5) else byteBit b (i - 3) := by
  simp only [lines, byteBit_or, byteBit_and, byteBit_shiftRight _ (by decide : 5 < 8),
    byteBit_shiftLeft _ (by decide : 3 < 8), byteBit_ofNat]
  interval_cases i <;> simp [Nat.testBit_to_div_mod]

theorem byteBit_laneD (v : UInt8) {i : Nat} (hi : i < 3) :
    byteBit ((v &&& 0x07) <<< (5 : UInt8)) (i + 5) = byteBit v i := by
  rw [byteBit_shiftLeft _ (by decide)]
  interval_cases i <;> simp [Nat.testBit_to_div_mod]

theorem byteBit_laneB (v : UInt8) {i : Nat} (h3 : 3 ≤ i) (hi : i < 8) :
    byteBit ((v &&& 0xf8) >>> (3 : UInt8)) (i - 3) = byteBit v i := by
  rw [byteBit_shiftRight _ (by decide)]
  interval_cases i <;> simp [Nat.testBit_to_div_mod]

theorem byteBit_gpmaskPortd {i : Nat} (hi : i < 3) : byteBit gpmaskPortd (i + 5) = true := by
  interval_cases i <;> decide

theorem byteBit_gpmaskPortb {i : Nat} (h3 : 3 ≤ i) (hi : i < 8) :
    byteBit gpmaskPortb (i - 3) = true := by
  interval_cases i <;> decide

theorem lines_zero : lines 0 0 = 0 := by decide

/-! ### Each call refines its bank operation -/

namespace Gpio

variable {s : Gpio}

theorem view_io8SelectOutputs (s : Gpio) (m : UInt8) :
    (s.io8SelectOutputs m).view = s.view.selectOutputs m := by
  simp only [view, io8SelectOutputs, Bank.selectOutputs, PortRegs.setDir, Bank.mk.injEq,
    and_true]
  refine byte_ext fun i hi => ?_
  rw [byteBit_lines _ _ hi]
  split_ifs with h3
  · simp [byteBit_laneD m h3, byteBit_gpmaskPortd h3]
  · simp [byteBit_laneB m (by omega) hi, byteBit_gpmaskPortb (by omega) hi]

theorem view_io8WriteData (h : s.Inv) (v : UInt8) :
    (s.io8WriteData v).view = s.view.writeData v := by
  simp only [view, io8WriteData, Bank.writeData, PortRegs.writeData_ddr, Bank.mk.injEq, true_and,
    and_true]
  refine byte_ext fun i hi => ?_
  simp only [byteBit_or, byteBit_and, byteBit_not, byteBit_lines _ _ hi, hi, decide_True,
    Bool.true_and]
  by_cases h3 : i < 3
  · simp only [if_pos h3, PortRegs.byteBit_writeData, byteBit_laneD v h3, h.d.ddr_eq, h.d.port_eq]
    cases byteBit s.d.dirmask (i + 5) <;> simp
  · simp only [if_neg h3, PortRegs.byteBit_writeData, byteBit_laneB v (by omega) hi, h.b.ddr_eq,
      h.b.port_eq]
    cases byteBit s.b.dirmask (i - 3) <;> simp

theorem view_io8SetPullups (h : s.Inv) (m : UInt8) :
    (s.io8SetPullups m).view = s.view.setPullups m := by
  simp only [view, io8SetPullups, Bank.setPullups, PortRegs.setPullups_ddr, Bank.mk.injEq,
    true_and, and_true]
  refine byte_ext fun i hi => ?_
  simp only [byteBit_or, byteBit_and, byteBit_not, byteBit_lines _ _ hi, hi, decide_True,
    Bool.true_and]
  by_cases h3 : i < 3
  · simp [h3, PortRegs.byteBit_setPullups, byteBit_laneD m h3, byteBit_gpmaskPortd h3, h.d.ddr_eq,
      h.d.port_eq, show i + 5 < 8 by omega]
  · simp [h3, PortRegs.byteBit_setPullups, byteBit_laneB m (by omega) hi,
      byteBit_gpmaskPortb (by omega) hi, h.b.ddr_eq, h.b.port_eq, show i - 3 < 8 by omega]

theorem io8ReadData_eq (h : s.Inv) (pind pinb : UInt8) :
    s.io8ReadData pind pinb = s.view.readData (lines pind pinb) := by
  refine byte_ext fun i hi => ?_
  simp only [io8ReadData, view, Bank.readData, byteBit_and, byteBit_not, byteBit_lines _ _ hi, hi,
    decide_True, Bool.true_and]
  split_ifs with h3
  · simp [byteBit_gpmaskPortd h3, h.d.ddr_eq, show i + 5 < 8 by omega]
  · simp [byteBit_gpmaskPortb (by omega) hi, h.b.ddr_eq, show i - 3 < 8 by omega]

/-! ### The invariant along a run -/

theorem Inv.init : Gpio.init.Inv := ⟨.init _, .init _⟩

theorem Inv.io8SelectOutputs (h : s.Inv) (m : UInt8) : (s.io8SelectOutputs m).Inv :=
  ⟨h.d.setDir fun j hj => by simp [hj], h.b.setDir fun j hj => by simp [hj]⟩

theorem Inv.io8WriteData (h : s.Inv) (v : UInt8) : (s.io8WriteData v).Inv :=
  ⟨h.d.writeData _, h.b.writeData _⟩

theorem Inv.io8SetPullups (h : s.Inv) (m : UInt8) : (s.io8SetPullups m).Inv :=
  ⟨h.d.setPullups fun j hj => by simp [hj], h.b.setPullups fun j hj => by simp [hj]⟩

theorem Inv.call (h : s.Inv) : ∀ c, (s.call c).Inv
  | .io8 (.selectOutputs m) => h.io8SelectOutputs m
  | .io8 (.writeData v) => h.io8WriteData v
  | .io8 (.setPullups m) => h.io8SetPullups m
  | .io16 (.selectOutputs _) | .io16 (.writeData _) | .io16 (.setPullups _) => h

theorem Inv.run (h : s.Inv) (cs : List GpioCall) : (s.run cs).Inv := by
  induction cs generalizing s with
  | nil => exact h
  | cons c cs ih => exact ih (h.call c)

/-- A call to the 8-bit bank is its bank operation; a call to the 16-bit bank leaves it alone. -/
theorem view_call (h : s.Inv) :
    ∀ c, (s.call c).view = ((c.io8?).map s.view.call).getD s.view
  | .io8 (.selectOutputs m) => s.view_io8SelectOutputs m
  | .io8 (.writeData v) => view_io8WriteData h v
  | .io8 (.setPullups m) => view_io8SetPullups h m
  | .io16 (.selectOutputs _) | .io16 (.writeData _) | .io16 (.setPullups _) => rfl

theorem view_run (h : s.Inv) (cs : List GpioCall) :
    (s.run cs).view = s.view.run (cs.filterMap GpioCall.io8?) := by
  induction cs generalizing s with
  | nil => rfl
  | cons c cs ih =>
    show ((s.call c).run cs).view = _
    rw [ih (h.call c), view_call h c]
    cases c <;> rfl

end Gpio

/-- From power-on, over every sequence of calls to the GPIO functions of the ATmega328P: the
registers of ports D and B, read through the pin map, are the one-port 8-bit bank after the same
calls to it (the 16-bit calls do nothing); `IO8_ReadData` reads that bank's inputs from the pins
and gives 0 for its outputs; and the pins of ports D and B outside the bank stay high-Z inputs. -/
theorem m328p_gpio_refines_bank (calls : List GpioCall) :
    let s := Gpio.init.run calls
    s.view = (⟨0, 0, 0⟩ : Bank UInt8).run (calls.filterMap GpioCall.io8?) ∧
      (∀ pind pinb, s.io8ReadData pind pinb = s.view.readData (lines pind pinb)) ∧
      s.d.ddr &&& ~~~gpmaskPortd = 0 ∧ s.d.port &&& ~~~gpmaskPortd = 0 ∧
      s.b.ddr &&& ~~~gpmaskPortb = 0 ∧ s.b.port &&& ~~~gpmaskPortb = 0 := by
  intro s
  have h : s.Inv := Gpio.Inv.init.run calls
  refine ⟨?_, Gpio.io8ReadData_eq h, h.d.highZ.1, h.d.highZ.2, h.b.highZ.1, h.b.highZ.2⟩
  rw [Gpio.view_run Gpio.Inv.init]
  simp only [Gpio.view, Gpio.init, PortRegs.init, lines_zero]

end M328p

end NeurAvr
