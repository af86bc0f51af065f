import Mathlib.Data.Nat.Bitwise

/-!
# GPIO banks: what they are for, and the steps the code takes on a port

`IO8_*` and `IO16_*` drive a bank of digital lines that the chip spreads over two ports; a port
the bank shares with other hardware is the bank's only on the bits of its `GPMASK_PORT*`. `Bank`
is what the functions promise: one port of 8 or 16 lines, a direction per line, one level per
line (driven on an output, the pull-up on an input), reads of the inputs with the outputs as 0,
and the value last written. The chip modules prove that the code refines it.

Here: the bits of `UInt8` and `UInt16` (`byteBit`, `wordBit`, with their simp lemmas: the code is
proved bit by bit), `Bank`, and the steps the code takes on one port (`PortRegs`: the direction
mask and `DDR*`, the image and `PORT*`). `PortRegs.Inv` is their invariant: the registers hold the
code's copies, and the pins outside the bank stay high-Z inputs.
-/

namespace NeurAvr

/-! ### Bits -/

/-- Bit `i` of a byte. -/
def byteBit (x : UInt8) (i : Nat) : Bool := x.toNat.testBit i

/-- Bit `i` of a 16-bit word. -/
def wordBit (x : UInt16) (i : Nat) : Bool := x.toNat.testBit i

theorem byteBit_eq_getLsbD (x : UInt8) (i : Nat) : byteBit x i = x.toBitVec.getLsbD i :=
  BitVec.testBit_toNat _

theorem wordBit_eq_getLsbD (x : UInt16) (i : Nat) : wordBit x i = x.toBitVec.getLsbD i :=
  BitVec.testBit_toNat _

@[simp] theorem byteBit_and (a b : UInt8) (i : Nat) :
    byteBit (a &&& b) i = (byteBit a i && byteBit b i) := by
  simp only [byteBit_eq_getLsbD]; exact BitVec.getLsbD_and ..

@[simp] theorem byteBit_or (a b : UInt8) (i : Nat) :
    byteBit (a ||| b) i = (byteBit a i || byteBit b i) := by
  simp only [byteBit_eq_getLsbD]; exact BitVec.getLsbD_or ..

@[simp] theorem byteBit_not (a : UInt8) (i : Nat) :
    byteBit (~~~a) i = (decide (i < 8) && !byteBit a i) := by
  simp only [byteBit_eq_getLsbD]; exact BitVec.getLsbD_not ..

@[simp] theorem byteBit_ofNat (n i : Nat) :
    byteBit (no_index (OfNat.ofNat n : UInt8)) i = (decide (i < 8) && n.testBit i) := by
  simp only [byteBit_eq_getLsbD]; exact BitVec.getLsbD_ofNat ..

@[simp] theorem wordBit_and (a b : UInt16) (i : Nat) :
    wordBit (a &&& b) i = (wordBit a i && wordBit b i) := by
  simp only [wordBit_eq_getLsbD]; exact BitVec.getLsbD_and ..

@[simp] theorem wordBit_or (a b : UInt16) (i : Nat) :
    wordBit (a ||| b) i = (wordBit a i || wordBit b i) := by
  simp only [wordBit_eq_getLsbD]; exact BitVec.getLsbD_or ..

@[simp] theorem wordBit_not (a : UInt16) (i : Nat) :
    wordBit (~~~a) i = (decide (i < 16) && !wordBit a i) := by
  simp only [wordBit_eq_getLsbD]; exact BitVec.getLsbD_not ..

@[simp] theorem wordBit_ofNat (n i : Nat) :
    wordBit (no_index (OfNat.ofNat n : UInt16)) i = (decide (i < 16) && n.testBit i) := by
  simp only [wordBit_eq_getLsbD]; exact BitVec.getLsbD_ofNat ..

theorem byteBit_lt {x : UInt8} {i : Nat} (h : byteBit x i = true) : i < 8 := by
  by_contra hi
  rw [byteBit_eq_getLsbD, BitVec.getLsbD_ge _ _ (by omega)] at h
  cases h

theorem wordBit_lt {x : UInt16} {i : Nat} (h : wordBit x i = true) : i < 16 := by
  by_contra hi
  rw [wordBit_eq_getLsbD, BitVec.getLsbD_ge _ _ (by omega)] at h
  cases h

theorem uint8_mod_eight (k : Nat) (hk : k < 8) :
    (UInt8.mod (OfNat.ofNat k) 8).toBitVec.toNat = k := by
  show (BitVec.ofNat 8 k % BitVec.ofNat 8 8).toNat = k
  rw [BitVec.toNat_umod, BitVec.toNat_ofNat, BitVec.toNat_ofNat]
  simp only [Nat.reducePow, Nat.reduceMod]
  omega

theorem uint16_mod_sixteen (k : Nat) (hk : k < 16) :
    (UInt16.mod (OfNat.ofNat k) 16).toBitVec.toNat = k := by
  show (BitVec.ofNat 16 k % BitVec.ofNat 16 16).toNat = k
  rw [BitVec.toNat_umod, BitVec.toNat_ofNat, BitVec.toNat_ofNat]
  simp only [Nat.reducePow, Nat.reduceMod]
  omega

theorem byteBit_shiftLeft (a : UInt8) {k : Nat} (hk : k < 8) (i : Nat) :
    byteBit (a <<< (OfNat.ofNat k : UInt8)) i =
      (decide (i < 8) && decide (k ≤ i) && byteBit a (i - k)) := by
  simp only [byteBit_eq_getLsbD]
  show (a.toBitVec <<< (UInt8.mod (OfNat.ofNat k) 8).toBitVec).getLsbD i = _
  rw [BitVec.shiftLeft_eq', uint8_mod_eight k hk, BitVec.getLsbD_shiftLeft]
  cases decide (i < 8) <;> cases h : decide (i < k) <;> simp_all

theorem byteBit_shiftRight (a : UInt8) {k : Nat} (hk : k < 8) (i : Nat) :
    byteBit (a >>> (OfNat.ofNat k : UInt8)) i = byteBit a (k + i) := by
  simp only [byteBit_eq_getLsbD]
  show (a.toBitVec >>> (UInt8.mod (OfNat.ofNat k) 8).toBitVec).getLsbD i = _
  rw [BitVec.ushiftRight_eq', uint8_mod_eight k hk, BitVec.getLsbD_ushiftRight]

theorem wordBit_shiftLeft (a : UInt16) {k : Nat} (hk : k < 16) (i : Nat) :
    wordBit (a <<< (OfNat.ofNat k : UInt16)) i =
      (decide (i < 16) && decide (k ≤ i) && wordBit a (i - k)) := by
  simp only [wordBit_eq_getLsbD]
  show (a.toBitVec <<< (UInt16.mod (OfNat.ofNat k) 16).toBitVec).getLsbD i = _
  rw [BitVec.shiftLeft_eq', uint16_mod_sixteen k hk, BitVec.getLsbD_shiftLeft]
  cases decide (i < 16) <;> cases h : decide (i < k) <;> simp_all

theorem wordBit_shiftRight (a : UInt16) {k : Nat} (hk : k < 16) (i : Nat) :
    wordBit (a >>> (OfNat.ofNat k : UInt16)) i = wordBit a (k + i) := by
  simp only [wordBit_eq_getLsbD]
  show (a.toBitVec >>> (UInt16.mod (OfNat.ofNat k) 16).toBitVec).getLsbD i = _
  rw [BitVec.ushiftRight_eq', uint16_mod_sixteen k hk, BitVec.getLsbD_ushiftRight]

@[simp] theorem byteBit_toUInt8 (w : UInt16) (i : Nat) :
    byteBit w.toUInt8 i = (decide (i < 8) && wordBit w i) := by
  show (w.toNat % 2 ^ 8).testBit i = _
  rw [Nat.testBit_mod_two_pow]; rfl

@[simp] theorem wordBit_toUInt16 (b : UInt8) (i : Nat) : wordBit b.toUInt16 i = byteBit b i := rfl

theorem byte_ext {a b : UInt8} (h : ∀ i < 8, byteBit a i = byteBit b i) : a = b := by
  refine UInt8.eq_of_toBitVec_eq (BitVec.eq_of_getLsbD_eq fun i => ?_)
  simpa only [byteBit_eq_getLsbD] using h i.1 i.2

theorem word_ext {a b : UInt16} (h : ∀ i < 16, wordBit a i = wordBit b i) : a = b := by
  refine UInt16.eq_of_toBitVec_eq (BitVec.eq_of_getLsbD_eq fun i => ?_)
  simpa only [wordBit_eq_getLsbD] using h i.1 i.2

/-! ### What a bank is for -/

/-- A bank as the header promises it: which lines are outputs (`1`), the level of each line
(driven on an output, the pull-up on an input) and the value last written. -/
structure Bank (V : Type) where
  dir : V
  level : V
  lastval : V
deriving DecidableEq, Repr

/-- A call that changes a bank: `IOx_SelectOutputs`, `IOx_WriteData`, `IOx_SetPullups`. -/
inductive BankCall (V : Type)
  | selectOutputs (mask : V)
  | writeData (value : V)
  | setPullups (mask : V)
deriving DecidableEq, Repr

namespace Bank

variable {V : Type} [AndOp V] [OrOp V] [Complement V]

/-- `IOx_SelectOutputs`: the new directions; the levels stay. -/
def selectOutputs (b : Bank V) (mask : V) : Bank V := { b with dir := mask }

/-- `IOx_WriteData`: the outputs take the value, the inputs keep their pull-ups. -/
def writeData (b : Bank V) (value : V) : Bank V :=
  { b with level := (b.level &&& ~~~b.dir) ||| (value &&& b.dir), lastval := value }

/-- `IOx_SetPullups`: the inputs take the mask, the outputs keep their levels. -/
def setPullups (b : Bank V) (mask : V) : Bank V :=
  { b with level := (b.level &&& b.dir) ||| (mask &&& ~~~b.dir) }

/-- `IOx_ReadData` with the lines at `pins`: the inputs as they are, the outputs as 0. -/
def readData (b : Bank V) (pins : V) : V := pins &&& ~~~b.dir

/-- `IOx_GetOutputValue`. -/
def getOutputValue (b : Bank V) : V := b.lastval

def call (b : Bank V) : BankCall V → Bank V
  | .selectOutputs m => b.selectOutputs m
  | .writeData v => b.writeData v
  | .setPullups m => b.setPullups m

def run (b : Bank V) (cs : List (BankCall V)) : Bank V := cs.foldl call b

@[simp] theorem run_nil (b : Bank V) : b.run [] = b := rfl

@[simp] theorem run_cons (b : Bank V) (c : BankCall V) (cs : List (BankCall V)) :
    b.run (c :: cs) = (b.call c).run cs := rfl

end Bank

/-- A call of a chip's GPIO functions, to the 8-bit bank or to the 16-bit one. -/
inductive GpioCall
  | io8 (c : BankCall UInt8)
  | io16 (c : BankCall UInt16)
deriving DecidableEq, Repr

/-- The calls to the 8-bit bank. -/
def GpioCall.io8? : GpioCall → Option (BankCall UInt8)
  | .io8 c => some c
  | .io16 _ => none

/-- The calls to the 16-bit bank. -/
def GpioCall.io16? : GpioCall → Option (BankCall UInt16)
  | .io8 _ => none
  | .io16 c => some c

/-! ### One port as the code drives it -/

/-- A port as the GPIO code keeps it: its direction mask (`dirmask_port*`), the image it writes
to `PORT*` (`data_*`: data on the outputs, pull-ups on the inputs), and the two registers. -/
structure PortRegs where
  dirmask : UInt8
  data : UInt8
  ddr : UInt8
  port : UInt8
deriving DecidableEq, Repr

namespace PortRegs

/-- Power-on: the globals start at zero, and `MCU_Init` clears `DDR*` and `PORT*`. -/
def init : PortRegs := ⟨0, 0, 0, 0⟩

/-- `dirmask_portx = d; DDRx = dirmask_portx;` -/
def setDir (p : PortRegs) (d : UInt8) : PortRegs := { p with dirmask := d, ddr := d }

/-- `scratch &= dirmask_portx; data_x &= ~dirmask_portx; data_x |= scratch; PORTx = data_x;` -/
def writeData (p : PortRegs) (scratch : UInt8) : PortRegs :=
  let data := (p.data &&& ~~~p.dirmask) ||| (scratch &&& p.dirmask)
  { p with data := data, port := data }

/-- `data_x &= dirmask_portx; data_x |= scratch; PORTx = data_x;`, where the caller has already
kept `scratch` to the inputs (and to the bank). -/
def setPullups (p : PortRegs) (scratch : UInt8) : PortRegs :=
  let data := (p.data &&& p.dirmask) ||| scratch
  { p with data := data, port := data }

variable {p : PortRegs}

@[simp] theorem setDir_data (d : UInt8) : (p.setDir d).data = p.data := rfl

@[simp] theorem setDir_port (d : UInt8) : (p.setDir d).port = p.port := rfl

@[simp] theorem writeData_dirmask (s : UInt8) : (p.writeData s).dirmask = p.dirmask := rfl

@[simp] theorem writeData_ddr (s : UInt8) : (p.writeData s).ddr = p.ddr := rfl

@[simp] theorem setPullups_dirmask (s : UInt8) : (p.setPullups s).dirmask = p.dirmask := rfl

@[simp] theorem setPullups_ddr (s : UInt8) : (p.setPullups s).ddr = p.ddr := rfl

theorem byteBit_writeData (s : UInt8) (j : Nat) :
    byteBit (p.writeData s).port j = if byteBit p.dirmask j then byteBit s j else byteBit p.data j := by
  show byteBit ((p.data &&& ~~~p.dirmask) ||| (s &&& p.dirmask)) j = _
  cases hd : byteBit p.dirmask j <;> cases hp : byteBit p.data j <;> simp [hd, hp]
  exact byteBit_lt hp

theorem byteBit_setPullups (s : UInt8) (j : Nat) :
    byteBit (p.setPullups s).port j = ((byteBit p.data j && byteBit p.dirmask j) || byteBit s j) := by
  show byteBit ((p.data &&& p.dirmask) ||| s) j = _
  simp

/-- The registers hold the code's copies, and the pins outside the bank's `gpmask` are high-Z
inputs: their `DDR` and `PORT` bits are clear. -/
structure Inv (gpmask : UInt8) (p : PortRegs) : Prop where
  ddr_eq : p.ddr = p.dirmask
  port_eq : p.port = p.data
  dir_off : ∀ j, byteBit gpmask j = false → byteBit p.dirmask j = false
  data_off : ∀ j, byteBit gpmask j = false → byteBit p.data j = false

namespace Inv

variable {g : UInt8}

theorem init (g : UInt8) : Inv g init :=
  ⟨rfl, rfl, fun _ _ => Nat.zero_testBit _, fun _ _ => Nat.zero_testBit _⟩

theorem setDir (h : Inv g p) {d : UInt8} (hd : ∀ j, byteBit g j = false → byteBit d j = false) :
    Inv g (p.setDir d) :=
  ⟨rfl, h.port_eq, hd, h.data_off⟩

theorem writeData (h : Inv g p) (s : UInt8) : Inv g (p.writeData s) :=
  ⟨h.ddr_eq, rfl, h.dir_off, fun j hj => by
    show byteBit ((p.data &&& ~~~p.dirmask) ||| (s &&& p.dirmask)) j = false
    simp [h.data_off j hj, h.dir_off j hj]⟩

theorem setPullups (h : Inv g p) {s : UInt8} (hs : ∀ j, byteBit g j = false → byteBit s j = false) :
    Inv g (p.setPullups s) :=
  ⟨h.ddr_eq, rfl, h.dir_off, fun j hj => by
    show byteBit ((p.data &&& p.dirmask) ||| s) j = false
    simp [h.data_off j hj, hs j hj]⟩

/-- A pin outside the bank is a high-Z input. -/
theorem highZ (h : Inv g p) : p.ddr &&& ~~~g = 0 ∧ p.port &&& ~~~g = 0 := by
  rw [h.ddr_eq, h.port_eq]
  constructor <;> refine byte_ext fun j hj => ?_ <;> cases hg : byteBit g j <;>
    simp [hg, hj, h.dir_off, h.data_off]

end Inv

end PortRegs

end NeurAvr
