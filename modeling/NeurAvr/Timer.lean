import Mathlib.Data.List.Basic
import Mathlib.Algebra.Group.Nat.Basic

/-!
# The real-time clock (`Timer_Query`, `Timer_Query_ISR`, `Timer_Reset`, `Timer_RegisterCallback`)

`rtc_timestamp` is a `volatile uint32_t` and `rtc_usercallback` a code pointer, two bytes on the
AVR with `NULL` as `0`. The timer interrupt, `ISR(TIMER1_COMPA_vect, ISR_BLOCK)`, runs with
interrupts off: `rtc_timestamp++`, then a call of `rtc_usercallback` unless it is `NULL`. The
8-bit core moves the two variables a byte at a time, so the code the interrupt preempts touches
them in several steps, and the interrupt is taken between any two of them while the I flag of
`SREG` is set. `Timer_Query`, `Timer_Reset` and `Timer_RegisterCallback` put their access in
`ATOMIC_BLOCK(ATOMIC_RESTORESTATE)`: save `SREG` and clear the flag, the access, put `SREG` back.
`Timer_Query_ISR` has no block ("while within an ISR or other locked code"); `DoUpdate_ISR`, which
the application's `TimerCallback` calls, uses it inside its `NONATOMIC_BLOCK`s, with interrupts
on, to time its handlers.

`ClockSys` is the preempted code's remaining steps (`ClockOp`), the two variables, the I flag and
the saved `SREG`, the bytes loaded so far, and as history the timer interrupts taken and the
callbacks they made. Bytes move low byte first. What a callback does is left out: `DoUpdate_ISR`
only reads the clock.

`run_atomicBlock` is the contract of `ATOMIC_BLOCK`: while a block whose body leaves `SREG` alone
runs, every interleaving is a serial run (`Serial`): interrupts, then the block with none inside,
then interrupts. Each function's result follows by running its block once. `Timer_Query_ISR` is
exact with interrupts off, and with them on a tick between two of its loads can make it return a
value the clock never held (`timer_query_isr_torn`).
-/

namespace NeurAvr

/-! ### Bytes -/

theorem uint32_toNat_add_one (a : UInt32) : (a + 1).toNat = (a.toNat + 1) % 2 ^ 32 := by
  simp only [UInt32.toNat, UInt32.add_def, BitVec.toNat_add]
  rfl

theorem uint8_toNat_ofNat (n : Nat) : (UInt8.ofNat n).toNat = n % 2 ^ 8 := BitVec.toNat_ofNat _ _

theorem uint16_toNat_ofNat (n : Nat) : (UInt16.ofNat n).toNat = n % 2 ^ 16 := BitVec.toNat_ofNat _ _

theorem uint32_toNat_ofNat (n : Nat) : (UInt32.ofNat n).toNat = n % 2 ^ 32 := BitVec.toNat_ofNat _ _

/-- Byte `k` of `n`, byte `0` being the low one. -/
def byteOf (n k : Nat) : UInt8 := UInt8.ofNat (n / 256 ^ k)

/-- `n` with byte `k` replaced by `v`. -/
def setByte (n k : Nat) (v : UInt8) : Nat := n - n / 256 ^ k % 256 * 256 ^ k + v.toNat * 256 ^ k

/-- The number whose bytes, low byte first, are `bs`. -/
def ofBytes : List UInt8 → Nat
  | [] => 0
  | b :: bs => b.toNat + 256 * ofBytes bs

/-- Four loads, low byte first, read a `uint32_t` back. -/
theorem ofBytes_byteOf (a : UInt32) :
    ofBytes [byteOf a.toNat 0, byteOf a.toNat 1, byteOf a.toNat 2, byteOf a.toNat 3] = a.toNat := by
  have : a.toNat < 2 ^ 32 := a.toBitVec.isLt
  simp only [ofBytes, byteOf, uint8_toNat_ofNat]
  omega

theorem setByte_zero_uint32 (a : UInt32) :
    UInt32.ofNat (setByte (UInt32.ofNat (setByte (UInt32.ofNat (setByte (UInt32.ofNat
      (setByte a.toNat 0 0)).toNat 1 0)).toNat 2 0)).toNat 3 0) = 0 := by
  have : a.toNat < 2 ^ 32 := a.toBitVec.isLt
  apply UInt32.toNat.inj
  simp only [setByte, uint32_toNat_ofNat, UInt8.toNat_zero, UInt32.toNat_zero, Nat.zero_mul,
    Nat.add_zero, Nat.reducePow]
  omega

theorem setByte_byteOf_uint16 (a v : UInt16) :
    UInt16.ofNat (setByte (UInt16.ofNat (setByte a.toNat 0 (byteOf v.toNat 0))).toNat 1
      (byteOf v.toNat 1)) = v := by
  have : a.toNat < 2 ^ 16 := a.toBitVec.isLt
  have : v.toNat < 2 ^ 16 := v.toBitVec.isLt
  apply UInt16.toNat.inj
  simp only [setByte, byteOf, uint8_toNat_ofNat, uint16_toNat_ofNat]
  omega

/-! ### The model -/

/-- One step of the code the timer interrupt preempts. -/
inductive ClockOp
  /-- `sreg_save = SREG; cli();`, the head of `ATOMIC_BLOCK(ATOMIC_RESTORESTATE)`. -/
  | cli
  /-- `SREG = sreg_save;`, its tail. -/
  | restore
  /-- A load of byte `k` of `rtc_timestamp`. -/
  | loadStamp (k : Nat)
  /-- A store of `v` to byte `k` of `rtc_timestamp`. -/
  | storeStamp (k : Nat) (v : UInt8)
  /-- A store of `v` to byte `k` of `rtc_usercallback`. -/
  | storeCallback (k : Nat) (v : UInt8)
deriving Repr, DecidableEq

/-- Whether a step leaves `SREG` alone. -/
def ClockOp.keepsSreg : ClockOp → Bool
  | .cli | .restore => false
  | _ => true

/-- `ATOMIC_BLOCK(ATOMIC_RESTORESTATE) { body }`. -/
def atomicBlock (body : List ClockOp) : List ClockOp := .cli :: body ++ [.restore]

/-- A load of `rtc_timestamp`. -/
def readStamp : List ClockOp := [.loadStamp 0, .loadStamp 1, .loadStamp 2, .loadStamp 3]

/-- `rtc_timestamp = 0`. -/
def clearStamp : List ClockOp := [.storeStamp 0 0, .storeStamp 1 0, .storeStamp 2 0, .storeStamp 3 0]

/-- `rtc_usercallback = callback`. -/
def writeCallback (callback : UInt16) : List ClockOp :=
  [.storeCallback 0 (byteOf callback.toNat 0), .storeCallback 1 (byteOf callback.toNat 1)]

/-- `Timer_Reset()`: `rtc_timestamp = 0` in an atomic block. -/
def timerReset : List ClockOp := atomicBlock clearStamp

/-- `Timer_Query()`: `result = rtc_timestamp` in an atomic block. -/
def timerQuery : List ClockOp := atomicBlock readStamp

/-- `Timer_Query_ISR()`: `return rtc_timestamp`. -/
def timerQueryISR : List ClockOp := readStamp

/-- `Timer_RegisterCallback(callback)`: `rtc_usercallback = callback` in an atomic block. -/
def timerRegisterCallback (callback : UInt16) : List ClockOp := atomicBlock (writeCallback callback)

/-- The clock's globals, the I flag of `SREG` and the copy an atomic block saved, the bytes loaded
so far and the steps left; `ticks` and `called` count the timer interrupts and list the callbacks
they made. -/
structure ClockSys where
  rtcTimestamp : UInt32
  rtcUsercallback : UInt16
  sreg : Bool
  saved : Bool
  loaded : List UInt8
  prog : List ClockOp
  ticks : Nat
  called : List UInt16
deriving Repr, DecidableEq

/-- The preempted code takes its next step, or the timer interrupt is raised. -/
inductive ClockEv
  | main
  | timer
deriving Repr, DecidableEq

/-- The calls that `k` timer interrupts make while `rtc_usercallback` is `cb`. -/
def callsOf (cb : UInt16) (k : Nat) : List UInt16 := if cb = 0 then [] else List.replicate k cb

theorem callsOf_add (cb : UInt16) (k k' : Nat) : callsOf cb (k + k') = callsOf cb k ++ callsOf cb k' := by
  unfold callsOf; split
  · rfl
  · exact List.replicate_add _ _ _

namespace ClockSys

/-- `ISR(TIMER1_COMPA_vect, ISR_BLOCK)`, taken only while the I flag is set. -/
def timerISR (x : ClockSys) : ClockSys :=
  if x.sreg then
    { x with rtcTimestamp := x.rtcTimestamp + 1, ticks := x.ticks + 1,
             called := if x.rtcUsercallback = 0 then x.called else x.called ++ [x.rtcUsercallback] }
  else x

/-- The step `op`, with `ops` left to run. -/
def runOp (x : ClockSys) (ops : List ClockOp) : ClockOp → ClockSys
  | .cli => { x with saved := x.sreg, sreg := false, prog := ops }
  | .restore => { x with sreg := x.saved, prog := ops }
  | .loadStamp k => { x with loaded := x.loaded ++ [byteOf x.rtcTimestamp.toNat k], prog := ops }
  | .storeStamp k v =>
    { x with rtcTimestamp := UInt32.ofNat (setByte x.rtcTimestamp.toNat k v), prog := ops }
  | .storeCallback k v =>
    { x with rtcUsercallback := UInt16.ofNat (setByte x.rtcUsercallback.toNat k v), prog := ops }

def step (x : ClockSys) : ClockEv → ClockSys
  | .main =>
    match x.prog with
    | [] => x
    | op :: ops => x.runOp ops op
  | .timer => x.timerISR

def run (x : ClockSys) (evs : List ClockEv) : ClockSys := evs.foldl step x

/-- The preempted code calls `ops`, no byte loaded yet. -/
def enter (x : ClockSys) (ops : List ClockOp) : ClockSys := { x with loaded := [], prog := ops }

/-- `n` timer interrupts in a row. -/
def timers (x : ClockSys) : Nat → ClockSys
  | 0 => x
  | n + 1 => (x.timers n).timerISR

/-- `j` steps of the preempted code in a row. -/
def mains (x : ClockSys) : Nat → ClockSys
  | 0 => x
  | j + 1 => (x.mains j).step .main

variable {x : ClockSys}

@[simp] theorem timerISR_prog : x.timerISR.prog = x.prog := by unfold timerISR; split <;> rfl
@[simp] theorem timerISR_sreg : x.timerISR.sreg = x.sreg := by unfold timerISR; split <;> rfl
@[simp] theorem timerISR_saved : x.timerISR.saved = x.saved := by unfold timerISR; split <;> rfl
@[simp] theorem timerISR_loaded : x.timerISR.loaded = x.loaded := by unfold timerISR; split <;> rfl
@[simp] theorem timerISR_rtcUsercallback : x.timerISR.rtcUsercallback = x.rtcUsercallback := by
  unfold timerISR; split <;> rfl

theorem timerISR_of_sreg (h : x.sreg = false) : x.timerISR = x := by simp [timerISR, h]

theorem runOp_prog (ops : List ClockOp) (op : ClockOp) : (x.runOp ops op).prog = ops := by
  cases op <;> rfl

theorem runOp_sreg (ops : List ClockOp) {op : ClockOp} (h : op.keepsSreg) : (x.runOp ops op).sreg = x.sreg := by
  cases op <;> simp_all [runOp, ClockOp.keepsSreg]

theorem step_main_cons {op : ClockOp} {ops : List ClockOp} (h : x.prog = op :: ops) :
    x.step .main = x.runOp ops op := by
  simp [step, h]

theorem step_main_nil (h : x.prog = []) : x.step .main = x := by simp [step, h]

theorem step_main_prog : (x.step .main).prog = x.prog.tail := by
  cases h : x.prog <;> simp [step, h, runOp_prog]

@[simp] theorem timers_prog (n : Nat) : (x.timers n).prog = x.prog := by induction n <;> simp [timers, *]
@[simp] theorem timers_sreg (n : Nat) : (x.timers n).sreg = x.sreg := by induction n <;> simp [timers, *]
@[simp] theorem timers_loaded (n : Nat) : (x.timers n).loaded = x.loaded := by
  induction n <;> simp [timers, *]
@[simp] theorem timers_rtcUsercallback (n : Nat) : (x.timers n).rtcUsercallback = x.rtcUsercallback := by
  induction n <;> simp [timers, *]

theorem timers_of_sreg (h : x.sreg = false) (n : Nat) : x.timers n = x := by
  induction n with
  | zero => rfl
  | succ n ih => rw [timers, ih, timerISR_of_sreg h]

theorem timers_of_sreg_true (h : x.sreg = true) (n : Nat) :
    (x.timers n).ticks = x.ticks + n ∧
      (x.timers n).rtcTimestamp.toNat = (x.rtcTimestamp.toNat + n) % 2 ^ 32 ∧
      (x.timers n).called = x.called ++ callsOf x.rtcUsercallback n := by
  induction n with
  | zero => exact ⟨rfl, (Nat.mod_eq_of_lt x.rtcTimestamp.toBitVec.isLt).symm, by simp [timers, callsOf]⟩
  | succ n ih =>
    obtain ⟨h₁, h₂, h₃⟩ := ih
    simp only [timers, timerISR, timers_sreg, h, if_true, timers_rtcUsercallback]
    refine ⟨by omega, by rw [uint32_toNat_add_one, h₂, Nat.mod_add_mod, Nat.add_assoc], ?_⟩
    rw [h₃, callsOf_add]
    unfold callsOf; split <;> simp_all

theorem timers_ticked (x : ClockSys) (n : Nat) : ∃ k, (x.timers n).ticks = x.ticks + k ∧
    (x.timers n).rtcTimestamp.toNat = (x.rtcTimestamp.toNat + k) % 2 ^ 32 ∧
    (x.timers n).called = x.called ++ callsOf x.rtcUsercallback k := by
  cases h : x.sreg
  · rw [timers_of_sreg h]
    exact ⟨0, rfl, (Nat.mod_eq_of_lt x.rtcTimestamp.toBitVec.isLt).symm, by simp [callsOf]⟩
  · exact ⟨n, timers_of_sreg_true h n⟩

theorem mains_prog (j : Nat) : (x.mains j).prog = x.prog.drop j := by
  induction j with
  | zero => rfl
  | succ j ih => rw [mains, step_main_prog, ih, List.tail_drop]

theorem mains_add {k : Nat} (h : (x.mains k).prog = []) (d : Nat) : x.mains (k + d) = x.mains k := by
  induction d with
  | zero => rfl
  | succ d ih => rw [← Nat.add_assoc, mains, ih, step_main_nil h]

theorem mains_of_done {k j : Nat} (h : (x.mains k).prog = []) (hj : k ≤ j) : x.mains j = x.mains k := by
  obtain ⟨d, rfl⟩ := Nat.exists_eq_add_of_le hj
  exact mains_add h d

/-! ### Atomic blocks run serially -/

/-- The serial runs from `x`, where `x` is about to run an atomic block: some timer interrupts
(`before`); then part of the block, with interrupts off and the rest of its body and the restore
still to run (`inside`); or the whole of it and more interrupts (`after`). -/
inductive Serial (x : ClockSys) : ClockSys → Prop
  | before (n : Nat) : Serial x (x.timers n)
  | inside (n j : Nat) (ops : List ClockOp) (hk : ∀ op ∈ ops, op.keepsSreg)
      (hs : ((x.timers n).mains j).sreg = false)
      (hp : ((x.timers n).mains j).prog = ops ++ [.restore]) : Serial x ((x.timers n).mains j)
  | after (n j m : Nat) (hp : ((x.timers n).mains j).prog = []) :
      Serial x (((x.timers n).mains j).timers m)

section Serial

variable {body : List ClockOp} {y : ClockSys}

theorem Serial.refl : Serial x x := .before 0

theorem Serial.step (hx : x.prog = atomicBlock body) (hb : ∀ op ∈ body, op.keepsSreg)
    (h : Serial x y) (e : ClockEv) : Serial x (y.step e) := by
  cases h with
  | before n =>
    cases e with
    | timer => exact .before (n + 1)
    | main =>
      have hp : (x.timers n).prog = .cli :: (body ++ [.restore]) := by simp [hx, atomicBlock]
      refine .inside n 1 body hb ?_ ?_ <;> simp [mains, step_main_cons hp, runOp]
  | inside n j ops hk hs hp =>
    cases e with
    | timer =>
      show Serial x ((x.timers n).mains j).timerISR
      rw [timerISR_of_sreg hs]
      exact .inside n j ops hk hs hp
    | main =>
      cases ops with
      | nil => exact .after n (j + 1) 0 (by rw [mains, step_main_cons hp, runOp_prog])
      | cons op ops =>
        have hop := hk op (List.mem_cons_self _ _)
        refine .inside n (j + 1) ops (fun o ho => hk o (List.mem_cons_of_mem _ ho)) ?_ ?_ <;>
          rw [mains, step_main_cons hp]
        · rw [runOp_sreg _ hop, hs]
        · exact runOp_prog _ _
  | after n j m hp =>
    cases e with
    | timer => exact .after n j (m + 1) hp
    | main =>
      rw [step_main_nil (by rw [timers_prog, hp] : (((x.timers n).mains j).timers m).prog = [])]
      exact .after n j m hp

theorem Serial.run (hx : x.prog = atomicBlock body) (hb : ∀ op ∈ body, op.keepsSreg)
    (h : Serial x y) (evs : List ClockEv) : Serial x (y.run evs) := by
  induction evs generalizing y with
  | nil => exact h
  | cons e evs ih => exact ih (h.step hx hb e)

/-- Once the block is done, the run was interrupts, the whole block, interrupts. -/
theorem Serial.done (hx : x.prog = atomicBlock body) (h : Serial x y) (hy : y.prog = []) :
    ∃ n m, y = ((x.timers n).mains (body.length + 2)).timers m := by
  have hlen : (atomicBlock body).length = body.length + 2 := by simp [atomicBlock]
  cases h with
  | before n => simp [hx, atomicBlock] at hy
  | inside n j ops hk hs hp => simp [hp] at hy
  | after n j m hp =>
    rw [mains_prog, timers_prog, hx, List.drop_eq_nil_iff, hlen] at hp
    refine ⟨n, m, congrArg (timers · m) (mains_of_done ?_ hp)⟩
    rw [mains_prog, timers_prog, hx, List.drop_eq_nil_iff, hlen]

end Serial

/-- The contract of `ATOMIC_BLOCK(ATOMIC_RESTORESTATE)`: from a state about to run a block whose
body leaves `SREG` alone, every interleaving with the timer interrupt is a serial run. -/
theorem run_atomicBlock (x : ClockSys) (body : List ClockOp) (hx : x.prog = atomicBlock body)
    (hb : ∀ op ∈ body, op.keepsSreg) (evs : List ClockEv) : Serial x (x.run evs) :=
  Serial.refl.run hx hb evs

theorem run_atomicBlock_query :
    Serial ⟨255, 0, true, false, [], timerQuery, 0, []⟩
      (ClockSys.run ⟨255, 0, true, false, [], timerQuery, 0, []⟩ [.timer, .main, .timer, .main]) :=
  run_atomicBlock _ readStamp rfl (by decide) _

/-! ### Interrupts off -/

theorem readStamp_keepsSreg : ∀ op ∈ readStamp, op.keepsSreg := by decide

theorem mains_sreg (hs : x.sreg = false) (hk : ∀ op ∈ x.prog, op.keepsSreg) (j : Nat) :
    (x.mains j).sreg = false := by
  induction j with
  | zero => exact hs
  | succ j ih =>
    rw [mains]
    cases h : (x.mains j).prog with
    | nil => rw [step_main_nil h, ih]
    | cons op ops =>
      have hop : op ∈ x.prog :=
        List.mem_of_mem_drop (by rw [← mains_prog, h]; exact List.mem_cons_self _ _)
      rw [step_main_cons h, runOp_sreg _ (hk op hop), ih]

/-- While the I flag stays clear the timer interrupt is never taken: a run is the preempted code's
steps alone. -/
theorem run_of_sreg (hs : x.sreg = false) (hk : ∀ op ∈ x.prog, op.keepsSreg) (j : Nat)
    (evs : List ClockEv) : ∃ j', (x.mains j).run evs = x.mains j' := by
  induction evs generalizing j with
  | nil => exact ⟨j, rfl⟩
  | cons e evs ih =>
    cases e with
    | main => exact ih (j + 1)
    | timer =>
      show ∃ j', ((x.mains j).timerISR).run evs = _
      rw [timerISR_of_sreg (mains_sreg hs hk j)]
      exact ih j

/-- `Timer_Query_ISR()` with interrupts off, as inside an ISR or an atomic block: once it has
returned it has loaded the timestamp exactly, and nothing else has changed. -/
theorem timer_query_isr_exact (x : ClockSys) (evs : List ClockEv) (hs : x.sreg = false)
    {y : ClockSys} (hy : (x.enter timerQueryISR).run evs = y) (hd : y.prog = []) :
    y = { x with
          loaded := [byteOf x.rtcTimestamp.toNat 0, byteOf x.rtcTimestamp.toNat 1,
            byteOf x.rtcTimestamp.toNat 2, byteOf x.rtcTimestamp.toNat 3]
          prog := [] } ∧
      ofBytes y.loaded = x.rtcTimestamp.toNat := by
  obtain ⟨j, hj⟩ : ∃ j, (x.enter timerQueryISR).run evs = (x.enter timerQueryISR).mains j :=
    run_of_sreg (x := x.enter timerQueryISR) hs readStamp_keepsSreg 0 evs
  have h4 : ((x.enter timerQueryISR).mains 4).prog = [] := rfl
  rw [← hy, hj, mains_of_done h4 (by
    rw [← hy, hj, mains_prog] at hd
    simpa [enter, timerQueryISR, readStamp] using hd)]
  refine ⟨by simp [mains, step, runOp, enter, timerQueryISR, readStamp], ?_⟩
  simp only [mains, step, runOp, enter, timerQueryISR, readStamp, List.nil_append, List.cons_append]
  exact ofBytes_byteOf x.rtcTimestamp

/-- `Timer_Query_ISR()` with interrupts on, as `DoUpdate_ISR` calls it inside its
`NONATOMIC_BLOCK`s, is what the block prevents: at `0xff`, a tick between the loads of bytes 0 and
1 makes it return `0x1ff`, a value the clock held neither before the tick nor after it. -/
theorem timer_query_isr_torn :
    ((ClockSys.enter ⟨0xff, 0, true, false, [], [], 0, []⟩ timerQueryISR).run
        [.main, .timer, .main, .main, .main]).rtcTimestamp = 0x100 ∧
      ofBytes ((ClockSys.enter ⟨0xff, 0, true, false, [], [], 0, []⟩ timerQueryISR).run
        [.main, .timer, .main, .main, .main]).loaded = 0x1ff := by
  decide

/-! ### The clock functions -/

theorem mains_timerQuery (h : x.prog = timerQuery) :
    x.mains 6 =
      { x with
        saved := x.sreg
        prog := []
        loaded := x.loaded ++ [byteOf x.rtcTimestamp.toNat 0, byteOf x.rtcTimestamp.toNat 1,
          byteOf x.rtcTimestamp.toNat 2, byteOf x.rtcTimestamp.toNat 3] } := by
  simp [mains, step, runOp, h, timerQuery, atomicBlock, readStamp]

theorem mains_timerReset (h : x.prog = timerReset) :
    x.mains 6 = { x with saved := x.sreg, prog := [], rtcTimestamp := 0 } := by
  simp [mains, step, runOp, h, timerReset, atomicBlock, clearStamp, setByte_zero_uint32]

theorem mains_timerRegisterCallback {cb : UInt16} (h : x.prog = timerRegisterCallback cb) :
    x.mains 4 = { x with saved := x.sreg, prog := [], rtcUsercallback := cb } := by
  simp [mains, step, runOp, h, timerRegisterCallback, atomicBlock, writeCallback,
    setByte_byteOf_uint16]

/-- `Timer_Query()`: whatever timer interrupts come while it runs, once it has returned `SREG` is
as it was, and the value it loaded is the timestamp after the first `k₁` of the `k₁ + k₂` ticks
taken during the call. -/
theorem timer_query_holds (x : ClockSys) (evs : List ClockEv) {y : ClockSys}
    (hy : (x.enter timerQuery).run evs = y) (hd : y.prog = []) :
    y.sreg = x.sreg ∧ ∃ k₁ k₂, y.ticks = x.ticks + (k₁ + k₂) ∧
      y.rtcTimestamp.toNat = (x.rtcTimestamp.toNat + (k₁ + k₂)) % 2 ^ 32 ∧
      y.called = x.called ++ callsOf x.rtcUsercallback (k₁ + k₂) ∧
      ofBytes y.loaded = (x.rtcTimestamp.toNat + k₁) % 2 ^ 32 := by
  subst hy
  obtain ⟨n, m, he⟩ := (Serial.refl.run (rfl : (x.enter timerQuery).prog = atomicBlock readStamp)
    readStamp_keepsSreg evs).done rfl hd
  rw [he, show readStamp.length + 2 = 6 from rfl]
  have hp : ((x.enter timerQuery).timers n).prog = timerQuery := by simp [enter]
  obtain ⟨k₁, t₁, s₁, c₁⟩ := timers_ticked (x.enter timerQuery) n
  obtain ⟨k₂, t₂, s₂, c₂⟩ := timers_ticked (((x.enter timerQuery).timers n).mains 6) m
  rw [mains_timerQuery hp] at t₂ s₂ c₂ ⊢
  refine ⟨by simp [enter], k₁, k₂, by rw [t₂, t₁]; simp [enter]; omega, ?_, ?_, ?_⟩
  · rw [s₂]; dsimp only; rw [s₁, Nat.mod_add_mod, Nat.add_assoc]; rfl
  · rw [c₂]; dsimp only; rw [c₁, timers_rtcUsercallback, callsOf_add, List.append_assoc]; rfl
  · rw [timers_loaded, timers_loaded, show (x.enter timerQuery).loaded = [] from rfl, List.nil_append,
      ofBytes_byteOf, s₁]
    rfl

theorem timer_query_holds_one_tick :
    ofBytes ((ClockSys.enter ⟨0xff, 0, true, false, [], [], 0, []⟩ timerQuery).run
      [.main, .main, .timer, .main, .main, .main, .main, .timer]).loaded ∈ [0xff, 0x100] := by
  obtain ⟨-, k₁, k₂, ht, -, -, hv⟩ := timer_query_holds ⟨0xff, 0, true, false, [], [], 0, []⟩
    [.main, .main, .timer, .main, .main, .main, .main, .timer] rfl rfl
  have h1 := ht.symm.trans (rfl : _ = 1)
  have h255 : (0xff : UInt32).toNat = 0xff := rfl
  dsimp only at h1 hv
  rw [hv, h255]
  simp only [List.mem_cons, List.mem_singleton, List.not_mem_nil, or_false]
  omega

/-- `Timer_Reset()`: once it has returned, `SREG` is as it was and the timestamp counts the `k₂`
ticks taken after the reset, of the `k₁ + k₂` taken during the call. -/
theorem timer_reset_restarts (x : ClockSys) (evs : List ClockEv) {y : ClockSys}
    (hy : (x.enter timerReset).run evs = y) (hd : y.prog = []) :
    y.sreg = x.sreg ∧ ∃ k₁ k₂, y.ticks = x.ticks + (k₁ + k₂) ∧ y.rtcTimestamp.toNat = k₂ % 2 ^ 32 ∧
      y.called = x.called ++ callsOf x.rtcUsercallback (k₁ + k₂) := by
  subst hy
  obtain ⟨n, m, he⟩ := (Serial.refl.run (rfl : (x.enter timerReset).prog = atomicBlock clearStamp)
    (by decide) evs).done rfl hd
  rw [he, show clearStamp.length + 2 = 6 from rfl]
  have hp : ((x.enter timerReset).timers n).prog = timerReset := by simp [enter]
  obtain ⟨k₁, t₁, -, c₁⟩ := timers_ticked (x.enter timerReset) n
  obtain ⟨k₂, t₂, s₂, c₂⟩ := timers_ticked (((x.enter timerReset).timers n).mains 6) m
  rw [mains_timerReset hp] at t₂ s₂ c₂ ⊢
  refine ⟨by simp [enter], k₁, k₂, by rw [t₂, t₁]; simp [enter]; omega, ?_, ?_⟩
  · rw [s₂]; dsimp only; rw [UInt32.toNat_zero, Nat.zero_add]
  · rw [c₂]; dsimp only; rw [c₁, timers_rtcUsercallback, callsOf_add, List.append_assoc]; rfl

theorem timer_reset_restarts_three_ticks :
    ((ClockSys.enter ⟨0x12345678, 0, true, false, [], [], 0, []⟩ timerReset).run
      [.timer, .main, .timer, .main, .main, .main, .main, .main, .timer, .timer]).rtcTimestamp.toNat ≤ 3 := by
  obtain ⟨-, k₁, k₂, ht, hs, -⟩ := timer_reset_restarts ⟨0x12345678, 0, true, false, [], [], 0, []⟩
    [.timer, .main, .timer, .main, .main, .main, .main, .main, .timer, .timer] rfl rfl
  have h3 := ht.symm.trans (rfl : _ = 3)
  dsimp only at h3
  rw [hs]
  omega

/-- `Timer_RegisterCallback(callback)`: once it has returned, `SREG` is as it was, the callback is
`callback`, and every timer interrupt of the call called the old callback or the new one, never a
pointer made of one byte of each: the first `k₁` the old, the last `k₂` the new. -/
theorem timer_register_callback_whole (x : ClockSys) (callback : UInt16) (evs : List ClockEv)
    {y : ClockSys} (hy : (x.enter (timerRegisterCallback callback)).run evs = y) (hd : y.prog = []) :
    y.sreg = x.sreg ∧ y.rtcUsercallback = callback ∧ ∃ k₁ k₂, y.ticks = x.ticks + (k₁ + k₂) ∧
      y.rtcTimestamp.toNat = (x.rtcTimestamp.toNat + (k₁ + k₂)) % 2 ^ 32 ∧
      y.called = x.called ++ callsOf x.rtcUsercallback k₁ ++ callsOf callback k₂ := by
  subst hy
  obtain ⟨n, m, he⟩ := (Serial.refl.run
    (rfl : (x.enter (timerRegisterCallback callback)).prog = atomicBlock (writeCallback callback))
    (by simp [writeCallback, ClockOp.keepsSreg]) evs).done rfl hd
  rw [he, show (writeCallback callback).length + 2 = 4 from rfl]
  have hp : ((x.enter (timerRegisterCallback callback)).timers n).prog = timerRegisterCallback callback := by
    simp [enter]
  obtain ⟨k₁, t₁, s₁, c₁⟩ := timers_ticked (x.enter (timerRegisterCallback callback)) n
  obtain ⟨k₂, t₂, s₂, c₂⟩ := timers_ticked (((x.enter (timerRegisterCallback callback)).timers n).mains 4) m
  rw [mains_timerRegisterCallback hp] at t₂ s₂ c₂ ⊢
  refine ⟨by simp [enter], by simp, k₁, k₂, by rw [t₂, t₁]; simp [enter]; omega, ?_, ?_⟩
  · rw [s₂]; dsimp only; rw [s₁, Nat.mod_add_mod, Nat.add_assoc]; rfl
  · rw [c₂]; dsimp only; rw [c₁]; rfl

theorem timer_register_callback_whole_from_null :
    ((ClockSys.enter ⟨0, 0, true, false, [], [], 0, []⟩ (timerRegisterCallback 0x1234)).run
      [.timer, .main, .timer, .main, .main, .main, .timer]).called ⊆ [0x1234] := by
  obtain ⟨-, -, k₁, k₂, -, -, hc⟩ := timer_register_callback_whole ⟨0, 0, true, false, [], [], 0, []⟩
    0x1234 [.timer, .main, .timer, .main, .main, .main, .timer] rfl rfl
  rw [hc]
  simp [callsOf, List.replicate_subset_singleton]

end ClockSys

end NeurAvr
