import NeurAvr.App.Registry
import NeurAvr.Timer
import Mathlib.Data.List.Count
import Mathlib.Algebra.Group.Nat.Basic

/-!
# Nested timer ticks (`NeurApp_Base::DoUpdate_ISR`)

The timer interrupt calls `DoUpdate_ISR` with interrupts off. It has two sections, each guarded by
a flag. If `in_isr` is set the tick section is skipped and counted in `skipped_ticks_short_total`;
otherwise the flag is set, the `HandleTick_ISR` loop and `UserUpdateTimer_ISR` run inside a
`NONATOMIC_BLOCK` (interrupts on), and the flag is cleared. Then the same with
`long_tasks_running`, `HandlePollHighPriority_ISR`, `UserPollHighPriority_ISR` and
`skipped_ticks_long_total`. `TickState.doUpdateISR` is one activation run to its end.

A tick can nest only inside a section, where interrupts are on; the code between the sections runs
with interrupts off. `TickSys` is the interrupt context as a stack of activations, each suspended
in a section, the running one first. A run is any sequence of ticks, section ends and the two
stores of `ReInitState` (`skipped_ticks_short_total = 0`, then `skipped_ticks_long_total = 0`),
which the main loop makes one at a time, only while no activation is active, with the timer
running. `run_activation` says an activation in which nothing nests is `doUpdateISR`. `TickInv`
is the invariant of every run: a flag is set exactly while one activation is inside its section,
and each skipped total accounts, modulo `2 ^ 32`, for every activation since its own store.
-/

namespace NeurAvr

/-- The members of `NeurApp_Base` that `DoUpdate_ISR` writes: the reentrancy flags and the
skipped-tick totals (`NEURAPP_DEBUG_AVAILABLE` is 1). -/
structure TickState where
  inIsr : Bool
  longTasksRunning : Bool
  skippedTicksShortTotal : UInt32
  skippedTicksLongTotal : UInt32
deriving Repr, DecidableEq

/-- A section's body: the hook loop over a non-NULL `event_lut`, then the user hook. -/
def sectionBody (k : Hook) (u : UserHook) (lut : Option (List HandlerRow)) : List Call :=
  (lut.map (distinctLoop (fun h => [.hook k h]) none)).getD [] ++ [.user u]

/-- The tick section: `HandleTick_ISR` on each handler, then `UserUpdateTimer_ISR()`. -/
def tickSection (lut : Option (List HandlerRow)) : List Call :=
  sectionBody .handleTick .updateTimer lut

/-- The high-priority section: `HandlePollHighPriority_ISR` on each handler, then
`UserPollHighPriority_ISR()`. -/
def highSection (lut : Option (List HandlerRow)) : List Call :=
  sectionBody .handlePollHighPriority .pollHighPriority lut

namespace TickState

/-- `DoUpdate_ISR()` run to its end with no tick nested in it: the state afterwards and its
calls. -/
def doUpdateISR (s : TickState) (lut : Option (List HandlerRow)) : TickState × List Call :=
  let (s, tickCalls) :=
    if s.inIsr then ({ s with skippedTicksShortTotal := s.skippedTicksShortTotal + 1 }, [])
    else ({ s with inIsr := false }, tickSection lut)
  let (s, highCalls) :=
    if s.longTasksRunning then ({ s with skippedTicksLongTotal := s.skippedTicksLongTotal + 1 }, [])
    else ({ s with longTasksRunning := false }, highSection lut)
  (s, tickCalls ++ highCalls)

/-- `skipped_ticks_short_total = 0;` in `ReInitState()`. -/
def storeShortTotal (s : TickState) : TickState := { s with skippedTicksShortTotal := 0 }

/-- `skipped_ticks_long_total = 0;` in `ReInitState()`. -/
def storeLongTotal (s : TickState) : TickState := { s with skippedTicksLongTotal := 0 }

/-- The tick statistics part of `ReInitState()`: its two stores, one after the other. -/
def reInitState (s : TickState) : TickState := s.storeShortTotal.storeLongTotal

end TickState

/-! ### Nesting -/

/-- Where an active `DoUpdate_ISR` can be interrupted: inside its tick section or inside its
high-priority section. -/
inductive Section
  | tick
  | high
deriving Repr, DecidableEq

/-- The interrupt context: the tick state and the active activations (the running one first), each
in its section. The counts are ghost state: since the store of `skipped_ticks_short_total`, the
activations (`startedShort`) and those that entered the tick section (`ranTick`); since the store
of `skipped_ticks_long_total`, the activations (`startedLong`) and those that entered the
high-priority section (`ranHigh`). -/
structure TickSys where
  st : TickState
  stack : List Section
  startedShort : Nat
  ranTick : Nat
  startedLong : Nat
  ranHigh : Nat
deriving Repr, DecidableEq

/-- A timer interrupt, the end of the running activation's section body, or one of the two stores
of `ReInitState()`. -/
inductive TickEv
  | tick
  | finish
  | storeShortTotal
  | storeLongTotal
deriving Repr, DecidableEq

namespace TickSys

/-- After the tick section of an activation, or its skip, with interrupts off: count a skip if
`long_tasks_running`, otherwise set it and enter the high-priority section. `rest` is the stack
below the activation. -/
def longCheck (s : TickSys) (rest : List Section) : TickSys :=
  if s.st.longTasksRunning then
    { s with st := { s.st with skippedTicksLongTotal := s.st.skippedTicksLongTotal + 1 }
             stack := rest }
  else
    { s with st := { s.st with longTasksRunning := true }, stack := .high :: rest
             ranHigh := s.ranHigh + 1 }

/-- A timer interrupt: a new activation runs until it enters a section or ends. -/
def tick (s : TickSys) : TickSys :=
  if s.st.inIsr then
    longCheck { s with st := { s.st with skippedTicksShortTotal := s.st.skippedTicksShortTotal + 1 }
                       startedShort := s.startedShort + 1, startedLong := s.startedLong + 1 }
      s.stack
  else
    { s with st := { s.st with inIsr := true }, stack := .tick :: s.stack
             startedShort := s.startedShort + 1, ranTick := s.ranTick + 1
             startedLong := s.startedLong + 1 }

/-- The running activation's section body returns: its flag is cleared and the activation goes on,
with interrupts off, to its next section or its end. -/
def finish (s : TickSys) : TickSys :=
  match s.stack with
  | [] => s
  | .tick :: rest => longCheck { s with st := { s.st with inIsr := false } } rest
  | .high :: rest => { s with st := { s.st with longTasksRunning := false }, stack := rest }

/-- `skipped_ticks_short_total = 0;` of `ReInitState()`, from the main loop, which runs only while
no activation is active. The timer keeps running, so ticks can come before the next store. The
short counts start again here. -/
def storeShortTotal (s : TickSys) : TickSys :=
  if s.stack = [] then { s with st := s.st.storeShortTotal, startedShort := 0, ranTick := 0 }
  else s

/-- `skipped_ticks_long_total = 0;` of `ReInitState()`, likewise. The long counts start again
here. -/
def storeLongTotal (s : TickSys) : TickSys :=
  if s.stack = [] then { s with st := s.st.storeLongTotal, startedLong := 0, ranHigh := 0 }
  else s

def step (s : TickSys) : TickEv → TickSys
  | .tick => s.tick
  | .finish => s.finish
  | .storeShortTotal => s.storeShortTotal
  | .storeLongTotal => s.storeLongTotal

def run (s : TickSys) (evs : List TickEv) : TickSys := evs.foldl step s

@[simp] theorem run_nil (s : TickSys) : s.run [] = s := rfl

@[simp] theorem run_cons (s : TickSys) (e : TickEv) (evs : List TickEv) :
    s.run (e :: evs) = (s.step e).run evs := rfl

/-- After `DoInitialSetup()`: both flags clear, the totals zero, no activation. -/
def init : TickSys := ⟨⟨false, false, 0, 0⟩, [], 0, 0, 0, 0⟩

/-! ### The invariant -/

theorem toNat_add_one_of_mod {a : UInt32} {n m : Nat} (h : a.toNat = n % 2 ^ 32) (hm : m = n + 1) :
    (a + 1).toNat = m % 2 ^ 32 := by
  rw [uint32_toNat_add_one, h, Nat.mod_add_mod, hm]

theorem count_tick_cons_high (l : List Section) : (Section.high :: l).count .tick = l.count .tick :=
  List.count_cons_of_ne (by decide) l

theorem count_high_cons_tick (l : List Section) : (Section.tick :: l).count .high = l.count .high :=
  List.count_cons_of_ne (by decide) l

/-- The invariant of the interrupt context: each flag is set exactly while one activation is in
its section, and each skipped total holds, modulo `2 ^ 32`, the activations since its store that
did not enter the section; for the high-priority section, those still in their tick section
apart. -/
structure TickInv (s : TickSys) : Prop where
  tick_count : s.stack.count .tick = s.st.inIsr.toNat
  high_count : s.stack.count .high = s.st.longTasksRunning.toNat
  ranTick_le : s.ranTick ≤ s.startedShort
  short_total : s.st.skippedTicksShortTotal.toNat = (s.startedShort - s.ranTick) % 2 ^ 32
  ranHigh_le : s.ranHigh + s.stack.count .tick ≤ s.startedLong
  long_total :
    s.st.skippedTicksLongTotal.toNat = (s.startedLong - s.ranHigh - s.stack.count .tick) % 2 ^ 32

theorem TickInv.init : TickInv init := ⟨rfl, rfl, le_refl _, rfl, le_refl _, rfl⟩

theorem TickInv.tick {s : TickSys} (h : TickInv s) : TickInv s.tick := by
  obtain ⟨h1, h2, h3, h4, h5, h6⟩ := h
  unfold TickSys.tick
  cases hi : s.st.inIsr
  case false =>
    -- the tick section is entered
    rw [hi, Bool.toNat_false] at h1
    rw [if_neg (by simp)]
    refine ⟨by simp [h1], by simpa using h2, Nat.add_le_add_right h3 1,
      h4.trans (by rw [Nat.add_sub_add_right]), ?_, h6.trans (congrArg (· % 2 ^ 32) ?_)⟩ <;>
      simp only [List.count_cons_self] <;> omega
  case true =>
    rw [if_pos rfl]
    unfold longCheck
    cases hl : s.st.longTasksRunning
    case true =>
      -- both sections are skipped
      rw [if_pos rfl]
      exact ⟨h1.trans (by rw [hi]), h2, Nat.le_succ_of_le h3,
        toNat_add_one_of_mod h4 (by dsimp only; omega), by dsimp only; omega,
        toNat_add_one_of_mod h6 (by dsimp only; omega)⟩
    case false =>
      -- the tick section is skipped and the high-priority one entered
      rw [hl, Bool.toNat_false] at h2
      rw [if_neg Bool.false_ne_true]
      refine ⟨by simpa [hi] using h1, by simp [h2], Nat.le_succ_of_le h3,
        toNat_add_one_of_mod h4 (by dsimp only; omega), ?_, h6.trans (congrArg (· % 2 ^ 32) ?_)⟩ <;>
        simp only [count_tick_cons_high] <;> omega

theorem TickInv.finish {s : TickSys} (h : TickInv s) : TickInv s.finish := by
  obtain ⟨h1, h2, h3, h4, h5, h6⟩ := h
  have hb₁ := Bool.toNat_le s.st.inIsr
  have hb₂ := Bool.toNat_le s.st.longTasksRunning
  unfold TickSys.finish
  split
  next => exact ⟨h1, h2, h3, h4, h5, h6⟩
  next rest hs =>
    rw [hs, List.count_cons_self] at h1 h5 h6
    rw [hs, count_high_cons_tick] at h2
    unfold longCheck
    cases hl : s.st.longTasksRunning
    case true =>
      -- the tick section ends and the high-priority one is skipped
      rw [if_pos rfl]
      refine ⟨?_, h2, h3, h4, by dsimp only; omega, toNat_add_one_of_mod h6 (by dsimp only; omega)⟩
      dsimp only; rw [Bool.toNat_false]; omega
    case false =>
      -- the tick section ends and the high-priority one is entered
      rw [hl, Bool.toNat_false] at h2
      rw [if_neg Bool.false_ne_true]
      refine ⟨?_, ?_, h3, h4, ?_, h6.trans (congrArg (· % 2 ^ 32) ?_)⟩ <;>
        simp only [List.count_cons_self, count_tick_cons_high, Bool.toNat_false, Bool.toNat_true] <;>
        omega
  next rest hs =>
    -- the high-priority section ends
    rw [hs, count_tick_cons_high] at h1 h5 h6
    rw [hs, List.count_cons_self] at h2
    refine ⟨h1, ?_, h3, h4, h5, h6⟩
    dsimp only; rw [Bool.toNat_false]; omega

theorem TickInv.storeShortTotal {s : TickSys} (h : TickInv s) : TickInv s.storeShortTotal := by
  unfold TickSys.storeShortTotal
  split
  case isTrue hs => exact ⟨h.1, h.2, le_refl _, rfl, h.5, h.6⟩
  case isFalse => exact h

theorem TickInv.storeLongTotal {s : TickSys} (h : TickInv s) : TickInv s.storeLongTotal := by
  unfold TickSys.storeLongTotal
  split
  case isTrue hs => exact ⟨h.1, h.2, h.3, h.4, by simp [hs], by simp [hs, TickState.storeLongTotal]⟩
  case isFalse => exact h

theorem TickInv.step {s : TickSys} (h : TickInv s) : (e : TickEv) → TickInv (s.step e)
  | .tick => h.tick
  | .finish => h.finish
  | .storeShortTotal => h.storeShortTotal
  | .storeLongTotal => h.storeLongTotal

theorem TickInv.run {s : TickSys} (h : TickInv s) (evs : List TickEv) : TickInv (s.run evs) := by
  induction evs generalizing s with
  | nil => exact h
  | cons e evs ih => exact ih (h.step e)

/-- An activation in which nothing nests is `DoUpdate_ISR` run to its end: the tick, then the end
of each section it enters, leave the state `doUpdateISR` leaves and the stack as it was. -/
theorem run_activation (s : TickSys) (lut : Option (List HandlerRow)) :
    let k := (if s.st.inIsr then 0 else 1) + (if s.st.longTasksRunning then 0 else 1)
    (s.run (.tick :: List.replicate k .finish)).st = (s.st.doUpdateISR lut).1 ∧
      (s.run (.tick :: List.replicate k .finish)).stack = s.stack := by
  cases hi : s.st.inIsr <;> cases hl : s.st.longTasksRunning <;>
    simp [step, tick, finish, longCheck, TickState.doUpdateISR, hi, hl]

end TickSys

open TickSys

/-- From any state reached with an activation running its tick section and no high-priority
section running, the next tick skips the tick section and starts the high-priority one above the
suspended tick section, with `in_isr` set; a tick during that section enters neither section. -/
theorem tick_starts_high_inside_tick (evs : List TickEv)
    (htop : (TickSys.init.run evs).stack.head? = some .tick)
    (hl : (TickSys.init.run evs).st.longTasksRunning = false) :
    let s := (TickSys.init.run evs).step .tick
    s.stack = .high :: (TickSys.init.run evs).stack ∧ s.st.inIsr = true ∧
      (s.step .tick).stack = s.stack ∧ (s.step .tick).ranTick = s.ranTick ∧
      (s.step .tick).ranHigh = s.ranHigh := by
  intro s
  obtain ⟨rest, hs⟩ : ∃ rest, (TickSys.init.run evs).stack = .tick :: rest := by
    cases h : (TickSys.init.run evs).stack with
    | nil => simp [h] at htop
    | cons a rest =>
      simp only [h, List.head?_cons, Option.some.injEq] at htop
      exact ⟨rest, htop ▸ rfl⟩
  have hi : (TickSys.init.run evs).st.inIsr = true := by
    have h1 := (TickInv.init.run evs).tick_count
    rw [hs, List.count_cons_self] at h1
    cases hb : (TickSys.init.run evs).st.inIsr <;> simp_all
  simp [s, step, tick, longCheck, hi, hl]

/-- The nested tick of `tick_starts_high_inside_tick`, right after `DoInitialSetup`. -/
theorem tick_starts_high_inside_tick_first :
    ((TickSys.init.run [.tick]).stack.head? = some .tick ∧
      (TickSys.init.run [.tick]).st.longTasksRunning = false) ∧
    (let s := (TickSys.init.run [.tick]).step .tick;
      s.stack = .high :: (TickSys.init.run [.tick]).stack ∧ s.st.inIsr = true ∧
        (s.step .tick).stack = s.stack ∧ (s.step .tick).ranTick = s.ranTick ∧
        (s.step .tick).ranHigh = s.ranHigh) :=
  ⟨⟨by decide, by decide⟩, tick_starts_high_inside_tick [.tick] (by decide) (by decide)⟩

end NeurAvr
