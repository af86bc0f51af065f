import Mathlib.Logic.Function.Basic
import Mathlib.Data.List.Range
import Mathlib.Algebra.Group.Nat.Basic

/-!
# The analog conversion scheduler (`neuravr-adc.cpp`)

The round-robin sequencer over `ADC_CHANNEL_COUNT` channels: per channel the flags
`ADC_needs_conversion` and `ADC_data_ready` and the sample `ADC_data`, and the global `ADC_idle`.
`ADC_StartConversion` marks the requested channels and starts the lowest one;
`ADC_HousekeepingPoll`, run from the timer interrupt, collects a finished conversion into the
lowest channel still marked and starts the next; `ADC_ReadPendingSample` hands the samples out in
channel order.

The hardware (`neur-m328p-adc.cpp`) is the channel in `ADMUX`, the start flag of `ADCSRA`, which
reads as busy while a conversion runs, and the result register. None of the main-loop functions
takes an atomic section, so the timer interrupt can run between any two of their statements.
`startConversionHead` is `ADC_StartConversion` up to the statement `ADC_idle = false`; the rest is
the call `ADC_ReadFromChannel(first_channel)`.
-/

namespace NeurAvr

/-- The converter registers the driver uses: the channel selected in `ADMUX`, the start flag of
`ADCSRA` (set while a conversion is in progress) and the result `ADCH:ADCL`. -/
structure AdcHw where
  admux : Nat
  busy : Bool
  result : UInt16
deriving Repr, DecidableEq

/-- The scheduler's globals. The arrays are indexed by channel. -/
structure AdcState where
  idle : Bool
  needsConversion : Nat → Bool
  dataReady : Nat → Bool
  data : Nat → UInt16

namespace AdcHw

/-- The registers after `ADC_Init()`: channel 0 selected, converter enabled and not started. -/
def init : AdcHw := ⟨0, false, 0⟩

/-- `ADC_IsADCBusy()`: the start flag stays set while the conversion runs. -/
def isADCBusy (hw : AdcHw) : Bool := hw.busy

/-- `ADC_GetConversionResult()`. -/
def getConversionResult (hw : AdcHw) : UInt16 := hw.result

/-- `ADC_ReadFromChannel(channel_id)`: select the channel and set the start flag; channels past
`ADC_CHANNEL_COUNT` are ignored. -/
def readFromChannel (n c : Nat) (hw : AdcHw) : AdcHw :=
  if c < n then { hw with admux := c, busy := true } else hw

/-- The converter finishes the conversion in progress with the value `v` for the selected
channel. -/
def complete (v : UInt16) (hw : AdcHw) : AdcHw :=
  if hw.busy then { hw with busy := false, result := v } else hw

end AdcHw

namespace AdcState

/-- The globals at power-on: `ADC_idle = true`, the arrays zero. -/
def powerOn : AdcState := ⟨true, fun _ => false, fun _ => false, fun _ => 0⟩

variable (n : Nat)

/-- The body of the loop of `ADC_ReInitBuffer()` for channel `c`. -/
def clearChannel (s : AdcState) (c : Nat) : AdcState :=
  { idle := true
    needsConversion := Function.update s.needsConversion c false
    dataReady := Function.update s.dataReady c false
    data := Function.update s.data c 0 }

/-- `ADC_ReInitBuffer()`: clear every channel; `ADC_idle = true` is set inside the loop. -/
def reInitBuffer (s : AdcState) : AdcState := (List.range n).foldl clearChannel s

/-- The channel loop of `ADC_HousekeepingPoll` on (state, `count`, `next_channel`): the first
channel still marked is completed with the converter's result, the second is remembered. -/
def pollScan (hw : AdcHw) (acc : AdcState × Nat × Nat) (c : Nat) : AdcState × Nat × Nat :=
  let (s, count, next) := acc
  if s.needsConversion c then
    if count + 1 == 1 then
      ({ s with needsConversion := Function.update s.needsConversion c false
                dataReady := Function.update s.dataReady c true
                data := Function.update s.data c hw.getConversionResult }, count + 1, next)
    else if count + 1 == 2 then (s, count + 1, c)
    else (s, count + 1, next)
  else (s, count, next)

/-- `ADC_HousekeepingPoll()`: if a conversion was requested and the converter is done, collect it
and start the next channel, or return to idle after the last one. -/
def housekeepingPoll (s : AdcState) (hw : AdcHw) : AdcState × AdcHw :=
  if !s.idle && !hw.isADCBusy then
    let (s', count, next) := (List.range n).foldl (pollScan hw) (s, 0, 0)
    if 1 ≥ count then ({ s' with idle := true }, hw) else (s', hw.readFromChannel n next)
  else (s, hw)

/-- The channel loop of `ADC_StartConversion` on (state, `need_first`, `first_channel`). -/
def startScan (mask : UInt8) (acc : AdcState × Bool × Nat) (c : Nat) : AdcState × Bool × Nat :=
  let (s, needFirst, first) := acc
  if mask.toNat.testBit c then
    ({ s with needsConversion := Function.update s.needsConversion c true },
      false, if needFirst then c else first)
  else (s, needFirst, first)

/-- `ADC_StartConversion(channel_mask)` up to and including `ADC_idle = false`, with the channel
that the remaining statement `ADC_ReadFromChannel(first_channel)` starts. An ignored request, or
one with no channel, starts nothing. -/
def startConversionHead (mask : UInt8) (s : AdcState) : AdcState × Option Nat :=
  if s.idle then
    let (s', needFirst, first) := (List.range n).foldl (startScan mask) (reInitBuffer n s, true, 0)
    if !needFirst then ({ s' with idle := false }, some first) else (s', none)
  else (s, none)

/-- `ADC_StartConversion(channel_mask)` run without interruption. -/
def startConversion (mask : UInt8) (s : AdcState) (hw : AdcHw) : AdcState × AdcHw :=
  match startConversionHead n mask s with
  | (s', some c) => (s', hw.readFromChannel n c)
  | (s', none) => (s', hw)

/-- `ADC_StartConversion(channel_mask)` with the timer interrupt taken between `ADC_idle = false`
and `ADC_ReadFromChannel(first_channel)`. -/
def startConversionPolled (mask : UInt8) (s : AdcState) (hw : AdcHw) : AdcState × AdcHw :=
  match startConversionHead n mask s with
  | (s', some c) =>
    let r := housekeepingPoll n s' hw
    (r.1, r.2.readFromChannel n c)
  | (s', none) => housekeepingPoll n s' hw

/-- `ADC_IsDataReady()`. -/
def isDataReady (s : AdcState) : Bool :=
  s.idle && (List.range n).any s.dataReady

/-- The channel loop of `ADC_ReadPendingSample` on (state, `found`, the outputs). -/
def readScan (acc : AdcState × Bool × UInt16 × Nat) (c : Nat) : AdcState × Bool × UInt16 × Nat :=
  let (s, found, d, ch) := acc
  if !found && s.dataReady c then
    ({ s with dataReady := Function.update s.dataReady c false }, true, s.data c, c)
  else (s, found, d, ch)

/-- `ADC_ReadPendingSample(data, channel_id)`: the new state, whether a sample was found, and the
output arguments (left as the caller passed them when nothing is found). -/
def readPendingSample (s : AdcState) (data : UInt16) (channelId : Nat) :
    AdcState × Bool × UInt16 × Nat :=
  if s.idle then
    let (s', found, d, ch) := (List.range n).foldl readScan (s, false, data, channelId)
    (s', found, d, ch)
  else (s, false, data, channelId)

theorem housekeepingPoll_of_idle {s : AdcState} (hs : s.idle = true) (hw : AdcHw) :
    housekeepingPoll n s hw = (s, hw) := by
  simp [housekeepingPoll, hs]

/-! ### A request for one channel -/

theorem reInitBuffer_needsConversion (s : AdcState) (k j : Nat) :
    ((List.range k).foldl clearChannel s).needsConversion j =
      if j < k then false else s.needsConversion j := by
  induction k with
  | zero => simp
  | succ k ih =>
    rw [List.range_succ, List.foldl_append, List.foldl_cons, List.foldl_nil, clearChannel]
    by_cases hj : j = k
    · subst hj; simp
    · have hjk : j < k + 1 ↔ j < k := by omega
      simp only [Function.update_noteq hj, ih, hjk]

theorem reInitBuffer_idle (s : AdcState) {k : Nat} (hk : 0 < k) :
    ((List.range k).foldl clearChannel s).idle = true := by
  obtain ⟨k, rfl⟩ : ∃ m, k = m + 1 := ⟨k - 1, by omega⟩
  rw [List.range_succ, List.foldl_append, List.foldl_cons, List.foldl_nil]
  rfl

theorem startScan_single {mask : UInt8} {c : Nat} (hmask : mask.toNat = 2 ^ c) (s : AdcState)
    (k : Nat) : (List.range k).foldl (startScan mask) (s, true, 0) =
      if c < k then ({ s with needsConversion := Function.update s.needsConversion c true }, false, c)
      else (s, true, 0) := by
  induction k with
  | zero => simp
  | succ k ih =>
    rw [List.range_succ, List.foldl_append, List.foldl_cons, List.foldl_nil, ih]
    rcases Nat.lt_trichotomy c k with h | rfl | h
    · simp [startScan, hmask, Nat.testBit_two_pow, h, h.ne, Nat.lt_succ_of_lt h]
    · simp [startScan, hmask, Nat.testBit_two_pow]
    · simp [startScan, hmask, Nat.testBit_two_pow, h.ne', Nat.not_lt.2 h.le,
        Nat.not_lt.2 (Nat.succ_le_of_lt h)]

theorem pollScan_single (hw : AdcHw) {c : Nat} {s : AdcState}
    (hs : ∀ j < n, s.needsConversion j = decide (j = c)) {k : Nat} (hk : k ≤ n) :
    (List.range k).foldl (pollScan hw) (s, 0, 0) =
      if c < k then
        ({ s with needsConversion := Function.update s.needsConversion c false
                  dataReady := Function.update s.dataReady c true
                  data := Function.update s.data c hw.getConversionResult }, 1, 0)
      else (s, 0, 0) := by
  induction k with
  | zero => simp
  | succ k ih =>
    rw [List.range_succ, List.foldl_append, List.foldl_cons, List.foldl_nil, ih (by omega)]
    have hk' := hs k (by omega)
    rcases Nat.lt_trichotomy c k with h | rfl | h
    · simp [pollScan, hk', h, h.ne', Nat.lt_succ_of_lt h, Function.update_noteq h.ne']
    · simp [pollScan, hk']
    · simp [pollScan, hk', h.ne, Nat.not_lt.2 h.le, Nat.not_lt.2 (Nat.succ_le_of_lt h)]

end AdcState

/-- A timer interrupt inside `ADC_StartConversion`, between `ADC_idle = false` and
`ADC_ReadFromChannel(first_channel)`: from any idle scheduler with the converter done, a request
for one channel `c` is completed at once with the converter's old result, the scheduler goes back
to idle, and the conversion that `ADC_StartConversion` then starts is never collected. -/
theorem housekeepingPoll_inside_startConversion (n c : Nat) (mask : UInt8) (s : AdcState)
    (hw : AdcHw) (hc : c < n) (hmask : mask.toNat = 2 ^ c) (hidle : s.idle = true)
    (hbusy : hw.busy = false) :
    let r := AdcState.startConversionPolled n mask s hw
    r.1.idle = true ∧ r.1.needsConversion c = false ∧ r.1.dataReady c = true ∧
      r.1.data c = hw.result ∧ r.2 = { hw with admux := c, busy := true } ∧
      ∀ v, AdcState.housekeepingPoll n r.1 (r.2.complete v) = (r.1, r.2.complete v) := by
  intro r
  set s₀ := AdcState.reInitBuffer n s
  have hhead : AdcState.startConversionHead n mask s =
      ({ s₀ with needsConversion := Function.update s₀.needsConversion c true, idle := false },
        some c) := by
    simp [AdcState.startConversionHead, hidle, AdcState.startScan_single hmask, hc, s₀]
  have hmarked : ∀ j < n, (Function.update s₀.needsConversion c true) j = decide (j = c) := by
    intro j hj
    by_cases hjc : j = c
    · subst hjc; simp
    · simp [hjc, s₀, AdcState.reInitBuffer, AdcState.reInitBuffer_needsConversion, hj]
  have hr : r = ({ s₀ with
      needsConversion := Function.update (Function.update s₀.needsConversion c true) c false
      dataReady := Function.update s₀.dataReady c true
      data := Function.update s₀.data c hw.result, idle := true },
      { hw with admux := c, busy := true }) := by
    simp only [r, AdcState.startConversionPolled, hhead, AdcState.housekeepingPoll,
      AdcHw.isADCBusy, hbusy]
    rw [AdcState.pollScan_single n hw (s := { s₀ with
      needsConversion := Function.update s₀.needsConversion c true, idle := false }) hmarked
      le_rfl]
    simp [hc, AdcHw.readFromChannel, AdcHw.getConversionResult]
  rw [hr]
  exact ⟨rfl, by simp, by simp, by simp, rfl,
    fun v => AdcState.housekeepingPoll_of_idle n rfl _⟩

/-- The interrupted request is reachable on the m328p (six channels): a request for channel 3 is
served with `0x1234` and read out, and a request for channel 0 is then interrupted. -/
theorem housekeepingPoll_inside_startConversion_m328p :
    let r₁ := AdcState.startConversion 6 0x08 AdcState.powerOn AdcHw.init
    let r₂ := AdcState.housekeepingPoll 6 r₁.1 (r₁.2.complete 0x1234)
    let s₃ := (AdcState.readPendingSample 6 r₂.1 0 0).1
    let r := AdcState.startConversionPolled 6 0x01 s₃ r₂.2
    (0 < 6 ∧ (0x01 : UInt8).toNat = 2 ^ 0 ∧ s₃.idle = true ∧ r₂.2.busy = false) ∧
      r.1.idle = true ∧ r.1.needsConversion 0 = false ∧ r.1.dataReady 0 = true ∧
      r.1.data 0 = r₂.2.result ∧ r.2 = { r₂.2 with admux := 0, busy := true } ∧
      ∀ v, AdcState.housekeepingPoll 6 r.1 (r.2.complete v) = (r.1, r.2.complete v) :=
  ⟨⟨by decide, by decide, by decide, by decide⟩,
    housekeepingPoll_inside_startConversion 6 0 0x01 _ _ (by decide) (by decide) (by decide)
      (by decide)⟩

end NeurAvr
