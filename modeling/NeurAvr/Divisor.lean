import Mathlib.Data.Nat.Dist
import NeurAvr.Timer

/-!
# Clock divisors (`Timer_Init`, `UART_Init`)

`Timer_Init(mcu_hz, rtc_hz)` and `UART_Init(mcu_hz, baud_rate)` turn a clock ratio into a divisor
register the same way: the `uint32_t` quotient less one (a register value `n` divides by `n + 1`),
clamped to the register's width (`ceilingOf`), stored high byte first. The clock's timer runs in
CTC mode with a `/1` prescaler, so its compare interrupt comes every `OCRnA + 1` clocks. The UART
runs at double speed (`U2X`), `mcu_hz / (8 (UBRR + 1))` baud (`u2xRate`), and `UART_Init` also
tries the next setting, keeping whichever lands nearer the request (`ubrrSetting`).

`timerInit_period`: the tick period is the quotient clamped to `1 … 0x10000`, which is the longest
period whose rate is still at least `rtc_hz` when the clock allows one. `ubrrSetting_best`: for every
rate the clock reaches, the UBRR setting is the nearest of all 4096. Above `mcu_hz / 8` the
difference `real_baud_rate - baud_rate` wraps in `uint32_t`, and the code halves the rate where
UBRR 0 is nearer (`ubrrSetting_fast_halves`).
-/

namespace NeurAvr

/-! ### `uint32_t` arithmetic -/

theorem uint32_toNat_sub (a b : UInt32) : (a - b).toNat = (2 ^ 32 - b.toNat + a.toNat) % 2 ^ 32 := by
  show (a.toBitVec - b.toBitVec).toNat = _
  rw [BitVec.toNat_sub]
  rfl

/-- A `uint32_t` difference `c - a` that does not wrap. -/
theorem wrap_sub_of_le {a c : Nat} (ha : a ≤ 2 ^ 32) (h : a ≤ c) (hc : c - a < 2 ^ 32) :
    (2 ^ 32 - a + c) % 2 ^ 32 = c - a := by
  rw [show 2 ^ 32 - a + c = c - a + 2 ^ 32 by omega, Nat.add_mod_right, Nat.mod_eq_of_lt hc]

theorem uint32_lt_iff (a b : UInt32) : a < b ↔ a.toNat < b.toNat := Iff.rfl

theorem uint32_toNat_add_two (a : UInt32) : (a + 2).toNat = (a.toNat + 2) % 2 ^ 32 := by
  simp only [UInt32.toNat, UInt32.add_def, BitVec.toNat_add]
  rfl

theorem uint32_toNat_shiftLeft_three (a : UInt32) : (a <<< 3).toNat = a.toNat * 8 % 2 ^ 32 := by
  show (a.toBitVec <<< (UInt32.mod 3 32).toBitVec).toNat = _
  rw [BitVec.shiftLeft_eq', BitVec.toNat_shiftLeft, Nat.shiftLeft_eq]
  rfl

theorem uint32_high_byte (v : UInt32) : ((v >>> 8) &&& 0xff).toUInt8.toNat = v.toNat / 256 % 256 := by
  show (UInt8.ofNat ((v.toBitVec >>> (8 : Nat)) &&& (255 : UInt32).toBitVec).toNat).toNat = _
  rw [uint8_toNat_ofNat, BitVec.toNat_and, BitVec.toNat_ushiftRight, Nat.shiftRight_eq_div_pow]
  show (v.toNat / 2 ^ 8 &&& 2 ^ 8 - 1) % 2 ^ 8 = _
  rw [Nat.and_pow_two_sub_one_eq_mod]
  simp

theorem uint32_low_byte (v : UInt32) : (v &&& 0xff).toUInt8.toNat = v.toNat % 256 := by
  show (UInt8.ofNat (v.toBitVec &&& (255 : UInt32).toBitVec).toNat).toNat = _
  rw [uint8_toNat_ofNat, BitVec.toNat_and]
  show (v.toNat &&& 2 ^ 8 - 1) % 2 ^ 8 = _
  rw [Nat.and_pow_two_sub_one_eq_mod]
  simp

/-- A 16-bit register read back from its high and low bytes. -/
def reg16 (hi lo : UInt8) : Nat := hi.toNat * 256 + lo.toNat

theorem reg16_bytes {v : UInt32} (hv : v.toNat < 2 ^ 16) :
    reg16 ((v >>> 8) &&& 0xff).toUInt8 (v &&& 0xff).toUInt8 = v.toNat := by
  rw [reg16, uint32_high_byte, uint32_low_byte]
  omega

/-! ### The divisor -/

/-- `if (0 < n) n--; if (cap < n) n = cap;`: `Timer_Init` on `clocks_per_tick` (cap `0xffff`) and
`UART_Init` on `ubrr_value` (cap `0x0fff`). -/
def ceilingOf (n cap : UInt32) : UInt32 :=
  let n := if 0 < n then n - 1 else n
  if cap < n then cap else n

theorem ceilingOf_toNat (n cap : UInt32) : (ceilingOf n cap).toNat = min (n.toNat - 1) cap.toNat := by
  have hsub : (n - 1).toNat = (2 ^ 32 - 1 + n.toNat) % 2 ^ 32 := uint32_toNat_sub n 1
  have hn : n.toNat < 2 ^ 32 := n.toBitVec.isLt
  have hpos : 0 < n ↔ 0 < n.toNat := Iff.rfl
  simp only [ceilingOf, hpos, uint32_lt_iff]
  split_ifs <;> omega

/-! ### `Timer_Init` -/

/-- The registers of the clock's timer (Timer 1 on the ATmega328P, Timer 5 on the ATmega2560) that
`Timer_Init` sets up: the compare value `OCRnAH:OCRnAL`, `TCCRnB` (mode and prescaler) and `TIMSKn`
(the compare interrupt enable). -/
structure RtcTimer where
  ocrah : UInt8
  ocral : UInt8
  tccrb : UInt8
  timsk : UInt8
deriving Repr, DecidableEq

/-- `Timer_Init(mcu_hz, rtc_hz)` on the clock's timer and the clock: its interrupt off and the
timer stopped in CTC mode, `rtc_timestamp` and `rtc_usercallback` cleared, and for a nonzero rate
`clocks_per_tick` stored high byte first and the timer started at `/1` with its interrupt on. -/
def timerInit (mcuHz rtcHz : UInt32) (t : RtcTimer) (x : ClockSys) : RtcTimer × ClockSys :=
  let x := { x with rtcTimestamp := 0, rtcUsercallback := 0 }
  let t := { t with tccrb := 0b01000, timsk := 0 }
  if 0 < rtcHz then
    let clocksPerTick := ceilingOf (mcuHz / rtcHz) 0xffff
    ({ t with
        ocrah := ((clocksPerTick >>> 8) &&& 0xff).toUInt8
        ocral := (clocksPerTick &&& 0xff).toUInt8
        tccrb := 0b01001
        timsk := 0x02 }, x)
  else (t, x)

/-- `Timer_Init` with a nonzero rate starts the clock's timer (`/1`, compare interrupt on) from a cleared
clock, with period `OCRnA + 1 = mcu_hz / rtc_hz` clamped to `1 … 0x10000`; when the quotient is in
that range it is the longest period whose rate is at least `rtc_hz`. -/
theorem timerInit_period (mcuHz rtcHz : UInt32) (t : RtcTimer) (x : ClockSys) {t' : RtcTimer}
    {x' : ClockSys} (hi : timerInit mcuHz rtcHz t x = (t', x')) (hr : 0 < rtcHz) :
    t'.tccrb = 0b01001 ∧ t'.timsk = 0x02 ∧ x'.rtcTimestamp = 0 ∧ x'.rtcUsercallback = 0 ∧
    reg16 t'.ocrah t'.ocral + 1 = max 1 (min (mcuHz.toNat / rtcHz.toNat) 0x10000) ∧
    (rtcHz.toNat ≤ mcuHz.toNat → mcuHz.toNat / rtcHz.toNat ≤ 0x10000 →
      rtcHz.toNat * (reg16 t'.ocrah t'.ocral + 1) ≤ mcuHz.toNat ∧
      mcuHz.toNat < rtcHz.toNat * (reg16 t'.ocrah t'.ocral + 2)) := by
  simp only [timerInit, if_pos hr, Prod.mk.injEq] at hi
  obtain ⟨rfl, rfl⟩ := hi
  have hc := ceilingOf_toNat (mcuHz / rtcHz) 0xffff
  rw [UInt32.toNat_div, show (0xffff : UInt32).toNat = 0xffff from rfl] at hc
  generalize ceilingOf (mcuHz / rtcHz) 0xffff = C at hc ⊢
  have hp : reg16 ((C >>> 8) &&& 0xff).toUInt8 (C &&& 0xff).toUInt8 + 1 =
      max 1 (min (mcuHz.toNat / rtcHz.toNat) 0x10000) := by
    rw [reg16_bytes (by omega), hc]
    omega
  generalize reg16 ((C >>> 8) &&& 0xff).toUInt8 (C &&& 0xff).toUInt8 = R at hp ⊢
  refine ⟨rfl, rfl, rfl, rfl, hp, fun hle hq => ?_⟩
  have hpos : 0 < rtcHz.toNat := hr
  have h1 : 1 ≤ mcuHz.toNat / rtcHz.toNat := Nat.div_pos hle hpos
  rw [show R + 1 = mcuHz.toNat / rtcHz.toNat by omega,
    show R + 2 = mcuHz.toNat / rtcHz.toNat + 1 by omega, Nat.mul_comm]
  exact ⟨Nat.div_mul_le_self _ _, Nat.lt_mul_div_succ _ hpos⟩

theorem timerInit_period_board :
    timerInit 16000000 10000 ⟨0, 0, 0, 0⟩ ⟨7, 0x1234, false, false, [], [], 0, []⟩ =
      (⟨6, 63, 0b01001, 0x02⟩, ⟨0, 0, false, false, [], [], 0, []⟩) ∧
    reg16 6 63 + 1 = max 1 (min ((16000000 : UInt32).toNat / (10000 : UInt32).toNat) 0x10000) :=
  have hi : timerInit 16000000 10000 ⟨0, 0, 0, 0⟩ ⟨7, 0x1234, false, false, [], [], 0, []⟩ =
      (⟨6, 63, 0b01001, 0x02⟩, ⟨0, 0, false, false, [], [], 0, []⟩) := Prod.ext (by decide) rfl
  ⟨hi, (timerInit_period _ _ _ _ hi (by decide)).2.2.2.2.1⟩

/-! ### `UART_Init`'s baud setting -/

/-- `mcu_hz / (8 (ubrr + 1))`: the baud rate of UBRR setting `ubrr` at double speed, which
`UART_Init` records in `real_baud_rate`. -/
def u2xRate (mcuHz ubrr : Nat) : Nat := mcuHz / (8 * (ubrr + 1))

theorem u2xRate_anti (mcuHz : Nat) {w w' : Nat} (h : w ≤ w') : u2xRate mcuHz w' ≤ u2xRate mcuHz w := by
  unfold u2xRate
  apply Nat.div_le_div_left <;> omega

theorem le_u2xRate_pred {mcuHz b : Nat} (hb : 0 < b) (hm : 8 * b ≤ mcuHz) :
    b ≤ u2xRate mcuHz (mcuHz / (8 * b) - 1) := by
  have hq : 0 < mcuHz / (8 * b) := Nat.div_pos hm (by omega)
  rw [u2xRate, Nat.sub_add_cancel hq, Nat.le_div_iff_mul_le (by omega)]
  calc b * (8 * (mcuHz / (8 * b))) = mcuHz / (8 * b) * (8 * b) := by ac_rfl
    _ ≤ mcuHz := Nat.div_mul_le_self _ _

theorem u2xRate_quot_lt (mcuHz : Nat) {b : Nat} (hb : 0 < b) : u2xRate mcuHz (mcuHz / (8 * b)) < b := by
  rw [u2xRate, Nat.div_lt_iff_lt_mul (Nat.mul_pos (by decide) (Nat.succ_pos _))]
  calc mcuHz < 8 * b * (mcuHz / (8 * b) + 1) := Nat.lt_mul_div_succ _ (Nat.mul_pos (by decide) hb)
    _ = b * (8 * (mcuHz / (8 * b) + 1)) := by ac_rfl

/-- The UBRR setting and `real_baud_rate` that `UART_Init` computes for a nonzero `baud_rate`
before it locks: the floor setting, and the next one if its rate lands nearer. -/
def ubrrSetting (mcuHz baudRate : UInt32) : UInt32 × UInt32 :=
  let ubrrValue := ceilingOf (mcuHz / (baudRate <<< 3)) 0x0fff
  let realBaudRate := mcuHz / ((ubrrValue + 1) <<< 3)
  let scratch := mcuHz / ((ubrrValue + 2) <<< 3)
  if ubrrValue < 0x0fff ∧ realBaudRate - baudRate > baudRate - scratch then (ubrrValue + 1, scratch)
  else (ubrrValue, realBaudRate)

theorem ubrrSetting_toNat (mcuHz baudRate : UInt32) {u : Nat}
    (hu : u = min (mcuHz.toNat / (baudRate.toNat * 8 % 2 ^ 32) - 1) 0x0fff) :
    ((ubrrSetting mcuHz baudRate).1.toNat, (ubrrSetting mcuHz baudRate).2.toNat) =
      if u < 0x0fff ∧ (2 ^ 32 - u2xRate mcuHz.toNat (u + 1) + baudRate.toNat) % 2 ^ 32 <
          (2 ^ 32 - baudRate.toNat + u2xRate mcuHz.toNat u) % 2 ^ 32
      then (u + 1, u2xRate mcuHz.toNat (u + 1)) else (u, u2xRate mcuHz.toNat u) := by
  have hU := ceilingOf_toNat (mcuHz / (baudRate <<< 3)) 0x0fff
  rw [UInt32.toNat_div, uint32_toNat_shiftLeft_three, show (0x0fff : UInt32).toNat = 0x0fff from rfl,
    ← hu] at hU
  unfold ubrrSetting
  generalize ceilingOf (mcuHz / (baudRate <<< 3)) 0x0fff = U at hU ⊢
  have hu4 : u ≤ 0x0fff := by rw [hu]; exact min_le_right _ _
  have h1 : (U + 1).toNat = u + 1 := by rw [uint32_toNat_add_one, hU]; omega
  have hR : (mcuHz / ((U + 1) <<< 3)).toNat = u2xRate mcuHz.toNat u := by
    rw [UInt32.toNat_div, uint32_toNat_shiftLeft_three, h1, u2xRate]; congr 1; omega
  have hS : (mcuHz / ((U + 2) <<< 3)).toNat = u2xRate mcuHz.toNat (u + 1) := by
    rw [UInt32.toNat_div, uint32_toNat_shiftLeft_three, uint32_toNat_add_two, hU, u2xRate]
    congr 1; omega
  have hlt : U < 0x0fff ↔ u < 0x0fff := by rw [uint32_lt_iff, hU]; rfl
  have hgt : mcuHz / ((U + 1) <<< 3) - baudRate > baudRate - mcuHz / ((U + 2) <<< 3) ↔
      (2 ^ 32 - u2xRate mcuHz.toNat (u + 1) + baudRate.toNat) % 2 ^ 32 <
        (2 ^ 32 - baudRate.toNat + u2xRate mcuHz.toNat u) % 2 ^ 32 := by
    rw [gt_iff_lt, uint32_lt_iff, uint32_toNat_sub, uint32_toNat_sub, hR, hS]
  simp only [hlt, hgt]
  split_ifs <;> simp only [h1, hR, hS, hU]

/-- Whatever the request, the setting fits UBRR's 12 bits and `real_baud_rate` is its rate. -/
theorem ubrrSetting_consistent (mcuHz baudRate : UInt32) :
    (ubrrSetting mcuHz baudRate).1.toNat ≤ 0x0fff ∧
    (ubrrSetting mcuHz baudRate).2.toNat = u2xRate mcuHz.toNat (ubrrSetting mcuHz baudRate).1.toNat := by
  have hs := ubrrSetting_toNat mcuHz baudRate rfl
  generalize hu : min _ 0x0fff = u at hs
  have hu4 : u ≤ 0x0fff := hu ▸ min_le_right _ _
  split_ifs at hs with hc <;> simp only [Prod.mk.injEq] at hs <;> rw [hs.1, hs.2]
  · exact ⟨hc.1, rfl⟩
  · exact ⟨hu4, rfl⟩

/-- For every rate the clock reaches at double speed (`8 baud_rate ≤ mcu_hz`, and `baud_rate << 3`
not overflowing), `UART_Init` picks a 12-bit UBRR whose rate is nearest `baud_rate` of all 4096
settings, and records that rate in `real_baud_rate`. -/
theorem ubrrSetting_best (mcuHz baudRate : UInt32) (hb : 0 < baudRate.toNat)
    (hm : 8 * baudRate.toNat ≤ mcuHz.toNat) (ho : baudRate.toNat < 2 ^ 29) :
    (ubrrSetting mcuHz baudRate).1.toNat ≤ 0x0fff ∧
    (ubrrSetting mcuHz baudRate).2.toNat = u2xRate mcuHz.toNat (ubrrSetting mcuHz baudRate).1.toNat ∧
    ∀ w ≤ 0x0fff, Nat.dist (u2xRate mcuHz.toNat (ubrrSetting mcuHz baudRate).1.toNat) baudRate.toNat ≤
      Nat.dist (u2xRate mcuHz.toNat w) baudRate.toNat := by
  refine ⟨(ubrrSetting_consistent _ _).1, (ubrrSetting_consistent _ _).2, fun w hw => ?_⟩
  have hs := ubrrSetting_toNat mcuHz baudRate rfl
  rw [show baudRate.toNat * 8 % 2 ^ 32 = 8 * baudRate.toNat by omega] at hs
  have hq : 0 < mcuHz.toNat / (8 * baudRate.toNat) := Nat.div_pos hm (by omega)
  generalize hu : min (mcuHz.toNat / (8 * baudRate.toNat) - 1) 0x0fff = u at hs
  -- the floor setting reaches the request; unless clamped, the next one falls short of it
  have hR : baudRate.toNat ≤ u2xRate mcuHz.toNat u :=
    (le_u2xRate_pred hb hm).trans (u2xRate_anti _ (by omega))
  have hS : u < 0x0fff → u2xRate mcuHz.toNat (u + 1) < baudRate.toNat := fun h => by
    rw [show u + 1 = mcuHz.toNat / (8 * baudRate.toNat) by omega]
    exact u2xRate_quot_lt _ hb
  have hr32 : u2xRate mcuHz.toNat u < 2 ^ 32 :=
    lt_of_le_of_lt (Nat.div_le_self _ _) mcuHz.toBitVec.isLt
  -- so neither difference wraps
  simp only [wrap_sub_of_le (by omega) hR (by omega)] at hs
  -- a setting at or below the floor overshoots at least as far; one above undershoots
  split_ifs at hs with hc <;> simp only [Prod.mk.injEq] at hs <;> rw [hs.1] <;> unfold Nat.dist
  · have hs1 := hS hc.1
    rw [wrap_sub_of_le (by omega) hs1.le (by omega)] at hc
    rcases le_or_lt w u with hwu | hwu
    · have := u2xRate_anti mcuHz.toNat hwu; omega
    · have := u2xRate_anti mcuHz.toNat (by omega : u + 1 ≤ w); omega
  · rcases le_or_lt w u with hwu | hwu
    · have := u2xRate_anti mcuHz.toNat hwu; omega
    · have hs1 := hS (by omega)
      rw [wrap_sub_of_le (by omega) hs1.le (by omega)] at hc
      have := u2xRate_anti mcuHz.toNat (by omega : u + 1 ≤ w); omega

theorem ubrrSetting_best_board :
    ubrrSetting 16000000 115200 = (16, 117647) ∧
    Nat.dist (u2xRate 16000000 (ubrrSetting 16000000 115200).1.toNat) 115200 ≤
      Nat.dist (u2xRate 16000000 17) 115200 :=
  ⟨by decide, (ubrrSetting_best 16000000 115200 (by decide) (by decide) (by decide)).2.2 17 (by decide)⟩

/-- Asked for more than the clock reaches at double speed (`mcu_hz < 8 baud_rate`, with
`mcu_hz ≥ 8`), `UART_Init` sets UBRR 1 and records `mcu_hz / 16`, half the rate of UBRR 0, though
UBRR 0 lands strictly nearer: `real_baud_rate - baud_rate` wraps in `uint32_t`, so the overshoot
test passes. -/
theorem ubrrSetting_fast_halves (mcuHz baudRate : UInt32) (h8 : 8 ≤ mcuHz.toNat)
    (hm : mcuHz.toNat < 8 * baudRate.toNat) (ho : baudRate.toNat < 2 ^ 29) :
    (ubrrSetting mcuHz baudRate).1.toNat = 1 ∧ (ubrrSetting mcuHz baudRate).2.toNat = mcuHz.toNat / 16 ∧
    Nat.dist (u2xRate mcuHz.toNat 0) baudRate.toNat < Nat.dist (u2xRate mcuHz.toNat 1) baudRate.toNat := by
  have hs := ubrrSetting_toNat (u := 0) mcuHz baudRate (by
    rw [show baudRate.toNat * 8 % 2 ^ 32 = 8 * baudRate.toNat by omega, Nat.div_eq_of_lt hm]; rfl)
  have h0 : u2xRate mcuHz.toNat 0 = mcuHz.toNat / 8 := rfl
  have h1 : u2xRate mcuHz.toNat (0 + 1) = mcuHz.toNat / 16 := rfl
  have hlt : mcuHz.toNat / 8 < baudRate.toNat := (Nat.div_lt_iff_lt_mul (by omega)).2 (by omega)
  -- the undershoot of UBRR 1 is small; the overshoot of UBRR 0 is negative and wraps
  have hunder : (2 ^ 32 - mcuHz.toNat / 16 + baudRate.toNat) % 2 ^ 32 = baudRate.toNat - mcuHz.toNat / 16 :=
    wrap_sub_of_le (by omega) (by omega) (by omega)
  have hover : (2 ^ 32 - baudRate.toNat + mcuHz.toNat / 8) % 2 ^ 32 =
      2 ^ 32 - baudRate.toNat + mcuHz.toNat / 8 := Nat.mod_eq_of_lt (by omega)
  rw [h0, h1, hunder, hover, if_pos ⟨by decide, by omega⟩, Prod.mk.injEq] at hs
  refine ⟨hs.1, hs.2, ?_⟩
  unfold Nat.dist
  rw [h0, show u2xRate mcuHz.toNat 1 = mcuHz.toNat / 16 from rfl]
  omega

theorem ubrrSetting_fast_halves_board :
    ubrrSetting 16000000 2500000 = (1, 1000000) ∧
    Nat.dist (u2xRate 16000000 0) 2500000 < Nat.dist (u2xRate 16000000 1) 2500000 :=
  ⟨by decide, (ubrrSetting_fast_halves 16000000 2500000 (by decide) (by decide) (by decide)).2.2⟩

end NeurAvr
