import Mathlib.Logic.Function.Basic
import Mathlib.Data.UInt

/-!
# Hexadecimal rendering (`UTIL_WriteHex`)

`UTIL_WriteHex(buffer, data, digits)` runs `digits` times: the write index `bidx` counts down from
`digits`, the low nibble of `data` picks a character of the table `hexdigits` and is stored at
`buffer[bidx]`, and `data` shifts right by four. `writeHex` returns the buffer afterwards and the
indices stored to, in order.

The reading the callers rely on is `hexNumeral v d`, the `d`-digit zero-padded lower-case numeral,
whose value `hexValue` is `v mod 16 ^ d` (`hexValue_hexNumeral`). `writeHexLoop_get` is the loop
invariant: after `k` passes from index `b`, the `k` bytes below `b` hold the digits of the shifted
data, and nothing else is touched.
-/

namespace NeurAvr

/-- `hexdigits`: `'0'`–`'9'`, `'a'`–`'f'`. -/
def hexdigits : List UInt8 := [48, 49, 50, 51, 52, 53, 54, 55, 56, 57, 97, 98, 99, 100, 101, 102]

/-- The loop of `UTIL_WriteHex` with `k` passes left:
`bidx--; buffer[bidx] = hexdigits[data & 0x0f]; data >>= 4;`. -/
def writeHexLoop : Nat → (Nat → UInt8) → UInt32 → UInt8 → (Nat → UInt8) × List Nat
  | 0, buffer, _, _ => (buffer, [])
  | k + 1, buffer, data, bidx =>
    let bidx := bidx - 1
    let r := writeHexLoop k
      (Function.update buffer bidx.toNat (hexdigits.getD (data &&& 0x0f).toNat 0)) (data >>> 4) bidx
    (r.1, bidx.toNat :: r.2)

/-- `UTIL_WriteHex(buffer, data, digits)`: the buffer afterwards and the indices stored to. The
`for (didx = 0; didx < digits; didx++)` loop runs `digits` times. -/
def writeHex (buffer : Nat → UInt8) (data : UInt32) (digits : UInt8) : (Nat → UInt8) × List Nat :=
  writeHexLoop digits.toNat buffer data digits

/-! ### Lower-case hexadecimal numerals -/

/-- The lower-case digit of a value below 16. -/
def hexChar (v : Nat) : UInt8 := UInt8.ofNat (if v < 10 then 48 + v else 87 + v)

/-- The value of a lower-case hexadecimal digit. -/
def hexDigitValue (c : UInt8) : Nat := if c.toNat ≤ 57 then c.toNat - 48 else c.toNat - 87

/-- The value of a big-endian hexadecimal numeral. -/
def hexValue (l : List UInt8) : Nat := l.foldl (fun n c => 16 * n + hexDigitValue c) 0

/-- The `d`-digit zero-padded lower-case numeral of `v mod 16 ^ d`. -/
def hexNumeral (v : Nat) : Nat → List UInt8
  | 0 => []
  | d + 1 => hexNumeral (v / 16) d ++ [hexChar (v % 16)]

theorem hexdigits_getD {v : Nat} (hv : v < 16) : hexdigits.getD v 0 = hexChar v :=
  (by decide : ∀ w : Fin 16, hexdigits.getD w 0 = hexChar w) ⟨v, hv⟩

theorem hexDigitValue_hexChar {v : Nat} (hv : v < 16) : hexDigitValue (hexChar v) = v :=
  (by decide : ∀ w : Fin 16, hexDigitValue (hexChar w) = w) ⟨v, hv⟩

theorem hexChar_mem {v : Nat} (hv : v < 16) : hexChar v ∈ hexdigits :=
  (by decide : ∀ w : Fin 16, hexChar w ∈ hexdigits) ⟨v, hv⟩

theorem hexValue_append_singleton (l : List UInt8) (c : UInt8) :
    hexValue (l ++ [c]) = 16 * hexValue l + hexDigitValue c := by
  simp [hexValue, List.foldl_append]

theorem hexValue_hexNumeral (v d : Nat) : hexValue (hexNumeral v d) = v % 16 ^ d := by
  induction d generalizing v with
  | zero => simp [hexNumeral, hexValue, Nat.mod_one]
  | succ d ih =>
    rw [hexNumeral, hexValue_append_singleton, ih, hexDigitValue_hexChar (Nat.mod_lt _ (by omega)),
      Nat.pow_succ', Nat.mod_mul]
    omega

theorem hexNumeral_eq_map (v d : Nat) :
    hexNumeral v d = (List.range d).map fun j => hexChar (v / 16 ^ (d - 1 - j) % 16) := by
  induction d generalizing v with
  | zero => rfl
  | succ d ih =>
    rw [hexNumeral, ih, List.range_succ, List.map_append]
    congr 1
    · refine List.map_congr_left fun j hj => ?_
      have hj : j < d := List.mem_range.1 hj
      rw [show d + 1 - 1 - j = d - 1 - j + 1 by omega, Nat.pow_succ', ← Nat.div_div_eq_div_mul]
    · simp

/-! ### The loop -/

theorem uint32_toNat_shiftRight_four (x : UInt32) : (x >>> 4).toNat = x.toNat / 16 := by
  show (x.toBitVec >>> (4 : Nat)).toNat = _
  rw [BitVec.toNat_ushiftRight, Nat.shiftRight_eq_div_pow]
  rfl

theorem uint32_toNat_and_fifteen (x : UInt32) : (x &&& 0x0f).toNat = x.toNat % 16 := by
  show (x.toBitVec &&& (15 : UInt32).toBitVec).toNat = _
  rw [BitVec.toNat_and]
  exact Nat.and_pow_two_sub_one_eq_mod _ 4

theorem uint8_toNat_sub_one {b : UInt8} (h : 0 < b.toNat) : (b - 1).toNat = b.toNat - 1 := by
  obtain ⟨v⟩ := b
  have hv : v.toNat < 256 := v.isLt
  change 0 < v.toNat at h
  show (v - 1).toNat = v.toNat - 1
  rw [BitVec.toNat_sub]
  show (256 - 1 + v.toNat) % 256 = _
  omega

theorem writeHexLoop_get (k : Nat) (buffer : Nat → UInt8) (data : UInt32) (bidx : UInt8)
    (hk : k ≤ bidx.toNat) :
    (writeHexLoop k buffer data bidx).2 = (List.range k).reverse.map (bidx.toNat - k + ·) ∧
    ∀ j, (writeHexLoop k buffer data bidx).1 j =
      if bidx.toNat - k ≤ j ∧ j < bidx.toNat then
        hexChar (data.toNat / 16 ^ (bidx.toNat - 1 - j) % 16)
      else buffer j := by
  induction k generalizing buffer data bidx with
  | zero =>
    refine ⟨rfl, fun j => ?_⟩
    simp only [writeHexLoop, Nat.sub_zero]
    rw [if_neg (by omega)]
  | succ k ih =>
    have hb : (bidx - 1).toNat = bidx.toNat - 1 := uint8_toNat_sub_one (by omega)
    obtain ⟨ih₁, ih₂⟩ := ih (Function.update buffer (bidx - 1).toNat
      (hexdigits.getD (data &&& 0x0f).toNat 0)) (data >>> 4) (bidx - 1) (by omega)
    simp only [writeHexLoop]
    refine ⟨?_, fun j => ?_⟩
    · rw [ih₁, hb, List.range_succ, List.reverse_append, List.reverse_singleton,
        List.singleton_append, List.map_cons]
      congr 1
      · omega
      · exact List.map_congr_left fun x _ => by omega
    · rw [ih₂, hb, uint32_toNat_shiftRight_four, uint32_toNat_and_fifteen,
        hexdigits_getD (Nat.mod_lt _ (by omega : 0 < 16)), Nat.div_div_eq_div_mul]
      by_cases hj : j = bidx.toNat - 1
      · subst hj
        rw [if_neg (by omega), Function.update_same, if_pos (by omega), Nat.sub_self, Nat.pow_zero,
          Nat.div_one]
      · rw [Function.update_noteq hj]
        by_cases hr : bidx.toNat - 1 - k ≤ j ∧ j < bidx.toNat - 1
        · rw [if_pos hr, if_pos (by omega),
            show bidx.toNat - 1 - j = bidx.toNat - 1 - 1 - j + 1 by omega, Nat.pow_succ']
        · rw [if_neg hr, if_neg (by omega)]

/-- The `digits` bytes `UTIL_WriteHex` leaves are the numeral. -/
theorem writeHex_range_map (buffer : Nat → UInt8) (data : UInt32) (digits : UInt8) :
    (List.range digits.toNat).map (writeHex buffer data digits).1 =
      hexNumeral data.toNat digits.toNat := by
  obtain ⟨-, hget⟩ := writeHexLoop_get digits.toNat buffer data digits le_rfl
  rw [hexNumeral_eq_map]
  refine List.map_congr_left fun j hj => ?_
  rw [show (writeHex buffer data digits).1 j = _ from hget j, if_pos (by simp at hj; omega)]

/-- Over every 32-bit value and every digit count: `UTIL_WriteHex` stores to `buffer[digits - 1]`
down to `buffer[0]`, once each, and to nothing else; the `digits` bytes are the zero-padded
lower-case numeral of `data`, whose value is `data mod 16 ^ digits`; so a value below
`16 ^ digits` (a 32-, 16- or 8-bit one with 8, 4 or 2 digits) is written in full. -/
theorem writeHex_numeral (buffer : Nat → UInt8) (data : UInt32) (digits : UInt8) :
    (writeHex buffer data digits).2 = (List.range digits.toNat).reverse ∧
      (∀ j, digits.toNat ≤ j → (writeHex buffer data digits).1 j = buffer j) ∧
      (List.range digits.toNat).map (writeHex buffer data digits).1 =
        hexNumeral data.toNat digits.toNat ∧
      (∀ c ∈ (List.range digits.toNat).map (writeHex buffer data digits).1, c ∈ hexdigits) ∧
      hexValue ((List.range digits.toNat).map (writeHex buffer data digits).1) =
        data.toNat % 16 ^ digits.toNat ∧
      (data.toNat < 16 ^ digits.toNat →
        hexValue ((List.range digits.toNat).map (writeHex buffer data digits).1) = data.toNat) := by
  set r := writeHex buffer data digits
  obtain ⟨hw, hget⟩ := writeHexLoop_get digits.toNat buffer data digits le_rfl
  have hmap := writeHex_range_map buffer data digits
  refine ⟨by simpa using hw, fun j hj => by rw [show r.1 j = _ from hget j, if_neg (by omega)],
    hmap, ?_, by rw [hmap, hexValue_hexNumeral], fun hlt => ?_⟩
  · rw [hmap, hexNumeral_eq_map]
    simp only [List.mem_map]
    rintro c ⟨j, -, rfl⟩
    exact hexChar_mem (Nat.mod_lt _ (by omega))
  · rw [hmap, hexValue_hexNumeral, Nat.mod_eq_of_lt hlt]

end NeurAvr
