import Mathlib.Data.List.Basic

/-!
# C strings

A NUL-terminated string as the code reads it: `cstr` is the string of a byte list (the bytes
before the first NUL), `readCStr` reads one from memory starting at an address, bounded by the
size of the buffer it lies in.
-/

namespace NeurAvr

/-- The bytes of a C string: everything before the first NUL. -/
def cstr (l : List UInt8) : List UInt8 := l.takeWhile (· != 0)

/-- The C string at address `a` of `mem`, reading at most `n` bytes. -/
def readCStr (mem : Nat → UInt8) (a : Nat) : Nat → List UInt8
  | 0 => []
  | n + 1 => if mem a = 0 then [] else mem a :: readCStr mem (a + 1) n

theorem cstr_cons {c : UInt8} (hc : c ≠ 0) (l : List UInt8) : cstr (c :: l) = c :: cstr l := by
  simp [cstr, hc]

theorem cstr_zero_cons (l : List UInt8) : cstr (0 :: l) = [] := by simp [cstr]

theorem cstr_append_zero_cons {l : List UInt8} (hl : ∀ c ∈ l, c ≠ 0) (t : List UInt8) :
    cstr (l ++ 0 :: t) = l := by
  induction l with
  | nil => exact cstr_zero_cons t
  | cons c l ih =>
    rw [List.cons_append, cstr_cons (hl c (List.mem_cons_self c l)),
      ih fun d hd => hl d (List.mem_cons_of_mem c hd)]

theorem cstr_drop (l : List UInt8) (k : Nat) :
    cstr (l.drop k) = if l.getD k 0 = 0 then [] else l.getD k 0 :: cstr (l.drop (k + 1)) := by
  rw [List.getD_eq_getElem?_getD]
  by_cases hk : k < l.length
  · rw [List.drop_eq_getElem_cons hk, List.getElem?_eq_getElem hk, Option.getD_some]
    split_ifs with h0
    · rw [h0, cstr_zero_cons]
    · exact cstr_cons h0 _
  · rw [List.drop_eq_nil_of_le (by omega), List.getElem?_eq_none (by omega)]
    rfl

theorem ne_zero_of_mem_cstr {l : List UInt8} {b : UInt8} (h : b ∈ cstr l) : b ≠ 0 := by
  simpa using List.mem_takeWhile_imp h

theorem readCStr_congr {m m' : Nat → UInt8} {a n : Nat} (h : ∀ j < n, m' (a + j) = m (a + j)) :
    readCStr m' a n = readCStr m a n := by
  induction n generalizing a with
  | zero => rfl
  | succ n ih =>
    have h0 : m' a = m a := h 0 n.succ_pos
    rw [readCStr, readCStr, h0, ih fun j hj => by
      rw [Nat.add_assoc, Nat.add_comm 1 j]; exact h (j + 1) (by omega)]

/-- Bytes `t` followed by a NUL within `n` bytes read back as the C string of `t`. -/
theorem readCStr_eq_cstr {m : Nat → UInt8} {a n : Nat} {t : List UInt8}
    (ht : ∀ j < t.length, some (m (a + j)) = t[j]?) (hz : m (a + t.length) = 0)
    (hn : t.length < n) : readCStr m a n = cstr t := by
  induction t generalizing a n with
  | nil =>
    obtain ⟨n, rfl⟩ : ∃ k, n = k + 1 := ⟨n - 1, by simp at hn; omega⟩
    simpa [readCStr, cstr] using hz
  | cons x t ih =>
    obtain ⟨n, rfl⟩ : ∃ k, n = k + 1 := ⟨n - 1, by simp at hn; omega⟩
    have hx : m a = x := by simpa using ht 0 (by simp)
    by_cases hx0 : x = 0
    · simp [readCStr, cstr, hx, hx0]
    · have hrest : readCStr m (a + 1) n = cstr t := ih
        (fun j hj => by rw [Nat.add_assoc, Nat.add_comm 1 j]; simpa using ht (j + 1) (by simp; omega))
        (by rw [Nat.add_assoc, Nat.add_comm 1]; simpa using hz) (by simp at hn; omega)
      simp [readCStr, cstr, hx, hx0, hrest]

end NeurAvr
