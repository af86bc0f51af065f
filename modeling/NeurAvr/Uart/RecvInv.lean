import NeurAvr.Uart.Recv

/-!
# The receive ring invariant

`RecvInv`: at most `UART_LINE_COUNT - 1` complete lines, `newestrow` is `rowcount` slots after
`oldestrow`, the write cursor stays within a slot and every complete slot holds a NUL. The slot at
`newestrow` is then never a complete slot, and the interrupt handler stores only into the slots at
`newestrow` before and after it runs (`handleRecvCharISR_writes`), so it never touches a complete
slot (`complete_slot_handleRecvCharISR`). In particular the slot that `UART_GetNextLine` returns is
left alone by every action up to the next `UART_DoneWithLine` (`run_held_slot`).
-/

namespace NeurAvr

variable {cfg : UartConfig}

/-! ### Slot arithmetic -/

@[simp] theorem slotBase_eq (r : Nat) : slotBase cfg r = r * cfg.lineSize := by
  rw [slotBase, Nat.shiftLeft_eq, cfg.lineSize_eq]

theorem inSlot_slotBase_add {r j : Nat} (hj : j < cfg.lineSize) :
    InSlot cfg r (slotBase cfg r + j) := by
  rw [InSlot, slotBase_eq, Nat.add_comm, Nat.add_mul_div_right _ _ cfg.lineSize_pos,
    Nat.div_eq_of_lt hj, Nat.zero_add]

theorem InSlot.lt {r a : Nat} (h : InSlot cfg r a) (hr : r < cfg.lineCount) :
    a < cfg.lineCount * cfg.lineSize := by
  rw [InSlot] at h
  rw [← h] at hr
  exact (Nat.div_lt_iff_lt_mul cfg.lineSize_pos).1 hr

theorem slotBytes_update {m : Nat → UInt8} {r a : Nat} (v : UInt8) (h : ¬ InSlot cfg r a) :
    slotBytes cfg (Function.update m a v) r = slotBytes cfg m r := by
  refine List.map_congr_left fun j hj => Function.update_noteq (fun he => h ?_) _ _
  rw [← he]; exact inSlot_slotBase_add (List.mem_range.1 hj)

theorem mem_slotBytes_update {m : Nat → UInt8} {r j : Nat} (v : UInt8) (hj : j < cfg.lineSize) :
    v ∈ slotBytes cfg (Function.update m (slotBase cfg r + j) v) r :=
  List.mem_map.2 ⟨j, List.mem_range.2 hj, Function.update_same _ _ _⟩

theorem mod_add_ne_mod_add {o k j n : Nat} (hkj : k < j) (hjn : j < k + n) :
    (o + k) % n ≠ (o + j) % n := by
  intro h
  have := Nat.sub_mod_eq_zero_of_mod_eq h.symm
  rw [show o + j - (o + k) = j - k by omega, Nat.mod_eq_of_lt (by omega)] at this
  omega

theorem mask_succ (x : Nat) : (x + 1) &&& (cfg.lineCount - 1) = (x + 1) % cfg.lineCount := by
  simp [UartConfig.lineCount]

theorem inSlot_slotBase (r : Nat) : InSlot cfg r (slotBase cfg r) := by
  simpa using inSlot_slotBase_add (r := r) cfg.lineSize_pos

/-- The slots `(o + k) % UART_LINE_COUNT` for `k < r` each hold a NUL. -/
def NulFrom (cfg : UartConfig) (m : Nat → UInt8) (o r : Nat) : Prop :=
  ∀ k < r, (0 : UInt8) ∈ slotBytes cfg m ((o + k) % cfg.lineCount)

theorem NulFrom.update {m : Nat → UInt8} {o r q a : Nat} (v : UInt8) (hn : NulFrom cfg m o r)
    (hq : InSlot cfg q a) (hne : ∀ k < r, (o + k) % cfg.lineCount ≠ q) :
    NulFrom cfg (Function.update m a v) o r := fun k hk => by
  rw [slotBytes_update v fun h => hne k hk (h.symm.trans hq)]
  exact hn k hk

theorem NulFrom.extend {m : Nat → UInt8} {o r : Nat} (hn : NulFrom cfg m o r)
    (hr : (0 : UInt8) ∈ slotBytes cfg m ((o + r) % cfg.lineCount)) : NulFrom cfg m o (r + 1) :=
  fun k hk => (Nat.lt_succ_iff_lt_or_eq.1 hk).elim (hn k) (· ▸ hr)

/-! ### What the interrupt stores -/

namespace RecvState
variable {s : RecvState}

theorem terminateLine_writes :
    ∀ a ∈ (terminateLine cfg s).2, InSlot cfg s.newestrow a ∨
      InSlot cfg (terminateLine cfg s).1.newestrow a := by
  have hptr : (if s.recvcharptr ≥ cfg.lineSize then cfg.lineSize - 1 else s.recvcharptr) <
      cfg.lineSize := by
    have := cfg.lineSize_pos; split <;> omega
  simp only [terminateLine, List.mem_cons, List.mem_singleton, List.not_mem_nil, or_false]
  rintro a (rfl | rfl)
  · exact .inl (inSlot_slotBase_add hptr)
  · exact .inr (inSlot_slotBase _)

theorem terminateLine_frame {a : Nat} (ha : a ∉ (terminateLine cfg s).2) :
    (terminateLine cfg s).1.recvlines a = s.recvlines a := by
  simp only [terminateLine, List.mem_cons, List.mem_singleton, List.not_mem_nil, or_false,
    not_or] at ha ⊢
  rw [Function.update_noteq ha.2, Function.update_noteq ha.1]

theorem appendChar_writes (c : UInt8) :
    ∀ a ∈ (appendChar cfg s c).2, InSlot cfg s.newestrow a := by
  unfold appendChar
  split
  · next hp => simp only [List.mem_singleton]; rintro a rfl; exact inSlot_slotBase_add hp
  · simp

theorem appendChar_frame (c : UInt8) {a : Nat} (ha : a ∉ (appendChar cfg s c).2) :
    (appendChar cfg s c).1.recvlines a = s.recvlines a := by
  unfold appendChar at ha ⊢
  split
  · next hp => rw [if_pos hp, List.mem_singleton] at ha; exact Function.update_noteq ha _ _
  · rfl

/-- The body does nothing (the `LF` of a `CR LF`, or a filtered empty line), ends the line, or
stores the byte. -/
theorem recvBody_cases (c : UInt8) :
    recvBody cfg s c = (s, []) ∨ recvBody cfg s c = terminateLine cfg s ∨
      recvBody cfg s c = appendChar cfg s c := by
  unfold recvBody
  split
  · exact .inl rfl
  split
  · split
    · exact .inl rfl
    · exact .inr (.inl rfl)
  · exact .inr (.inr rfl)

theorem handleRecvCharISR_writes (c : UInt8) :
    ∀ a ∈ (handleRecvCharISR cfg s c).2, InSlot cfg s.newestrow a ∨
      InSlot cfg (handleRecvCharISR cfg s c).1.newestrow a := by
  simp only [handleRecvCharISR]
  rcases @recvBody_cases cfg s c with h | h | h <;> rw [h]
  · simp
  · exact terminateLine_writes
  · exact fun a ha => .inl (appendChar_writes c a ha)

theorem handleRecvCharISR_frame (c : UInt8) {a : Nat} (ha : a ∉ (handleRecvCharISR cfg s c).2) :
    (handleRecvCharISR cfg s c).1.recvlines a = s.recvlines a := by
  simp only [handleRecvCharISR] at ha ⊢
  rcases @recvBody_cases cfg s c with h | h | h
  · rw [h]
  · rw [h] at ha ⊢; exact terminateLine_frame ha
  · rw [h] at ha ⊢; exact appendChar_frame c ha

theorem handleRecvCharISR_oldestrow (c : UInt8) :
    (handleRecvCharISR cfg s c).1.oldestrow = s.oldestrow := by
  simp only [handleRecvCharISR]
  rcases @recvBody_cases cfg s c with h | h | h
  · rw [h]
  · rw [h]; rfl
  · rw [h]; unfold appendChar; split <;> rfl

theorem rowcount_le_handleRecvCharISR (c : UInt8) :
    s.rowcount ≤ (handleRecvCharISR cfg s c).1.rowcount := by
  simp only [handleRecvCharISR]
  rcases @recvBody_cases cfg s c with h | h | h
  · rw [h]
  · rw [h]; unfold terminateLine; dsimp only; split <;> omega
  · rw [h]; unfold appendChar; split <;> exact Nat.le_refl _

end RecvState

/-! ### The invariant -/

/-- The receive ring invariant of the claim: the complete lines are the `rowcount` slots from
`oldestrow` on, the in-progress slot `newestrow` follows them, and each complete slot is
NUL-terminated within its bytes. -/
structure RecvInv (cfg : UartConfig) (s : RecvState) : Prop where
  rowcount_le : s.rowcount ≤ cfg.lineCount - 1
  oldest_lt : s.oldestrow < cfg.lineCount
  newest_eq : s.newestrow = (s.oldestrow + s.rowcount) % cfg.lineCount
  ptr_le : s.recvcharptr ≤ cfg.lineSize
  nul : NulFrom cfg s.recvlines s.oldestrow s.rowcount

/-- Slot `r` holds one of the complete lines. -/
def Complete (cfg : UartConfig) (s : RecvState) (r : Nat) : Prop :=
  ∃ k < s.rowcount, r = (s.oldestrow + k) % cfg.lineCount

namespace RecvInv
variable {s : RecvState}

theorem rowcount_lt (h : RecvInv cfg s) : s.rowcount < cfg.lineCount := by
  have := h.rowcount_le; have := cfg.lineCount_pos; omega

theorem newest_lt (h : RecvInv cfg s) : s.newestrow < cfg.lineCount := by
  rw [h.newest_eq]; exact Nat.mod_lt _ cfg.lineCount_pos

theorem complete_ne_newest (h : RecvInv cfg s) :
    ∀ k < s.rowcount, (s.oldestrow + k) % cfg.lineCount ≠ s.newestrow := fun k hk => by
  rw [h.newest_eq]; exact mod_add_ne_mod_add hk (by have := h.rowcount_lt; omega)

theorem newest_not_complete (h : RecvInv cfg s) : ¬ Complete cfg s s.newestrow :=
  fun ⟨k, hk, he⟩ => h.complete_ne_newest k hk he.symm

theorem terminateLine (h : RecvInv cfg s) : RecvInv cfg (RecvState.terminateLine cfg s).1 := by
  have hptr : (if s.recvcharptr ≥ cfg.lineSize then cfg.lineSize - 1 else s.recvcharptr) <
      cfg.lineSize := by
    have := cfg.lineSize_pos; split <;> omega
  have hn := h.nul.update 0 (inSlot_slotBase_add hptr) h.complete_ne_newest
  have hlt := h.rowcount_lt
  by_cases hfull : s.rowcount < cfg.lineCount - 1
  · simp only [RecvState.terminateLine, hfull, if_true, mask_succ]
    have hnext : (s.newestrow + 1) % cfg.lineCount =
        (s.oldestrow + (s.rowcount + 1)) % cfg.lineCount := by
      rw [h.newest_eq, Nat.mod_add_mod, Nat.add_assoc]
    have hcur := mem_slotBytes_update (m := s.recvlines) (r := s.newestrow) 0 hptr
    refine ⟨show s.rowcount + 1 ≤ _ by omega, h.oldest_lt, hnext, Nat.zero_le _, ?_⟩
    refine (hn.extend ?_).update 0 (inSlot_slotBase _) fun k hk => ?_
    · rwa [← h.newest_eq]
    · rw [hnext]; exact mod_add_ne_mod_add hk (by omega)
  · simp only [RecvState.terminateLine, hfull, if_false]
    exact ⟨h.rowcount_le, h.oldest_lt, h.newest_eq, Nat.zero_le _,
      hn.update 0 (inSlot_slotBase _) h.complete_ne_newest⟩

theorem appendChar (h : RecvInv cfg s) (c : UInt8) : RecvInv cfg (RecvState.appendChar cfg s c).1 := by
  unfold RecvState.appendChar
  split
  · next hp => exact ⟨h.rowcount_le, h.oldest_lt, h.newest_eq, show s.recvcharptr + 1 ≤ _ by omega,
      h.nul.update c (inSlot_slotBase_add hp) h.complete_ne_newest⟩
  · exact h

theorem recvBody (h : RecvInv cfg s) (c : UInt8) : RecvInv cfg (RecvState.recvBody cfg s c).1 := by
  rcases @RecvState.recvBody_cases cfg s c with hb | hb | hb <;> rw [hb]
  · exact h
  · exact h.terminateLine
  · exact h.appendChar c

theorem handleRecvCharISR (h : RecvInv cfg s) (c : UInt8) :
    RecvInv cfg (RecvState.handleRecvCharISR cfg s c).1 :=
  let h' := h.recvBody c
  ⟨h'.rowcount_le, h'.oldest_lt, h'.newest_eq, h'.ptr_le, h'.nul⟩

theorem doneWithLine (h : RecvInv cfg s) : RecvInv cfg (RecvState.doneWithLine cfg s) := by
  unfold RecvState.doneWithLine
  split
  · next hr =>
    have hshift : ∀ k, ((s.oldestrow + 1) % cfg.lineCount + k) % cfg.lineCount =
        (s.oldestrow + (k + 1)) % cfg.lineCount := fun k => by
      rw [Nat.mod_add_mod]; congr 1; omega
    refine ⟨show s.rowcount - 1 ≤ _ by have := h.rowcount_le; omega,
      by rw [mask_succ]; exact Nat.mod_lt _ cfg.lineCount_pos, ?_, h.ptr_le, fun k hk => ?_⟩
    · show s.newestrow = (((s.oldestrow + 1) &&& (cfg.lineCount - 1)) + (s.rowcount - 1)) % _
      rw [mask_succ, hshift, h.newest_eq, Nat.sub_add_cancel hr]
    · show (0 : UInt8) ∈ slotBytes cfg s.recvlines _
      rw [mask_succ, hshift]; exact h.nul (k + 1) (by have : k < s.rowcount - 1 := hk; omega)
  · exact h

theorem setLineFiltering (h : RecvInv cfg s) (b : Bool) :
    RecvInv cfg (RecvState.setLineFiltering s b) :=
  ⟨h.rowcount_le, h.oldest_lt, h.newest_eq, h.ptr_le, h.nul⟩

/-- Every receive-side action keeps the invariant. -/
theorem step (h : RecvInv cfg s) : ∀ e, RecvInv cfg (RecvState.step cfg s e)
  | .recvChar c => h.handleRecvCharISR c
  | .getNextLine => h
  | .doneWithLine => h.doneWithLine
  | .setLineFiltering b => h.setLineFiltering b

theorem run (h : RecvInv cfg s) (evs : List RecvEv) : RecvInv cfg (RecvState.run cfg s evs) := by
  induction evs generalizing s with
  | nil => exact h
  | cons e evs ih => exact ih (h.step e)

theorem complete_not_written (h : RecvInv cfg s) (c : UInt8) {k j : Nat}
    (hk : k < s.rowcount) (hj : j < cfg.lineSize) :
    slotBase cfg ((s.oldestrow + k) % cfg.lineCount) + j ∉
      (RecvState.handleRecvCharISR cfg s c).2 := fun hw => by
  have hin := inSlot_slotBase_add (r := (s.oldestrow + k) % cfg.lineCount) hj
  rcases RecvState.handleRecvCharISR_writes c _ hw with hn | hn
  · exact h.complete_ne_newest k hk (hin.symm.trans hn)
  · refine (h.handleRecvCharISR c).complete_ne_newest k
      (lt_of_lt_of_le hk (RecvState.rowcount_le_handleRecvCharISR c)) ?_
    rw [RecvState.handleRecvCharISR_oldestrow]; exact hin.symm.trans hn

theorem complete_addr_handleRecvCharISR (h : RecvInv cfg s) (c : UInt8) {k j : Nat}
    (hk : k < s.rowcount) (hj : j < cfg.lineSize) :
    (RecvState.handleRecvCharISR cfg s c).1.recvlines
        (slotBase cfg ((s.oldestrow + k) % cfg.lineCount) + j) =
      s.recvlines (slotBase cfg ((s.oldestrow + k) % cfg.lineCount) + j) :=
  RecvState.handleRecvCharISR_frame c (h.complete_not_written c hk hj)

theorem complete_slot_handleRecvCharISR (h : RecvInv cfg s) (c : UInt8) {k : Nat}
    (hk : k < s.rowcount) :
    slotBytes cfg (RecvState.handleRecvCharISR cfg s c).1.recvlines
        ((s.oldestrow + k) % cfg.lineCount) =
      slotBytes cfg s.recvlines ((s.oldestrow + k) % cfg.lineCount) :=
  List.map_congr_left fun _ hj => h.complete_addr_handleRecvCharISR c hk (List.mem_range.1 hj)

theorem run_held_slot (h : RecvInv cfg s) (hr : 0 < s.rowcount) (evs : List RecvEv)
    (hevs : RecvEv.doneWithLine ∉ evs) :
    (RecvState.run cfg s evs).oldestrow = s.oldestrow ∧ 0 < (RecvState.run cfg s evs).rowcount ∧
      slotBytes cfg (RecvState.run cfg s evs).recvlines s.oldestrow =
        slotBytes cfg s.recvlines s.oldestrow := by
  induction evs generalizing s with
  | nil => exact ⟨rfl, hr, rfl⟩
  | cons e evs ih =>
    rw [List.mem_cons, not_or] at hevs
    have key : (RecvState.step cfg s e).oldestrow = s.oldestrow ∧
        0 < (RecvState.step cfg s e).rowcount ∧
        slotBytes cfg (RecvState.step cfg s e).recvlines s.oldestrow =
          slotBytes cfg s.recvlines s.oldestrow := by
      cases e with
      | recvChar c =>
        refine ⟨RecvState.handleRecvCharISR_oldestrow c,
          lt_of_lt_of_le hr (RecvState.rowcount_le_handleRecvCharISR c), ?_⟩
        have := h.complete_slot_handleRecvCharISR c hr
        rwa [Nat.add_zero, Nat.mod_eq_of_lt h.oldest_lt] at this
      | getNextLine => exact ⟨rfl, hr, rfl⟩
      | doneWithLine => exact absurd rfl hevs.1
      | setLineFiltering b => exact ⟨rfl, hr, rfl⟩
    obtain ⟨h1, h2, h3⟩ := ih (h.step e) key.2.1 hevs.2
    rw [key.1] at h1 h3
    exact ⟨h1, h2, h3.trans key.2.2⟩

end RecvInv

theorem recvInv_initBuffersISR (s : RecvState) : RecvInv cfg (RecvState.initBuffersISR cfg s) :=
  ⟨Nat.zero_le _, cfg.lineCount_pos, by simp [RecvState.initBuffersISR], Nat.zero_le _,
    fun _ hk => absurd hk (Nat.not_lt_zero _)⟩

theorem getNextLine_eq_some {s : RecvState} {p : Nat} (hp : RecvState.getNextLine cfg s = some p) :
    0 < s.rowcount ∧ p = slotBase cfg s.oldestrow := by
  unfold RecvState.getNextLine at hp
  split at hp
  · exact ⟨‹_›, (Option.some.inj hp).symm⟩
  · cases hp

/-- The receive ring from `UART_InitBuffers_ISR` on, under any interleaving of the RX interrupt
with the main-loop calls: every reachable state satisfies `RecvInv`; the interrupt stores only
into slot `newestrow` (as it is before or after the interrupt moves it), inside
`UART_recvlines`; `UART_GetNextLine` never returns the in-progress slot; and the bytes of the slot
it returns are unchanged by every action before the next `UART_DoneWithLine`. -/
theorem recv_ring_invariants (s₀ : RecvState) (evs : List RecvEv) :
    let s := RecvState.run cfg (RecvState.initBuffersISR cfg s₀) evs
    RecvInv cfg s ∧
    (∀ c, ∀ a ∈ (RecvState.handleRecvCharISR cfg s c).2,
      (InSlot cfg s.newestrow a ∨ InSlot cfg (RecvState.handleRecvCharISR cfg s c).1.newestrow a) ∧
      a < cfg.lineCount * cfg.lineSize) ∧
    (∀ p, RecvState.getNextLine cfg s = some p → ¬ InSlot cfg s.newestrow p) ∧
    (∀ p evs', RecvState.getNextLine cfg s = some p → RecvEv.doneWithLine ∉ evs' →
      ∀ j < cfg.lineSize, (RecvState.run cfg s evs').recvlines (p + j) = s.recvlines (p + j)) := by
  intro s
  have h : RecvInv cfg s := (recvInv_initBuffersISR s₀).run evs
  refine ⟨h, fun c a ha => ?_, fun p hp hin => ?_, fun p evs' hp hevs j hj => ?_⟩
  · have hw := RecvState.handleRecvCharISR_writes c a ha
    refine ⟨hw, hw.elim (·.lt h.newest_lt) (·.lt (h.handleRecvCharISR c).newest_lt)⟩
  · obtain ⟨hr, rfl⟩ := getNextLine_eq_some hp
    have := h.complete_ne_newest 0 hr
    rw [Nat.add_zero, Nat.mod_eq_of_lt h.oldest_lt] at this
    exact this ((inSlot_slotBase _).symm.trans hin)
  · obtain ⟨hr, rfl⟩ := getNextLine_eq_some hp
    have := (List.map_inj_left.1 (h.run_held_slot hr evs' hevs).2.2) j (List.mem_range.2 hj)
    exact this

end NeurAvr
