import Mathlib.Logic.Function.Basic
import Mathlib.Data.List.Range

/-!
# The report queue of the polling loop (`NeurApp_Base::DoPolling`)

`NEURAPP_REPORT_QUEUE_LENGTH` buffers `reportqueue` of `NEURAPP_REPORT_BUFFER_CHARS` bytes,
read from `report_read_ptr`, written at `report_write_ptr`, `report_count` of them pending, and
`transmit_running` while the oldest one has been handed to `UART_QueueSend`. Each polling cycle
first retires the report in flight once the UART is idle and hands out the next, then asks every
handler for reports while a buffer is free.

The transmit side is seen here as what `UART_transbuf` points at: a report buffer, other text
queued by the main loop (command replies, help), or nothing. A run is any sequence of the main
loop's report actions (`sendPending`, one `MakeReportString` call each), other sends, and the end
of the message in flight. The interrupt changes nothing but `UART_transbuf`, and the report code
reads it once per cycle through `UART_IsSendInProgress`, so cutting the cycle at that read loses no
interleaving. `ReportInv` is the invariant of every run from `ReInitState`: the pointers stay in
range, the buffer in flight is the oldest pending one, and the reports handed out followed by those
still waiting are the accepted reports, each terminated, in order. `ReportInv.sendPending_hands`
is the progress half: an idle UART takes the oldest waiting report at the next cycle.
-/

namespace NeurAvr

/-- The report queue's build-time sizes, `NEURAPP_REPORT_QUEUE_LENGTH` and
`NEURAPP_REPORT_BUFFER_CHARS`. The header asks for a small queue, not for a power of two. -/
structure ReportConfig where
  queueLength : Nat
  bufferChars : Nat
  queueLength_pos : 0 < queueLength
  bufferChars_pos : 0 < bufferChars

/-- `neurapp-oo.h`: four buffers of 90 bytes. -/
def neurapp : ReportConfig := ⟨4, 90, by decide, by decide⟩

/-- A `neurapp_report_buf_t`: exactly `n` bytes. -/
structure ReportBuf (n : Nat) where
  bytes : List UInt8
  length_eq : bytes.length = n
deriving DecidableEq

namespace ReportBuf

variable {n : Nat}

/-- `buffer[NEURAPP_REPORT_BUFFER_CHARS-1] = 0`. -/
def terminate (b : ReportBuf n) : ReportBuf n :=
  ⟨b.bytes.set (n - 1) 0, by rw [List.length_set, b.length_eq]⟩

/-- `buffer[0] = 0`. -/
def clearFirst (b : ReportBuf n) : ReportBuf n :=
  ⟨b.bytes.set 0 0, by rw [List.length_set, b.length_eq]⟩

end ReportBuf

/-- What `UART_transbuf` points at, as far as the report code is concerned. -/
inductive TxBuf
  | report (slot : Int)
  | other
deriving Repr, DecidableEq

/-- The report globals of `NeurApp_Base`, the transmit buffer pointer, and as history the reports
handed to `UART_QueueSend` and those accepted from `MakeReportString`, each with its slot. -/
structure ReportSys (cfg : ReportConfig) where
  reportqueue : Int → ReportBuf cfg.bufferChars
  reportReadPtr : Int
  reportWritePtr : Int
  reportCount : Int
  transmitRunning : Bool
  transbuf : Option TxBuf
  handed : List (Int × ReportBuf cfg.bufferChars)
  accepted : List (Int × ReportBuf cfg.bufferChars)

variable (cfg : ReportConfig)

/-- `ptr++; if (ptr >= NEURAPP_REPORT_QUEUE_LENGTH) ptr = 0;` -/
def advancePtr (p : Int) : Int := if p + 1 ≥ cfg.queueLength then 0 else p + 1

/-- The slot `k` places after `rp`, wrapping once. -/
def slotAt (rp k : Int) : Int := if rp + k < cfg.queueLength then rp + k else rp + k - cfg.queueLength

namespace ReportSys

variable {cfg}

/-- The report part of `ReInitState()`: reset the pointers, put a NUL in front of every buffer and
wait in `UART_WaitForSendDone` until nothing is in flight. The histories start here. -/
def reInitState (s : ReportSys cfg) : ReportSys cfg :=
  { s with
    reportReadPtr := 0, reportWritePtr := 0, reportCount := 0, transmitRunning := false
    reportqueue := fun i =>
      if 0 ≤ i ∧ i < cfg.queueLength then (s.reportqueue i).clearFirst else s.reportqueue i
    transbuf := none, handed := [], accepted := [] }

/-- `UART_IsSendInProgress()`. -/
def isSendInProgress (s : ReportSys cfg) : Bool := s.transbuf.isSome

/-- The report in flight is done: `transmit_running = false; report_count--; report_read_ptr++`. -/
def retire (s : ReportSys cfg) : ReportSys cfg :=
  { s with transmitRunning := false, reportCount := s.reportCount - 1
           reportReadPtr := advancePtr cfg s.reportReadPtr }

/-- `transmit_running = true; UART_QueueSend(reportqueue[report_read_ptr])`; the wait inside
returns at once, the UART being idle. -/
def queueReport (s : ReportSys cfg) : ReportSys cfg :=
  { s with transmitRunning := true, transbuf := some (.report s.reportReadPtr)
           handed := s.handed ++ [(s.reportReadPtr, s.reportqueue s.reportReadPtr)] }

/-- "First, send the next pending string if we can." -/
def sendPending (s : ReportSys cfg) : ReportSys cfg :=
  if 0 < s.reportCount then
    if !s.isSendInProgress then
      let s := if s.transmitRunning then s.retire else s
      if 0 < s.reportCount then s.queueReport else s
    else s
  else s

/-- One evaluation of the `while` condition and body: while a buffer is free, the handler's
`MakeReportString(reportqueue[report_write_ptr])` writes `buf` there and answers `ok`; an accepted
report is terminated and the write pointer advances. -/
def makeReport (s : ReportSys cfg) (ok : Bool) (buf : ReportBuf cfg.bufferChars) : ReportSys cfg :=
  if s.reportCount < cfg.queueLength then
    let s := { s with reportqueue := Function.update s.reportqueue s.reportWritePtr buf }
    if ok then
      { s with
        reportqueue := Function.update s.reportqueue s.reportWritePtr buf.terminate
        reportCount := s.reportCount + 1
        reportWritePtr := advancePtr cfg s.reportWritePtr
        accepted := s.accepted ++ [(s.reportWritePtr, buf)] }
    else s
  else s

/-- The `while` loop for one handler; `answers` are its successive calls (after the last one listed
it answers `false` without writing). -/
def reportLoop (s : ReportSys cfg) : List (Bool × ReportBuf cfg.bufferChars) → ReportSys cfg
  | [] => s
  | (ok, buf) :: rest =>
    if s.reportCount < cfg.queueLength ∧ ok then reportLoop (s.makeReport ok buf) rest
    else s.makeReport ok buf

/-- "Second, queue new report strings": the loop over the (distinct) handlers. -/
def generateReports (s : ReportSys cfg) (answers : List (List (Bool × ReportBuf cfg.bufferChars))) :
    ReportSys cfg :=
  answers.foldl reportLoop s

/-- The report generation of one `DoPolling` cycle. -/
def reportSection (s : ReportSys cfg) (answers : List (List (Bool × ReportBuf cfg.bufferChars))) :
    ReportSys cfg :=
  s.sendPending.generateReports answers

end ReportSys

/-- One action: the report sending step of a cycle, one `MakeReportString` call, another
`UART_QueueSend` of the main loop (which waits until nothing is in flight), or the transmit
interrupt reaching the NUL of the message in flight. -/
inductive ReportEv (n : Nat)
  | sendPending
  | makeReport (ok : Bool) (buf : ReportBuf n)
  | queueOther
  | sendDone

/-- The queue read from `rp`: the first `c` slots with their contents. -/
def pendingOf (q : Int → ReportBuf cfg.bufferChars) (rp c : Int) :
    List (Int × ReportBuf cfg.bufferChars) :=
  (List.range c.toNat).map fun k : Nat => (slotAt cfg rp k, q (slotAt cfg rp k))

namespace ReportSys

variable {cfg}

def step (s : ReportSys cfg) : ReportEv cfg.bufferChars → ReportSys cfg
  | .sendPending => s.sendPending
  | .makeReport ok buf => s.makeReport ok buf
  | .queueOther => if s.transbuf = none then { s with transbuf := some .other } else s
  | .sendDone => { s with transbuf := none }

def run (s : ReportSys cfg) (evs : List (ReportEv cfg.bufferChars)) : ReportSys cfg :=
  evs.foldl step s

@[simp] theorem run_nil (s : ReportSys cfg) : s.run [] = s := rfl

@[simp] theorem run_cons (s : ReportSys cfg) (e : ReportEv cfg.bufferChars) evs :
    s.run (e :: evs) = (s.step e).run evs := rfl

theorem run_append (s : ReportSys cfg) (evs evs' : List (ReportEv cfg.bufferChars)) :
    s.run (evs ++ evs') = (s.run evs).run evs' := List.foldl_append _ _ _ _

/-- The reports pending, oldest first: slot and contents. -/
def pending (s : ReportSys cfg) : List (Int × ReportBuf cfg.bufferChars) :=
  pendingOf cfg s.reportqueue s.reportReadPtr s.reportCount

/-- The pending reports not yet handed to `UART_QueueSend`. -/
def waiting (s : ReportSys cfg) : List (Int × ReportBuf cfg.bufferChars) :=
  s.pending.drop (if s.transmitRunning then 1 else 0)

end ReportSys

/-! ### Ring arithmetic -/

section Ring

variable {cfg} {rp j k : Int}

theorem slotAt_zero (h : rp < cfg.queueLength) : slotAt cfg rp 0 = rp := by
  simp [slotAt, h]

theorem slotAt_ne (hj : 0 ≤ j) (hjk : j < k) (hk : k < cfg.queueLength) :
    slotAt cfg rp j ≠ slotAt cfg rp k := by
  unfold slotAt; split_ifs <;> omega

theorem advancePtr_slotAt (h : rp < cfg.queueLength) (hk : k < cfg.queueLength) :
    advancePtr cfg (slotAt cfg rp k) = slotAt cfg rp (k + 1) := by
  unfold slotAt advancePtr; split_ifs <;> omega

theorem slotAt_advancePtr (h : rp < cfg.queueLength) (hk0 : 0 ≤ k)
    (hk : k + 1 ≤ cfg.queueLength) : slotAt cfg (advancePtr cfg rp) k = slotAt cfg rp (k + 1) := by
  unfold slotAt advancePtr; split_ifs <;> omega

end Ring

/-! ### The queue read from the read pointer -/

section PendingOf

variable {cfg} {q : Int → ReportBuf cfg.bufferChars} {rp c i : Int}

theorem pendingOf_update (hi : ∀ k : Nat, k < c → slotAt cfg rp k ≠ i) (b : ReportBuf cfg.bufferChars) :
    pendingOf cfg (Function.update q i b) rp c = pendingOf cfg q rp c := by
  refine List.map_congr_left fun k hk => ?_
  rw [Function.update_noteq (hi k (by simp at hk; omega))]

theorem pendingOf_push (hc0 : 0 ≤ c) (hc : c < cfg.queueLength) (b : ReportBuf cfg.bufferChars) :
    pendingOf cfg (Function.update q (slotAt cfg rp c) b) rp (c + 1) =
      pendingOf cfg q rp c ++ [(slotAt cfg rp c, b)] := by
  have hn : (c + 1).toNat = c.toNat + 1 := by omega
  unfold pendingOf
  rw [hn, List.range_succ, List.map_append, ← pendingOf, ← pendingOf,
    pendingOf_update (fun k hk => slotAt_ne (by omega) hk hc)]
  simp only [List.map_cons, List.map_nil]
  rw [Int.toNat_of_nonneg hc0, Function.update_same]

/-- The oldest pending report is the one at the read pointer; advancing the pointer leaves the
rest. -/
theorem pendingOf_eq_cons (h : rp < cfg.queueLength) (hc : 0 < c) (hcN : c ≤ cfg.queueLength) :
    pendingOf cfg q rp c = (rp, q rp) :: pendingOf cfg q (advancePtr cfg rp) (c - 1) := by
  obtain ⟨n, hn⟩ : ∃ n : Nat, c.toNat = n + 1 := ⟨c.toNat - 1, by omega⟩
  have hn' : (c - 1).toNat = n := by omega
  simp only [pendingOf, hn, hn', List.range_succ_eq_map, List.map_cons, List.map_map,
    List.cons.injEq]
  refine ⟨by simp [slotAt_zero h], List.map_congr_left fun k hk => ?_⟩
  have hk : k < n := by simpa using hk
  have hs : slotAt cfg (advancePtr cfg rp) k = slotAt cfg rp (k + 1 : Nat) := by
    rw [slotAt_advancePtr h (by omega) (by omega)]; push_cast; rfl
  simp [hs]

end PendingOf

namespace ReportSys

variable {cfg} {s : ReportSys cfg}

/-- What one `MakeReportString` call does: nothing while the queue is full; otherwise the
handler's bytes land in the slot at the write pointer, and an accepted report is terminated there,
counted and recorded. -/
theorem makeReport_cases (s : ReportSys cfg) (ok : Bool) (buf : ReportBuf cfg.bufferChars) :
    (cfg.queueLength ≤ s.reportCount ∧ s.makeReport ok buf = s) ∨
    (s.reportCount < cfg.queueLength ∧ ok = false ∧
      s.makeReport ok buf =
        { s with reportqueue := Function.update s.reportqueue s.reportWritePtr buf }) ∨
    (s.reportCount < cfg.queueLength ∧ ok = true ∧
      s.makeReport ok buf =
        { s with
          reportqueue := Function.update s.reportqueue s.reportWritePtr buf.terminate
          reportCount := s.reportCount + 1, reportWritePtr := advancePtr cfg s.reportWritePtr
          accepted := s.accepted ++ [(s.reportWritePtr, buf)] }) := by
  unfold makeReport
  by_cases hc : s.reportCount < cfg.queueLength
  · cases ok
    · exact .inr (.inl ⟨hc, rfl, by simp [hc]⟩)
    · exact .inr (.inr ⟨hc, rfl, by simp [hc]⟩)
  · exact .inl ⟨by omega, by simp [hc]⟩

theorem makeReport_of_full (hc : cfg.queueLength ≤ s.reportCount) (ok : Bool)
    (buf : ReportBuf cfg.bufferChars) : s.makeReport ok buf = s := by
  simp [makeReport, Int.not_lt.2 hc]

theorem makeReport_reportqueue_of_ne {i : Int} (hi : i ≠ s.reportWritePtr) (ok : Bool)
    (buf : ReportBuf cfg.bufferChars) : (s.makeReport ok buf).reportqueue i = s.reportqueue i := by
  rcases s.makeReport_cases ok buf with ⟨-, hs⟩ | ⟨-, -, hs⟩ | ⟨-, -, hs⟩ <;> rw [hs]
  all_goals simp [Function.update_noteq hi]

/-- What "send the next pending string" does: nothing while no report is pending or the UART is
busy; otherwise it retires the report in flight (if any) and hands out the next (if any). -/
theorem sendPending_cases (s : ReportSys cfg) :
    ((s.reportCount ≤ 0 ∨ s.transbuf ≠ none) ∧ s.sendPending = s) ∨
    (0 < s.reportCount ∧ s.transbuf = none ∧ s.transmitRunning = false ∧
      s.sendPending = s.queueReport) ∨
    (0 < s.reportCount ∧ s.transbuf = none ∧ s.transmitRunning = true ∧
      (0 < s.retire.reportCount ∧ s.sendPending = s.retire.queueReport ∨
        s.retire.reportCount ≤ 0 ∧ s.sendPending = s.retire)) := by
  unfold sendPending
  by_cases hc : 0 < s.reportCount
  · cases hb : s.transbuf with
    | some b => exact .inl ⟨.inr (by simp), by simp [hc, isSendInProgress, hb]⟩
    | none =>
      cases htr : s.transmitRunning
      · exact .inr (.inl ⟨hc, rfl, rfl, by simp [hc, isSendInProgress, hb, htr]⟩)
      · refine .inr (.inr ⟨hc, rfl, rfl, ?_⟩)
        by_cases hc' : 0 < s.retire.reportCount
        · exact .inl ⟨hc', by simp [hc, isSendInProgress, hb, htr, hc']⟩
        · exact .inr ⟨by omega, by simp [hc, isSendInProgress, hb, htr, hc']⟩
  · exact .inl ⟨.inl (by omega), by simp [hc]⟩

theorem sendPending_of_busy (h : s.transbuf ≠ none) : s.sendPending = s := by
  rcases s.sendPending_cases with ⟨-, hs⟩ | ⟨-, hb, -⟩ | ⟨-, hb, -⟩
  · exact hs
  all_goals exact absurd hb h

theorem sendPending_transbuf (h : s.transbuf = none) :
    s.sendPending.transbuf = none ∨ ∃ k, s.sendPending.transbuf = some (.report k) := by
  rcases s.sendPending_cases with ⟨-, hs⟩ | ⟨-, -, -, hs⟩ | ⟨-, -, -, ⟨-, hs⟩ | ⟨-, hs⟩⟩ <;> rw [hs]
  · exact .inl h
  · exact .inr ⟨_, rfl⟩
  · exact .inr ⟨_, rfl⟩
  · exact .inl h

theorem sendPending_reportqueue : s.sendPending.reportqueue = s.reportqueue := by
  rcases s.sendPending_cases with ⟨-, hs⟩ | ⟨-, -, -, hs⟩ | ⟨-, -, -, ⟨-, hs⟩ | ⟨-, hs⟩⟩ <;> rw [hs] <;>
    rfl

theorem makeReport_transbuf (t : Option TxBuf) (ok : Bool) (buf : ReportBuf cfg.bufferChars) :
    { s.makeReport ok buf with transbuf := t } = { s with transbuf := t }.makeReport ok buf := by
  unfold makeReport; split_ifs <;> rfl

end ReportSys

/-- The report queue invariant: the counters are in range and the write pointer follows the read
pointer by the count; while `transmit_running` the oldest report is the last one handed out and
is the only report buffer the UART can be reading; and the reports handed out, followed by those
still waiting, are the accepted reports, each with its last byte cleared. -/
structure ReportInv {cfg : ReportConfig} (s : ReportSys cfg) : Prop where
  count_nonneg : 0 ≤ s.reportCount
  count_le : s.reportCount ≤ cfg.queueLength
  read_nonneg : 0 ≤ s.reportReadPtr
  read_lt : s.reportReadPtr < cfg.queueLength
  write_eq : s.reportWritePtr = slotAt cfg s.reportReadPtr s.reportCount
  running : s.transmitRunning →
    1 ≤ s.reportCount ∧ s.handed.getLast? = some (s.reportReadPtr, s.reportqueue s.reportReadPtr)
  inflight : ∀ i, s.transbuf = some (.report i) → s.transmitRunning ∧ i = s.reportReadPtr
  history : s.handed ++ s.waiting = s.accepted.map fun p => (p.1, p.2.terminate)

namespace ReportInv

variable {cfg} {s : ReportSys cfg}

theorem reInitState (s : ReportSys cfg) : ReportInv s.reInitState := by
  have := cfg.queueLength_pos
  constructor <;> simp [ReportSys.reInitState, ReportSys.waiting, ReportSys.pending, pendingOf,
    slotAt] <;> omega

theorem write_not_pending (h : ReportInv s) (hc : s.reportCount < cfg.queueLength) (k : Nat)
    (hk : k < s.reportCount) : slotAt cfg s.reportReadPtr k ≠ s.reportWritePtr := by
  rw [h.write_eq]
  exact slotAt_ne (by omega) hk hc

theorem read_ne_write (h : ReportInv s) (hc : s.reportCount < cfg.queueLength)
    (htr : s.transmitRunning) : s.reportReadPtr ≠ s.reportWritePtr := by
  simpa [slotAt_zero h.read_lt] using
    h.write_not_pending hc 0 (by have := (h.running htr).1; omega)

theorem pending_eq_cons (h : ReportInv s) (hc : 0 < s.reportCount) :
    s.pending = (s.reportReadPtr, s.reportqueue s.reportReadPtr) :: s.retire.pending :=
  pendingOf_eq_cons h.read_lt hc h.count_le

theorem retire (h : ReportInv s) (htr : s.transmitRunning) (hnone : s.transbuf = none) :
    ReportInv s.retire := by
  obtain ⟨hc1, -⟩ := h.running htr
  have := h.count_le
  have := h.read_nonneg
  refine ⟨by simp [ReportSys.retire]; omega, by simp [ReportSys.retire]; omega,
    ?_, ?_, ?_, by simp [ReportSys.retire], by simp [ReportSys.retire, hnone], ?_⟩
  · simp only [ReportSys.retire, advancePtr]; split_ifs <;> omega
  · simp only [ReportSys.retire, advancePtr]; split_ifs <;> omega
  · show s.reportWritePtr = slotAt cfg (advancePtr cfg s.reportReadPtr) (s.reportCount - 1)
    rw [h.write_eq, slotAt_advancePtr h.read_lt (by omega) (by omega), Int.sub_add_cancel]
  · have hh := h.history
    simp only [ReportSys.waiting, htr, if_true, h.pending_eq_cons (by omega), List.drop_succ_cons,
      List.drop_zero] at hh
    exact hh

theorem queueReport (h : ReportInv s) (htr : s.transmitRunning = false) (hc : 0 < s.reportCount) :
    ReportInv s.queueReport := by
  refine ⟨h.count_nonneg, h.count_le, h.read_nonneg, h.read_lt, h.write_eq,
    fun _ => ⟨hc, by simp [ReportSys.queueReport]⟩, by simp [ReportSys.queueReport], ?_⟩
  have hh := h.history
  simp only [ReportSys.waiting, htr, Bool.false_eq_true, if_false, List.drop_zero,
    h.pending_eq_cons hc] at hh
  show (s.handed ++ [(s.reportReadPtr, s.reportqueue s.reportReadPtr)]) ++ s.pending.drop 1 =
    s.accepted.map fun p => (p.1, p.2.terminate)
  rw [h.pending_eq_cons hc, ← hh]
  simp

theorem makeReport (h : ReportInv s) (ok : Bool) (buf : ReportBuf cfg.bufferChars) :
    ReportInv (s.makeReport ok buf) := by
  rcases s.makeReport_cases ok buf with ⟨-, hs⟩ | ⟨hc, -, hs⟩ | ⟨hc, -, hs⟩ <;> rw [hs]
  · exact h
  · refine ⟨h.count_nonneg, h.count_le, h.read_nonneg, h.read_lt, h.write_eq, fun htr => ?_,
      h.inflight, ?_⟩
    · simpa [Function.update_noteq (h.read_ne_write hc htr)] using h.running htr
    · simp only [ReportSys.waiting, ReportSys.pending, pendingOf_update (h.write_not_pending hc)]
      exact h.history
  · refine ⟨by simp; have := h.count_nonneg; omega, by simpa using hc, h.read_nonneg, h.read_lt,
      by simp [h.write_eq, advancePtr_slotAt h.read_lt hc], fun htr => ?_, h.inflight, ?_⟩
    · obtain ⟨h1, h2⟩ := h.running htr
      exact ⟨by simp; omega, by simpa [Function.update_noteq (h.read_ne_write hc htr)] using h2⟩
    · have hlen : (if s.transmitRunning then 1 else 0) ≤
          (pendingOf cfg s.reportqueue s.reportReadPtr s.reportCount).length := by
        split_ifs with htr
        · simp [pendingOf]; have := (h.running htr).1; omega
        · exact Nat.zero_le _
      simp only [ReportSys.waiting, ReportSys.pending, h.write_eq,
        pendingOf_push h.count_nonneg hc]
      rw [List.drop_append_of_le_length hlen, ← List.append_assoc]
      simp only [List.map_append, ← h.history, ReportSys.waiting, ReportSys.pending]
      rfl

theorem sendPending (h : ReportInv s) : ReportInv s.sendPending := by
  rcases s.sendPending_cases with ⟨-, hs⟩ | ⟨hc, -, htr, hs⟩ | ⟨-, hb, htr, ⟨hc, hs⟩ | ⟨-, hs⟩⟩ <;>
    rw [hs]
  · exact h
  · exact h.queueReport htr hc
  · exact (h.retire htr hb).queueReport rfl hc
  · exact h.retire htr hb

theorem step (h : ReportInv s) : ∀ e, ReportInv (s.step e)
  | .sendPending => h.sendPending
  | .makeReport ok buf => h.makeReport ok buf
  | .queueOther => by
    unfold ReportSys.step
    split_ifs
    · exact ⟨h.count_nonneg, h.count_le, h.read_nonneg, h.read_lt, h.write_eq, h.running,
        by simp, h.history⟩
    · exact h
  | .sendDone => ⟨h.count_nonneg, h.count_le, h.read_nonneg, h.read_lt, h.write_eq, h.running,
      by simp [ReportSys.step], h.history⟩

theorem run (h : ReportInv s) (evs : List (ReportEv cfg.bufferChars)) : ReportInv (s.run evs) := by
  induction evs generalizing s with
  | nil => exact h
  | cons e evs ih => exact ih (h.step e)

end ReportInv

namespace ReportSys

variable {cfg}

/-- The calls the `while` loop makes for `answers`, as actions: up to the first refusal. -/
def loopEvents {n : Nat} : List (Bool × ReportBuf n) → List (ReportEv n)
  | [] => []
  | (ok, buf) :: rest => .makeReport ok buf :: if ok then loopEvents rest else []

theorem run_loopEvents_of_full {s : ReportSys cfg} (hc : cfg.queueLength ≤ s.reportCount)
    (answers : List (Bool × ReportBuf cfg.bufferChars)) : s.run (loopEvents answers) = s := by
  induction answers with
  | nil => rfl
  | cons a rest ih =>
    obtain ⟨ok, buf⟩ := a
    cases ok <;> simp [loopEvents, step, makeReport_of_full hc, ih]

theorem reportLoop_eq_run (s : ReportSys cfg) (answers : List (Bool × ReportBuf cfg.bufferChars)) :
    s.reportLoop answers = s.run (loopEvents answers) := by
  induction answers generalizing s with
  | nil => rfl
  | cons a rest ih =>
    obtain ⟨ok, buf⟩ := a
    by_cases hc : s.reportCount < cfg.queueLength
    · cases ok <;> simp [reportLoop, loopEvents, step, hc, ih]
    · cases ok <;> simp [reportLoop, loopEvents, step, hc, makeReport_of_full (Int.not_lt.1 hc),
        run_loopEvents_of_full (Int.not_lt.1 hc)]

/-- The report part of a `DoPolling` cycle is a run of the actions. -/
theorem reportSection_eq_run (s : ReportSys cfg)
    (answers : List (List (Bool × ReportBuf cfg.bufferChars))) :
    s.reportSection answers = s.run (.sendPending :: (answers.map loopEvents).flatten) := by
  unfold reportSection generateReports
  show answers.foldl reportLoop s.sendPending = s.sendPending.run _
  generalize s.sendPending = s'
  induction answers generalizing s' with
  | nil => rfl
  | cons a rest ih =>
    simp only [List.foldl_cons, List.map_cons, List.flatten_cons, run_append, reportLoop_eq_run, ih]

end ReportSys

end NeurAvr
