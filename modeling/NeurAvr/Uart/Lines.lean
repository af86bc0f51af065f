import NeurAvr.Uart.RecvInv
import NeurAvr.CString

/-!
# Lines delivered by the receive ring

The ring of `RecvInv` read at the level of lines. `LineSpec` is the service it implements: the
reference framing of the byte stream (`frameStep`: a terminator is CR, or LF not right after CR)
feeding a FIFO of complete lines, a line dropped when it is empty while filtering is on
(`Verdict.emptyFiltered`) or when the ring already holds `UART_LINE_COUNT - 1` complete lines
(`Verdict.full`). `Consumer` is the main loop as `DoPolling` uses the ring: `UART_GetNextLine`
when it holds no line, a read of the C string there, `UART_DoneWithLine` when it is done.

`Sim` relates the two: the complete slots read as C strings are the spec's pending lines cut to
`UART_LINE_SIZE - 1` bytes and at their first NUL (`truncLine`), and the slot in progress holds
the first bytes of the spec's line in progress. `Sim.step` proves that every action keeps it.
-/

namespace NeurAvr

/-- The received bytes of a run. -/
def recvBytes : List RecvEv → List UInt8 :=
  List.filterMap fun | .recvChar c => some c | _ => none

/-! ### Reference framing -/

/-- One byte of the reference framing of a stream, on (complete lines, line in progress,
previous byte was CR): a terminator is CR, or LF not immediately after CR; an LF right after a CR
is dropped; every other byte extends the line in progress. -/
def frameStep (st : List (List UInt8) × List UInt8 × Bool) (c : UInt8) :
    List (List UInt8) × List UInt8 × Bool :=
  if c == CR || (c == LF && !st.2.2) then (st.1 ++ [st.2.1], [], c == CR)
  else if c == LF then (st.1, st.2.1, false)
  else (st.1, st.2.1 ++ [c], false)

/-- The complete lines of a byte stream under the reference framing. -/
def frameLines (bs : List UInt8) : List (List UInt8) :=
  (bs.foldl frameStep ([], [], false)).1

/-! ### The line service -/

/-- What happened to a reference line when its terminator arrived. -/
inductive Verdict
  | kept
  | emptyFiltered
  | full
deriving Repr, DecidableEq

variable (cfg : UartConfig)

/-- What the consumer can read of a line: its first `UART_LINE_SIZE - 1` bytes, cut at a NUL. -/
def truncLine (l : List UInt8) : List UInt8 := cstr (l.take (cfg.lineSize - 1))

/-- The line service: complete lines not yet taken (`queue`), the line the consumer holds, the
line in progress in full, the CR flag and the filter, and as history every reference line with
its verdict (`log`) and every line handed to the consumer (`reads`). -/
structure LineSpec where
  queue : List (List UInt8)
  held : Option (List UInt8)
  cur : List UInt8
  prevCr : Bool
  filter : Bool
  log : List (List UInt8 × Verdict)
  reads : List (List UInt8)

namespace LineSpec

/-- The service after power-on and `UART_InitBuffers_ISR`. -/
def init : LineSpec := ⟨[], none, [], false, false, [], []⟩

/-- The complete lines still in the service: the held one, then the queue. -/
def pending (a : LineSpec) : List (List UInt8) := a.held.toList ++ a.queue

/-- A terminator: the line in progress is dropped if it is empty while filtering is on, or if
`UART_LINE_COUNT - 1` complete lines are pending; otherwise it joins the queue. -/
def endLine (a : LineSpec) : LineSpec :=
  let v := if a.filter && a.cur.isEmpty then Verdict.emptyFiltered
    else if a.pending.length = cfg.lineCount - 1 then Verdict.full else Verdict.kept
  { a with queue := if v = .kept then a.queue ++ [a.cur] else a.queue, cur := []
           log := a.log ++ [(a.cur, v)] }

/-- A received byte, framed as `frameStep` frames it. -/
def recvChar (a : LineSpec) (c : UInt8) : LineSpec :=
  let a' := if c == CR || (c == LF && !a.prevCr) then endLine cfg a
    else if c == LF then a else { a with cur := a.cur ++ [c] }
  { a' with prevCr := c == CR }

/-- The consumer takes the oldest line if it holds none. -/
def take (a : LineSpec) : LineSpec :=
  match a.held, a.queue with
  | none, l :: q => { a with held := some l, queue := q, reads := a.reads ++ [l] }
  | _, _ => a

/-- The consumer is done with the line it holds. -/
def release (a : LineSpec) : LineSpec := { a with held := none }

def step (a : LineSpec) : RecvEv → LineSpec
  | .recvChar c => recvChar cfg a c
  | .getNextLine => take a
  | .doneWithLine => release a
  | .setLineFiltering b => { a with filter := b }

def run (a : LineSpec) (evs : List RecvEv) : LineSpec := evs.foldl (step cfg) a

end LineSpec

/-! ### The main loop as consumer -/

/-- The receive state with the main loop's side: whether it holds a line and the strings it has
read. -/
structure Consumer where
  rx : RecvState
  holding : Bool
  reads : List (List UInt8)

namespace Consumer

/-- Power-on: `saw_cr` is `false`, memory is arbitrary, then `UART_InitBuffers_ISR` runs. -/
def powerOn (mem : Nat → UInt8) : Consumer :=
  ⟨RecvState.initBuffersISR cfg ⟨mem, 0, 0, 0, 0, false, false⟩, false, []⟩

/-- One action: the RX interrupt, `UART_GetNextLine` and a read of the C string it returns (only
when no line is held), `UART_DoneWithLine` (only for a held line), `UART_SetLineFiltering`. -/
def step (m : Consumer) : RecvEv → Consumer
  | .recvChar c => { m with rx := (RecvState.handleRecvCharISR cfg m.rx c).1 }
  | .getNextLine =>
    if m.holding then m else
    match RecvState.getNextLine cfg m.rx with
    | some p => { m with holding := true,
                         reads := m.reads ++ [readCStr m.rx.recvlines p cfg.lineSize] }
    | none => m
  | .doneWithLine =>
    if m.holding then { m with rx := RecvState.doneWithLine cfg m.rx, holding := false } else m
  | .setLineFiltering b => { m with rx := RecvState.setLineFiltering m.rx b }

def run (m : Consumer) (evs : List RecvEv) : Consumer := evs.foldl (step cfg) m

end Consumer

/-- The complete lines of the ring, oldest first, as the C strings of their slots. -/
def pendingLines (s : RecvState) : List (List UInt8) :=
  (List.range s.rowcount).map fun k =>
    readCStr s.recvlines (slotBase cfg ((s.oldestrow + k) % cfg.lineCount)) cfg.lineSize

variable {cfg}

theorem pendingLines_handleRecvCharISR {s : RecvState} (h : RecvInv cfg s) (c : UInt8) :
    pendingLines cfg (RecvState.handleRecvCharISR cfg s c).1 = pendingLines cfg s ++
      (List.range ((RecvState.handleRecvCharISR cfg s c).1.rowcount - s.rowcount)).map fun i =>
        readCStr (RecvState.handleRecvCharISR cfg s c).1.recvlines
          (slotBase cfg ((s.oldestrow + (s.rowcount + i)) % cfg.lineCount)) cfg.lineSize := by
  have hr : s.rowcount ≤ (RecvState.handleRecvCharISR cfg s c).1.rowcount :=
    RecvState.rowcount_le_handleRecvCharISR c
  rw [pendingLines, ← Nat.add_sub_cancel' hr, List.range_add, List.map_append, List.map_map,
    Nat.add_sub_cancel' hr, RecvState.handleRecvCharISR_oldestrow]
  congr 1
  exact List.map_congr_left fun k hk => readCStr_congr fun j hj =>
    h.complete_addr_handleRecvCharISR c (List.mem_range.1 hk) hj

theorem readCStr_terminateLine {s : RecvState} {cur : List UInt8}
    (hptr : s.recvcharptr = min cur.length cfg.lineSize)
    (hcur : ∀ j < s.recvcharptr, some (s.recvlines (slotBase cfg s.newestrow + j)) = cur[j]?)
    (hb : ¬ InSlot cfg s.newestrow (slotBase cfg (RecvState.terminateLine cfg s).1.newestrow)) :
    readCStr (RecvState.terminateLine cfg s).1.recvlines (slotBase cfg s.newestrow) cfg.lineSize =
      truncLine cfg cur := by
  have hsz := cfg.lineSize_pos
  set p := if s.recvcharptr ≥ cfg.lineSize then cfg.lineSize - 1 else s.recvcharptr with hp
  have hpl : p < cfg.lineSize ∧ p ≤ s.recvcharptr := by rw [hp]; split <;> omega
  have htake : cur.take p = cur.take (cfg.lineSize - 1) := by
    rw [hp]; split
    · rfl
    · rw [List.take_of_length_le (by omega), List.take_of_length_le (by omega)]
  have hlen : (cur.take p).length = p := by simp; omega
  show readCStr (Function.update (Function.update s.recvlines (slotBase cfg s.newestrow + p) 0)
    (slotBase cfg (RecvState.terminateLine cfg s).1.newestrow) 0) _ _ = _
  have hne : ∀ j < cfg.lineSize, slotBase cfg s.newestrow + j ≠
      slotBase cfg (RecvState.terminateLine cfg s).1.newestrow :=
    fun j hj he => hb (he ▸ inSlot_slotBase_add hj)
  rw [readCStr_congr fun j hj => Function.update_noteq (hne j hj) _ _, truncLine, ← htake]
  refine readCStr_eq_cstr (fun j hj => ?_) (by rw [hlen]; exact Function.update_same _ _ _)
    (by omega)
  rw [hlen] at hj
  rw [Function.update_noteq (by omega), List.getElem?_take_of_lt hj]
  exact hcur j (by omega)


/-! ### The simulation -/

variable (cfg) in
/-- The ring simulates the line service: the ring invariant, the same filter, the consumer holds a
line exactly when the service has one held, the complete slots read as the pending lines
truncated, the slot in progress holds the first bytes of the line in progress, and the consumer
has read the service's reads truncated. The CR flag is related apart (`Sim.step`). -/
structure Sim (m : Consumer) (a : LineSpec) : Prop where
  inv : RecvInv cfg m.rx
  filter : m.rx.uartFilterEmptyLines = a.filter
  holding : m.holding = a.held.isSome
  pending : pendingLines cfg m.rx = a.pending.map (truncLine cfg)
  ptr : m.rx.recvcharptr = min a.cur.length cfg.lineSize
  cur : ∀ j < m.rx.recvcharptr,
    some (m.rx.recvlines (slotBase cfg m.rx.newestrow + j)) = a.cur[j]?
  reads : m.reads = a.reads.map (truncLine cfg)

theorem length_pendingLines (cfg : UartConfig) (s : RecvState) : (pendingLines cfg s).length = s.rowcount := by
  simp [pendingLines]

theorem pendingLines_of_recvBody {s s₁ : RecvState} {w : List Nat} (h : RecvInv cfg s) {c : UInt8}
    (hb : RecvState.recvBody cfg s c = (s₁, w)) :
    pendingLines cfg s₁ = pendingLines cfg s ++
      (List.range (s₁.rowcount - s.rowcount)).map fun i =>
        readCStr s₁.recvlines (slotBase cfg ((s.oldestrow + (s.rowcount + i)) % cfg.lineCount))
          cfg.lineSize := by
  have := pendingLines_handleRecvCharISR h c
  rw [show RecvState.handleRecvCharISR cfg s c = ({ s₁ with sawCr := c == CR }, w) by
    rw [RecvState.handleRecvCharISR, hb]] at this
  exact this

namespace Sim
variable {m : Consumer} {a : LineSpec}

theorem rowcount_eq (h : Sim cfg m a) : m.rx.rowcount = a.pending.length := by
  rw [← length_pendingLines cfg, h.pending, List.length_map]

theorem setCr {x : RecvState} {hold : Bool} {rd : List (List UInt8)} {y : LineSpec}
    (h : Sim cfg ⟨x, hold, rd⟩ y) (b b' : Bool) :
    Sim cfg ⟨{ x with sawCr := b }, hold, rd⟩ { y with prevCr := b' } :=
  ⟨⟨h.inv.1, h.inv.2, h.inv.3, h.inv.4, h.inv.5⟩, h.filter, h.holding, h.pending, h.ptr, h.cur,
    h.reads⟩

theorem filtered (h : Sim cfg m a) (hf : m.rx.uartFilterEmptyLines = true)
    (hp0 : m.rx.recvcharptr = 0) : Sim cfg ⟨m.rx, m.holding, m.reads⟩ (LineSpec.endLine cfg a) := by
  have hc : a.cur = [] := by
    have := h.ptr; have := cfg.lineSize_pos; rw [hp0] at *
    exact List.eq_nil_of_length_eq_zero (by omega)
  have hv : (a.filter && a.cur.isEmpty) = true := by simp [← h.filter, hf, hc]
  simp only [LineSpec.endLine, hv, if_true]
  exact ⟨h.inv, h.filter, h.holding, h.pending, by simp [hp0],
    fun j (hj : j < m.rx.recvcharptr) => by omega, h.reads⟩


theorem terminate (h : Sim cfg m a) {c : UInt8}
    (hb : RecvState.recvBody cfg m.rx c = RecvState.terminateLine cfg m.rx)
    (hnf : ¬(a.filter && a.cur.isEmpty) = true) :
    Sim cfg ⟨(RecvState.terminateLine cfg m.rx).1, m.holding, m.reads⟩ (LineSpec.endLine cfg a) := by
  have hpend := pendingLines_of_recvBody h.inv (hb.trans Prod.mk.eta.symm)
  have hnf' : (a.filter && a.cur.isEmpty) = false := by simpa using hnf
  have hinv := h.inv.terminateLine
  have hle := h.inv.rowcount_le
  have hcr := h.rowcount_eq
  have hptr0 : (RecvState.terminateLine cfg m.rx).1.recvcharptr = 0 := rfl
  by_cases hfull : m.rx.rowcount < cfg.lineCount - 1
  · have hv : a.pending.length ≠ cfg.lineCount - 1 := by omega
    have hrc : (RecvState.terminateLine cfg m.rx).1.rowcount = m.rx.rowcount + 1 := by
      simp [RecvState.terminateLine, hfull]
    have hnr : (RecvState.terminateLine cfg m.rx).1.newestrow = (m.rx.newestrow + 1) % cfg.lineCount := by
      simp [RecvState.terminateLine, hfull, mask_succ]
    have hnew : readCStr (RecvState.terminateLine cfg m.rx).1.recvlines (slotBase cfg m.rx.newestrow)
        cfg.lineSize = truncLine cfg a.cur := by
      refine readCStr_terminateLine h.ptr h.cur fun hin => ?_
      have h1 : (RecvState.terminateLine cfg m.rx).1.newestrow = m.rx.newestrow :=
        (inSlot_slotBase _).symm.trans hin
      rw [hnr, h.inv.newest_eq, Nat.mod_add_mod] at h1
      exact mod_add_ne_mod_add (o := m.rx.oldestrow) (Nat.lt_succ_self m.rx.rowcount) (by omega) h1.symm
    simp only [LineSpec.endLine, hnf', hv, Bool.false_eq_true, ↓reduceIte]
    refine ⟨hinv, h.filter, h.holding, ?_, by simp [hptr0], fun j hj => ?_, h.reads⟩
    · rw [hpend, hrc, Nat.add_sub_cancel_left, h.pending, show List.range 1 = [0] from rfl, List.map_singleton,
        Nat.add_zero, ← h.inv.newest_eq, hnew]
      simp [LineSpec.pending]
    · exact absurd (hptr0 ▸ hj : j < 0) (Nat.not_lt_zero _)
  · have hv : a.pending.length = cfg.lineCount - 1 := by omega
    have hrc : (RecvState.terminateLine cfg m.rx).1.rowcount = m.rx.rowcount := by
      simp [RecvState.terminateLine, hfull]
    simp only [LineSpec.endLine, hnf', hv, Bool.false_eq_true, ↓reduceIte]
    refine ⟨hinv, h.filter, h.holding, ?_, by simp [hptr0], fun j hj => ?_, h.reads⟩
    · rw [hpend, hrc, Nat.sub_self, h.pending]
      simp [LineSpec.pending]
    · exact absurd (hptr0 ▸ hj : j < 0) (Nat.not_lt_zero _)


theorem append (h : Sim cfg m a) {c : UInt8}
    (hb : RecvState.recvBody cfg m.rx c = RecvState.appendChar cfg m.rx c) :
    Sim cfg ⟨(RecvState.appendChar cfg m.rx c).1, m.holding, m.reads⟩
      { a with cur := a.cur ++ [c] } := by
  have hpend := pendingLines_of_recvBody h.inv (hb.trans Prod.mk.eta.symm)
  have hinv := h.inv.appendChar c
  have hptr := h.ptr
  by_cases hp : m.rx.recvcharptr < cfg.lineSize
  · have hs : RecvState.appendChar cfg m.rx c = ({ m.rx with
        recvlines := Function.update m.rx.recvlines (slotBase cfg m.rx.newestrow + m.rx.recvcharptr) c,
        recvcharptr := m.rx.recvcharptr + 1 }, [slotBase cfg m.rx.newestrow + m.rx.recvcharptr]) :=
      if_pos hp
    rw [hs] at hpend hinv ⊢
    have hlen : m.rx.recvcharptr = a.cur.length := by omega
    refine ⟨hinv, h.filter, h.holding, ?_, by simp; omega, fun j hj => ?_, h.reads⟩
    · rw [hpend]; simpa using h.pending
    · simp only at hj ⊢
      rcases Nat.lt_succ_iff_lt_or_eq.1 hj with hj | rfl
      · rw [Function.update_noteq (by omega), List.getElem?_append_left (by omega)]
        exact h.cur j hj
      · rw [Function.update_same, hlen, List.getElem?_concat_length]
  · have hs : RecvState.appendChar cfg m.rx c = (m.rx, []) := if_neg hp
    rw [hs]
    have hlen : cfg.lineSize ≤ a.cur.length := by omega
    refine ⟨h.inv, h.filter, h.holding, h.pending, by simp; omega, fun j hj => ?_, h.reads⟩
    rw [List.getElem?_append_left (by simp only at hj; omega)]
    exact h.cur j hj


theorem terminator (h : Sim cfg m a) {c : UInt8}
    (hb : RecvState.recvBody cfg m.rx c = if m.rx.uartFilterEmptyLines && m.rx.recvcharptr == 0
      then (m.rx, []) else RecvState.terminateLine cfg m.rx) :
    Sim cfg ⟨(RecvState.recvBody cfg m.rx c).1, m.holding, m.reads⟩ (LineSpec.endLine cfg a) := by
  by_cases hf : (m.rx.uartFilterEmptyLines && m.rx.recvcharptr == 0) = true
  · rw [hb, if_pos hf]
    simp only [Bool.and_eq_true, beq_iff_eq] at hf
    exact h.filtered hf.1 hf.2
  · rw [if_neg hf] at hb
    rw [hb]
    refine h.terminate hb fun hc => hf ?_
    simp only [Bool.and_eq_true, List.isEmpty_iff, beq_iff_eq] at hc ⊢
    exact ⟨h.filter.trans hc.1, by rw [h.ptr, hc.2]; simp⟩

theorem recvChar (h : Sim cfg m a) (hcr : m.rx.sawCr = a.prevCr) (c : UInt8) :
    Sim cfg (m.step cfg (.recvChar c)) (a.step cfg (.recvChar c)) := by
  refine Sim.setCr (x := (RecvState.recvBody cfg m.rx c).1) (y :=
    if c == CR || (c == LF && !a.prevCr) then LineSpec.endLine cfg a
    else if c == LF then a else { a with cur := a.cur ++ [c] }) ?_ (c == CR) (c == CR)
  by_cases hLF : c = LF
  · subst hLF
    cases hp : a.prevCr
    · have hb : RecvState.recvBody cfg m.rx LF = if m.rx.uartFilterEmptyLines && m.rx.recvcharptr == 0
          then (m.rx, []) else RecvState.terminateLine cfg m.rx := by
        simp [RecvState.recvBody, hcr, hp]
      simpa [CR_ne_LF.symm] using h.terminator hb
    · have hb : RecvState.recvBody cfg m.rx LF = (m.rx, []) := by simp [RecvState.recvBody, hcr, hp]
      simpa [CR_ne_LF.symm, hb] using h
  · by_cases hCR : c = CR
    · subst hCR
      have hb : RecvState.recvBody cfg m.rx CR = if m.rx.uartFilterEmptyLines && m.rx.recvcharptr == 0
          then (m.rx, []) else RecvState.terminateLine cfg m.rx := by
        simp [RecvState.recvBody, CR_ne_LF]
      simpa using h.terminator hb
    · have hb : RecvState.recvBody cfg m.rx c = RecvState.appendChar cfg m.rx c := by
        simp [RecvState.recvBody, hCR, hLF]
      rw [hb]
      simpa [hCR, hLF] using h.append hb

end Sim

theorem pendingLines_doneWithLine (cfg : UartConfig) {s : RecvState} (hr : 0 < s.rowcount) :
    pendingLines cfg (RecvState.doneWithLine cfg s) = (pendingLines cfg s).tail := by
  obtain ⟨r, hr'⟩ : ∃ r, s.rowcount = r + 1 := ⟨s.rowcount - 1, by omega⟩
  rw [RecvState.doneWithLine, if_pos hr]
  simp only [pendingLines, hr', List.range_succ_eq_map, List.map_cons, List.tail_cons,
    List.map_map, mask_succ, Nat.add_sub_cancel]
  refine List.map_congr_left fun k _ => ?_
  simp only [Function.comp, Nat.mod_add_mod]
  congr 3; omega

namespace Sim
variable {m : Consumer} {a : LineSpec}

theorem take (h : Sim cfg m a) : Sim cfg (m.step cfg .getNextLine) (a.step cfg .getNextLine) := by
  simp only [Consumer.step, LineSpec.step, LineSpec.take]
  cases hh : a.held with
  | some l => simpa [h.holding, hh] using h
  | none =>
    have hm : m.holding = false := by simpa [hh] using h.holding
    have hpend := h.pending
    simp only [LineSpec.pending, hh, Option.toList_none, List.nil_append] at hpend
    cases hq : a.queue with
    | nil =>
      have : RecvState.getNextLine cfg m.rx = none := by
        simp [RecvState.getNextLine, ← length_pendingLines cfg, hpend, hq]
      simpa [hm, this] using h
    | cons l q =>
      rw [hq] at hpend
      obtain ⟨r, hr⟩ : ∃ r, m.rx.rowcount = r + 1 := ⟨q.length, by
        rw [← length_pendingLines cfg, hpend]; simp⟩
      have hget : RecvState.getNextLine cfg m.rx = some (slotBase cfg m.rx.oldestrow) := by
        simp [RecvState.getNextLine, hr]
      have hread : readCStr m.rx.recvlines (slotBase cfg m.rx.oldestrow) cfg.lineSize =
          truncLine cfg l := by
        have := congrArg List.head? hpend
        simp only [pendingLines, hr, List.range_succ_eq_map, List.map_cons, List.head?_cons,
          Nat.add_zero, Nat.mod_eq_of_lt h.inv.oldest_lt, Option.some.injEq] at this
        simpa using this
      simp only [hm, hget, Bool.false_eq_true, ↓reduceIte]
      refine ⟨h.inv, h.filter, rfl, ?_, h.ptr, h.cur, ?_⟩
      · simp [LineSpec.pending, hpend]
      · simp only [h.reads, hread, List.map_append, List.map_cons, List.map_nil]

theorem release (h : Sim cfg m a) :
    Sim cfg (m.step cfg .doneWithLine) (a.step cfg .doneWithLine) := by
  simp only [Consumer.step, LineSpec.step, LineSpec.release]
  cases hh : a.held with
  | none =>
    have hm : m.holding = false := by simpa [hh] using h.holding
    obtain ⟨q, hd, c, p, f, lg, rd⟩ := a
    simp only at hh; subst hh
    simpa [hm] using h
  | some l =>
    have hm : m.holding = true := by simpa [hh] using h.holding
    have hpend := h.pending
    simp only [LineSpec.pending, hh, Option.toList_some, List.singleton_append] at hpend
    have hr : 0 < m.rx.rowcount := by
      rw [← length_pendingLines cfg, hpend]; simp
    have hinv := h.inv.doneWithLine
    have hpd := pendingLines_doneWithLine cfg hr
    simp only [hm, ↓reduceIte]
    rw [RecvState.doneWithLine, if_pos hr] at hinv hpd ⊢
    refine ⟨hinv, h.filter, rfl, ?_, h.ptr, h.cur, h.reads⟩
    rw [hpd, hpend]; simp [LineSpec.pending]

theorem setLineFiltering (h : Sim cfg m a) (b : Bool) :
    Sim cfg (m.step cfg (.setLineFiltering b)) (a.step cfg (.setLineFiltering b)) :=
  ⟨h.inv.setLineFiltering b, rfl, h.holding, h.pending, h.ptr, h.cur, h.reads⟩

end Sim

namespace Sim
variable {m : Consumer} {a : LineSpec}

theorem step_rx_getNextLine : (m.step cfg .getNextLine).rx = m.rx := by
  simp only [Consumer.step]; split
  · rfl
  · split <;> rfl

theorem step_prevCr_getNextLine : (a.step cfg .getNextLine).prevCr = a.prevCr := by
  simp only [LineSpec.step, LineSpec.take]; split <;> rfl

theorem step_rx_doneWithLine_sawCr : (m.step cfg .doneWithLine).rx.sawCr = m.rx.sawCr := by
  simp only [Consumer.step, RecvState.doneWithLine]; split
  · split <;> rfl
  · rfl

/-- Every action keeps the simulation and the CR flags equal. -/
theorem step (h : Sim cfg m a) (hcr : m.rx.sawCr = a.prevCr) (e : RecvEv) :
    Sim cfg (m.step cfg e) (a.step cfg e) ∧ (m.step cfg e).rx.sawCr = (a.step cfg e).prevCr := by
  cases e with
  | recvChar c => exact ⟨h.recvChar hcr c, rfl⟩
  | getNextLine => exact ⟨h.take, by rw [step_rx_getNextLine, step_prevCr_getNextLine, hcr]⟩
  | doneWithLine => exact ⟨h.release, by rw [step_rx_doneWithLine_sawCr, hcr]; rfl⟩
  | setLineFiltering b => exact ⟨h.setLineFiltering b, hcr⟩

theorem run (h : Sim cfg m a) (hcr : m.rx.sawCr = a.prevCr) (evs : List RecvEv) :
    Sim cfg (m.run cfg evs) (a.run cfg evs) ∧ (m.run cfg evs).rx.sawCr = (a.run cfg evs).prevCr := by
  induction evs generalizing m a with
  | nil => exact ⟨h, hcr⟩
  | cons e evs ih => exact ih (h.step hcr e).1 (h.step hcr e).2

theorem powerOn (cfg : UartConfig) (mem : Nat → UInt8) : Sim cfg (Consumer.powerOn cfg mem) LineSpec.init :=
  ⟨recvInv_initBuffersISR _, rfl, rfl, rfl, (Nat.zero_min _).symm,
    fun _ hj => absurd hj (Nat.not_lt_zero _), rfl⟩

end Sim

/-! ### The service against the reference framing -/

namespace LineSpec

/-- The framing state the service carries: its lines so far, the line in progress, the CR flag. -/
def framing (a : LineSpec) : List (List UInt8) × List UInt8 × Bool :=
  (a.log.map Prod.fst, a.cur, a.prevCr)

theorem framing_step (a : LineSpec) (e : RecvEv) :
    (a.step cfg e).framing = (recvBytes [e]).foldl frameStep a.framing := by
  cases e with
  | recvChar c =>
    simp only [step, recvChar, recvBytes, List.filterMap_cons, List.filterMap_nil, List.foldl,
      frameStep, framing]
    split
    · simp [endLine]
    · split
      · simp_all
      · next h1 h2 => simp_all
  | getNextLine => simp only [step, take, recvBytes]; split <;> rfl
  | doneWithLine => rfl
  | setLineFiltering b => rfl

theorem framing_run (a : LineSpec) (evs : List RecvEv) :
    (a.run cfg evs).framing = (recvBytes evs).foldl frameStep a.framing := by
  induction evs generalizing a with
  | nil => rfl
  | cons e evs ih =>
    rw [run, List.foldl_cons, ← run, ih, framing_step,
      show recvBytes (e :: evs) = recvBytes [e] ++ recvBytes evs by
        cases e <;> simp [recvBytes], List.foldl_append]

/-- The history of the service: the consumer has read and the queue holds exactly the kept lines,
in order, and only empty lines are dropped by the filter. -/
structure Hist (a : LineSpec) : Prop where
  kept : a.reads ++ a.queue = (a.log.filter (·.2 == .kept)).map Prod.fst
  empty : ∀ e ∈ a.log, e.2 = .emptyFiltered → e.1 = []

theorem Hist.step {a : LineSpec} (h : Hist a) (e : RecvEv) : Hist (a.step cfg e) := by
  obtain ⟨hk, he⟩ := h
  cases e with
  | recvChar c =>
    simp only [LineSpec.step, recvChar]
    split
    · simp only [endLine]
      have hnew : ∀ v, (v = .emptyFiltered → a.cur = []) →
          ∀ e ∈ a.log ++ [(a.cur, v)], e.2 = .emptyFiltered → e.1 = [] := fun v hv e he' =>
        (List.mem_append.1 he').elim (he e) fun h' => by
          rw [List.mem_singleton.1 h']; exact hv
      by_cases h1 : (a.filter && a.cur.isEmpty) = true
      · have hc : a.cur = [] := by simp [List.isEmpty_iff] at h1; exact h1.2
        simp only [h1, ↓reduceIte, reduceCtorEq]
        exact ⟨by simpa [List.filter_append] using hk, hnew _ fun _ => hc⟩
      · by_cases h2 : a.pending.length = cfg.lineCount - 1
        · simp only [h1, h2, ↓reduceIte, reduceCtorEq, Bool.false_eq_true]
          exact ⟨by simpa [List.filter_append] using hk, hnew _ fun h => by cases h⟩
        · simp only [h1, h2, ↓reduceIte, Bool.false_eq_true]
          exact ⟨by simp [List.filter_append, ← hk], hnew _ fun h => by cases h⟩
    · split <;> exact ⟨hk, he⟩
  | getNextLine =>
    simp only [LineSpec.step, take]
    split
    · next l q hh hq => exact ⟨by rw [← hk, hq]; simp, he⟩
    · exact ⟨hk, he⟩
  | doneWithLine => exact ⟨hk, he⟩
  | setLineFiltering b => exact ⟨hk, he⟩

theorem Hist.run {a : LineSpec} (h : Hist a) (evs : List RecvEv) : Hist (a.run cfg evs) := by
  induction evs generalizing a with
  | nil => exact h
  | cons e evs ih => exact ih (h.step e)

end LineSpec

/-- The lines the main loop reads from the receive ring. Feed any byte stream from power-on,
interleaved with any `UART_GetNextLine` / `UART_DoneWithLine` pairs and filter changes. The
service `LineSpec` frames the stream exactly as the reference framing does; the strings the
consumer has read, followed by the complete lines still waiting in the ring, are the lines the
service kept, in order and once each, each cut to `UART_LINE_SIZE - 1` bytes and at its first
NUL; a line the filter dropped is empty; and at every point of the run the service's count of
pending lines and its filter flag are the ring's `rowcount` and `uart_filter_empty_lines`, so a
line is dropped as `full` exactly when its terminator arrives at `rowcount = UART_LINE_COUNT - 1`. -/
theorem recv_lines_delivered (mem : Nat → UInt8) (evs : List RecvEv) :
    let m := Consumer.run cfg (Consumer.powerOn cfg mem) evs
    let a := LineSpec.run cfg LineSpec.init evs
    a.log.map Prod.fst = frameLines (recvBytes evs) ∧
    m.reads ++ (pendingLines cfg m.rx).drop (if m.holding then 1 else 0) =
      ((a.log.filter (·.2 == .kept)).map Prod.fst).map (truncLine cfg) ∧
    (∀ e ∈ a.log, e.2 = .emptyFiltered → e.1 = []) ∧
    ∀ n, (Consumer.run cfg (Consumer.powerOn cfg mem) (evs.take n)).rx.rowcount =
        (LineSpec.run cfg LineSpec.init (evs.take n)).pending.length ∧
      (Consumer.run cfg (Consumer.powerOn cfg mem) (evs.take n)).rx.uartFilterEmptyLines =
        (LineSpec.run cfg LineSpec.init (evs.take n)).filter := by
  intro m a
  have hs := ((Sim.powerOn cfg mem).run rfl evs).1
  have hh : LineSpec.Hist (LineSpec.run cfg LineSpec.init evs) :=
    (⟨rfl, fun _ h => absurd h (List.not_mem_nil _)⟩ : LineSpec.Hist LineSpec.init).run evs
  refine ⟨congrArg Prod.fst (LineSpec.framing_run LineSpec.init evs), ?_, hh.empty, fun n => ?_⟩
  · rw [hs.pending, hs.reads, ← hh.kept, hs.holding, List.map_append]
    rcases hc : (LineSpec.run cfg LineSpec.init evs).held with _ | l <;> simp [LineSpec.pending, hc]
  · have hn := ((Sim.powerOn cfg mem).run rfl (evs.take n)).1
    exact ⟨hn.rowcount_eq, hn.filter⟩

/-! ### `UART_InitBuffers_ISR` from a running state -/

namespace Consumer

variable (cfg) in
/-- `UART_InitBuffers_ISR` from any receive state, the main loop holding no line. Power-on is the
case of the zero state. -/
def reinit (s : RecvState) : Consumer := ⟨RecvState.initBuffersISR cfg s, false, []⟩

end Consumer

/-- The actions with the first received byte dropped when it is LF. -/
def skipLF : List RecvEv → List RecvEv
  | [] => []
  | .recvChar c :: evs => if c = LF then evs else .recvChar c :: evs
  | e :: evs => e :: skipLF evs

theorem Sim.reinit (s : RecvState) (b : Bool) :
    Sim cfg (Consumer.reinit cfg s) { LineSpec.init with prevCr := b } :=
  ⟨recvInv_initBuffersISR _, rfl, rfl, rfl, (Nat.zero_min _).symm,
    fun _ hj => absurd hj (Nat.not_lt_zero _), rfl⟩

namespace LineSpec

/-- The service with its CR flag cleared. -/
def forgetCr (a : LineSpec) : LineSpec := { a with prevCr := false }

theorem eq_forgetCr {a : LineSpec} (ha : a.prevCr = false) : a = a.forgetCr := by
  cases a; simp_all [forgetCr]

theorem recvChar_prevCr {a : LineSpec} {c : UInt8} (hc : c ≠ LF) (b : Bool) :
    recvChar cfg { a with prevCr := b } c = recvChar cfg a c := by
  have hc' : (c == LF) = false := by simpa using hc
  simp only [recvChar, hc', Bool.false_and, Bool.or_false, Bool.false_eq_true, if_false]
  split_ifs <;> rfl

theorem run_prevCr {a : LineSpec} (ha : a.prevCr = false) (evs : List RecvEv) :
    (run cfg { a with prevCr := true } evs).forgetCr = (run cfg a (skipLF evs)).forgetCr := by
  induction evs generalizing a with
  | nil => rfl
  | cons e evs ih =>
    cases e with
    | recvChar c =>
      by_cases hc : c = LF
      · subst hc
        have : step cfg { a with prevCr := true } (.recvChar LF) = a := by
          rw [eq_forgetCr ha]; simp [step, recvChar, forgetCr, CR_ne_LF.symm]
        simp only [run, List.foldl_cons, skipLF, if_true] at ih ⊢
        rw [this]
      · have : step cfg { a with prevCr := true } (.recvChar c) = step cfg a (.recvChar c) :=
          recvChar_prevCr hc true
        simp only [run, List.foldl_cons, skipLF, hc, if_false, this]
    | getNextLine =>
      have h := ih (a := a.take) (by simp only [take]; split <;> exact ha)
      have : step cfg { a with prevCr := true } .getNextLine = { a.take with prevCr := true } := by
        simp only [step, take]; split <;> rfl
      simpa only [run, List.foldl_cons, skipLF, this] using h
    | doneWithLine => exact ih (a := a.release) ha
    | setLineFiltering b => exact ih (a := { a with filter := b }) ha

end LineSpec

/-- Over every receive state and every run after `UART_InitBuffers_ISR`: the main loop reads, holds
and finds pending the lines it would after power-on, on the same actions when the state's last byte
was not CR, and with a leading LF dropped when it was. `saw_cr` is a static of
`UART_HandleRecvChar_ISR` that `UART_InitBuffers_ISR` does not reset. -/
theorem initBuffersISR_lines (s : RecvState) (mem : Nat → UInt8) (evs : List RecvEv) :
    let m := Consumer.run cfg (Consumer.reinit cfg s) evs
    let m₀ := Consumer.run cfg (Consumer.powerOn cfg mem) (if s.sawCr then skipLF evs else evs)
    m.reads = m₀.reads ∧ m.holding = m₀.holding ∧ pendingLines cfg m.rx = pendingLines cfg m₀.rx := by
  intro m m₀
  obtain ⟨hs, -⟩ := (Sim.reinit s s.sawCr).run rfl evs
  obtain ⟨hs₀, -⟩ := (Sim.powerOn cfg mem).run rfl (if s.sawCr then skipLF evs else evs)
  have hsame : (LineSpec.run cfg { LineSpec.init with prevCr := s.sawCr } evs).forgetCr =
      (LineSpec.run cfg LineSpec.init (if s.sawCr then skipLF evs else evs)).forgetCr := by
    cases s.sawCr
    · rfl
    · exact LineSpec.run_prevCr rfl evs
  have hr := congrArg LineSpec.reads hsame
  have hh := congrArg LineSpec.held hsame
  have hq := congrArg LineSpec.queue hsame
  simp only [LineSpec.forgetCr] at hr hh hq
  refine ⟨by rw [hs.reads, hs₀.reads, hr], by rw [hs.holding, hs₀.holding, hh], ?_⟩
  rw [hs.pending, hs₀.pending, LineSpec.pending, LineSpec.pending, hh, hq]

/-- After a CR, `UART_InitBuffers_ISR` and then an LF: no line, where power-on and the same LF give
one empty line. -/
theorem initBuffersISR_after_cr :
    let s := (Consumer.run m328p (Consumer.powerOn m328p fun _ => 0) [.recvChar CR]).rx
    pendingLines m328p (Consumer.run m328p (Consumer.reinit m328p s) [.recvChar LF]).rx = [] ∧
      pendingLines m328p (Consumer.run m328p (Consumer.powerOn m328p fun _ => 0) [.recvChar LF]).rx =
        [[]] := by
  decide

end NeurAvr
