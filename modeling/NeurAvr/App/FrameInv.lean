import Mathlib.Data.List.GetD
import NeurAvr.App.FrameCheck

/-!
# Stores into the buffer in flight

A buffer handed to `UART_QueueSend` is read by the transmit interrupt until its NUL, so nothing may
store into it at or beyond the cursor before then. `ReInitState` breaks this for the report queue:
it stores the NUL at the head of every report slot (`reportqueue[hidx][0] = 0`) and only then calls
`UART_WaitForSendDone`. When the slot in flight has not begun to go out, the store lands at the
cursor and the report is lost (`resetReportQueue_cuts_inflight`). With echo off, `INI` reaches this
point while the report that the previous `DoPolling` call queued is still waiting for the UART
(`resetReportQueue_cuts_inflight_ini`); with echo on, the echo waits for it first.

Nothing else does. `FrameInv` holds of every state reached from power-on (`frameInv_runSys`): the
receive ring's and the report queue's invariants, `frameSafe` of the operations still to run,
and that a line in flight is the oldest complete one. `FrameSys.writes` is the footprint of an
event (`byte_step`: every other byte keeps its value), and `FrameInv.writes_ahead` says that a
store into the text still to send is that report reset and nothing else. As a consequence the
transmit stream only grows, but at that reset (`FrameInv.stream_step`).
-/

namespace NeurAvr

variable {cfg : UartConfig} {rc : ReportConfig}

namespace FrameSys

theorem content_resetReportQueue (x : FrameSys cfg rc) (ops : List (Op rc.bufferChars)) {k : Int}
    (hk : 0 ≤ k ∧ k < rc.queueLength) :
    (x.runOp ops .resetReportQueue).content (.report k) = (x.content (.report k)).set 0 0 := by
  simp [runOp, FrameSys.content, ReportSys.reInitState, hk, ReportBuf.clearFirst]

end FrameSys

open FrameSys

/-- From any state in which `ReInitState` is about to reset the report queue while report slot `k`
is in flight with nothing of it sent yet: the reset stores a NUL at the cursor of that slot, the
transmission is not over, the rest of the report vanishes from the stream, and the next run of
the transmit interrupt ends the transmission with nothing of the report on the wire. -/
theorem resetReportQueue_cuts_inflight (x : FrameSys cfg rc) (ops : List (Op rc.bufferChars))
    {k : Int} (hk : 0 ≤ k ∧ k < rc.queueLength) (hprog : x.prog = .resetReportQueue :: ops)
    (htx : x.tx = some (.report k, 0)) :
    let y := x.step .main
    y.prog = ops ∧ y.tx = some (.report k, 0) ∧
      y.content (.report k) = (x.content (.report k)).set 0 0 ∧
      x.stream = x.sent ++ cstr (x.content (.report k)) ∧ y.stream = x.sent ∧
      (y.step .udre).tx = none ∧ (y.step .udre).sent = x.sent := by
  intro y
  have hy : y = x.runOp ops .resetReportQueue := by
    show x.mainStep = _
    unfold mainStep; rw [hprog]
  have hc := x.content_resetReportQueue ops hk
  have hlen : 0 < (x.content (.report k)).length := by
    simp only [FrameSys.content, (x.app.reports.reportqueue k).length_eq]; exact rc.bufferChars_pos
  have h0 : (y.content (.report k)).getD 0 0 = 0 := by
    rw [hy, hc, List.getD_eq_getElem?_getD, List.getElem?_set_self hlen]; rfl
  have hytx : y.tx = some (.report k, 0) := by rw [hy]; exact htx
  have hcs : cstr (y.content (.report k)) = [] := by
    have := cstr_drop (y.content (.report k)) 0
    rwa [if_pos h0, List.drop_zero] at this
  have hsent : y.sent = x.sent := by rw [hy]; rfl
  refine ⟨by rw [hy]; rfl, hytx, hy ▸ hc, by simp [FrameSys.stream, FrameSys.inflight, htx], ?_, ?_, ?_⟩
  · simp [FrameSys.stream, FrameSys.inflight, hytx, hcs, hsent]
  · show y.udreISR.tx = none
    unfold udreISR; rw [hytx]; dsimp only; rw [if_pos h0]
  · show y.udreISR.sent = x.sent
    unfold udreISR; rw [hytx]; dsimp only; rw [if_pos h0]; exact hsent

set_option maxRecDepth 8000 in
/-- Reached from power-on (m328p, the stock queue of four 90-byte slots, one handler): the line
`ECH 0` turns echo off while the handler hands in the report `A`; the next `DoPolling` call queues
it; `INI` arrives before the UART has taken its first byte, and its `ReInitState` cuts it. -/
theorem resetReportQueue_cuts_inflight_ini :
    let report : ReportBuf neurapp.bufferChars := ⟨65 :: List.replicate 89 0, rfl⟩
    let withReport : Cycle neurapp := ⟨[⟨1, none⟩], [[(true, report)]], fun _ => []⟩
    let quiet : Cycle neurapp := ⟨[⟨1, none⟩], [], fun _ => []⟩
    let evs : List (SysEv neurapp) :=
      ([69, 67, 72, 32, 48, 13].map fun c => .ev (.recv c)) ++ [.poll withReport] ++
        (List.replicate 20 [SysEv.ev .main, .ev .udre]).flatten ++ [.poll quiet, .ev .main] ++
        ([73, 78, 73, 13].map fun c => .ev (.recv c)) ++ [.poll quiet]
    let x := (FrameSys.powerOn m328p neurapp).runSys evs
    let y := x.step .main
    x.prog = .resetReportQueue :: x.prog.tail ∧ x.tx = some (.report 0, 0) ∧
      cstr (x.content (.report 0)) = [65] ∧
      y.prog = x.prog.tail ∧ y.tx = some (.report 0, 0) ∧
      y.content (.report 0) = (x.content (.report 0)).set 0 0 ∧
      x.stream = x.sent ++ cstr (x.content (.report 0)) ∧ y.stream = x.sent ∧
      (y.step .udre).tx = none ∧ (y.step .udre).sent = x.sent := by
  intro report withReport quiet evs x y
  have hprog : x.prog = .resetReportQueue :: x.prog.tail := by decide
  have htx : x.tx = some (.report 0, 0) := by decide
  exact ⟨hprog, htx, by decide,
    resetReportQueue_cuts_inflight x x.prog.tail (by decide) hprog htx⟩

/-! ### The footprint of an event -/

/-- A byte the transmit interrupt can read: address `a` of `UART_recvlines`, byte `i` of report
slot `k`, of `scratchstr`, of `debug_string`. -/
inductive Loc
  | recv (a : Nat)
  | report (k : Int) (i : Nat)
  | scratch (i : Nat)
  | debug (i : Nat)
deriving Repr, DecidableEq

/-- Byte `l` is at or past the cursor `cur` of buffer `m`, so that the transmit interrupt has
still to read it; a line is read to the end of its row. -/
def Src.ahead (cfg : UartConfig) (cur : Nat) : Src → Loc → Bool
  | .line p, .recv a => p + cur ≤ a && a < p + cfg.lineSize
  | .report k, .report k' i => k == k' && cur ≤ i
  | .scratch, .scratch i => cur ≤ i
  | .debug, .debug i => cur ≤ i
  | _, _ => false

namespace FrameSys

/-- The byte at `l`. -/
def byte (x : FrameSys cfg rc) : Loc → UInt8
  | .recv a => x.rx.recvlines a
  | .report k i => (x.app.reports.reportqueue k).bytes.getD i 0
  | .scratch i => x.scratch.bytes.getD i 0
  | .debug i => x.debug.bytes.getD i 0

/-- The bytes operation `op` may store to: the byte it stores, the head of every report slot for
the report reset, the whole free slot for a `MakeReportString` call. -/
def opWrites (x : FrameSys cfg rc) : Op rc.bufferChars → List Loc
  | .storeScratch i _ => [.scratch i]
  | .storeDebug i _ => [.debug i]
  | .resetReportQueue => (List.range rc.queueLength).map fun k : Nat => .report (k : Int) 0
  | .makeReport _ _ =>
    if x.app.reports.reportCount < rc.queueLength then
      (List.range rc.bufferChars).map (.report x.app.reports.reportWritePtr)
    else []
  | _ => []

/-- The bytes event `e` may store to. -/
def writes (x : FrameSys cfg rc) : FrameEv → List Loc
  | .main =>
    match x.prog with
    | op :: _ => x.opWrites op
    | [] => []
  | .udre => []
  | .recv c => (RecvState.handleRecvCharISR cfg x.rx c).2.map .recv

variable (x : FrameSys cfg rc)

theorem byte_runOp (ops : List (Op rc.bufferChars)) (op : Op rc.bufferChars) {l : Loc}
    (hl : l ∉ x.opWrites op) : (x.runOp ops op).byte l = x.byte l := by
  cases op with
  | queueSend m => unfold runOp; split_ifs <;> rfl
  | waitForSendDone => unfold runOp; split_ifs <;> rfl
  | storeScratch i v =>
    cases l with
    | scratch j =>
      have hij : i ≠ j := fun e => hl (by simp [opWrites, e])
      simp [runOp, byte, List.getD_eq_getElem?_getD, List.getElem?_set_ne hij]
    | _ => rfl
  | storeDebug i v =>
    cases l with
    | debug j =>
      have hij : i ≠ j := fun e => hl (by simp [opWrites, e])
      simp [runOp, byte, List.getD_eq_getElem?_getD, List.getElem?_set_ne hij]
    | _ => rfl
  | doneWithLine =>
    cases l with
    | recv a =>
      show (RecvState.doneWithLine cfg x.rx).recvlines a = _
      unfold RecvState.doneWithLine; split_ifs <;> rfl
    | _ => rfl
  | resetReportQueue =>
    cases l with
    | report k i =>
      simp only [runOp, byte, ReportSys.reInitState]
      split_ifs with hk
      · have hmem : Loc.report k 0 ∈ x.opWrites .resetReportQueue := by
          simp only [opWrites, List.mem_map, List.mem_range]
          exact ⟨k.toNat, (Int.toNat_lt hk.1).2 hk.2, by rw [Int.toNat_of_nonneg hk.1]⟩
        have hi : 0 ≠ i := by rintro rfl; exact hl hmem
        simp [ReportBuf.clearFirst, List.getD_eq_getElem?_getD, List.getElem?_set_ne hi]
      · rfl
    | _ => rfl
  | sendPending =>
    cases l with
    | report k i => simp only [runOp, byte, ReportSys.sendPending_reportqueue]
    | _ => rfl
  | makeReport ok buf =>
    cases l with
    | report k i =>
      simp only [runOp, byte]
      by_cases hc : x.app.reports.reportCount < rc.queueLength
      · by_cases hk : k = x.app.reports.reportWritePtr
        · have hi : ¬ i < rc.bufferChars := fun hi => hl (by simp [opWrites, hc, hk, hi])
          rw [List.getD_eq_default _ _ (by rw [ReportBuf.length_eq]; omega),
            List.getD_eq_default _ _ (by rw [ReportBuf.length_eq]; omega)]
        · rw [ReportSys.makeReport_reportqueue_of_ne hk]
      · rw [ReportSys.makeReport_of_full (by omega)]
    | _ => rfl

theorem byte_step (e : FrameEv) {l : Loc} (hl : l ∉ x.writes e) : (x.step e).byte l = x.byte l := by
  cases e with
  | main =>
    show x.mainStep.byte l = _
    unfold mainStep
    unfold writes at hl
    split
    · rfl
    · next op ops hp => rw [hp] at hl; exact x.byte_runOp ops op hl
  | udre =>
    obtain ⟨-, happ, hrx, hsc, hdb⟩ := x.udreISR_mem
    show x.udreISR.byte l = _
    cases l <;> simp only [byte, happ, hrx, hsc, hdb]
  | recv c =>
    cases l with
    | recv a => exact RecvState.handleRecvCharISR_frame c fun ha => hl (List.mem_map_of_mem _ ha)
    | _ => rfl

theorem drop_eq_of_getD {l l' : List UInt8} (hlen : l.length = l'.length) {cur : Nat}
    (h : ∀ i, cur ≤ i → i < l.length → l.getD i 0 = l'.getD i 0) : l.drop cur = l'.drop cur := by
  refine List.ext_getElem (by simp [hlen]) fun i h₁ h₂ => ?_
  simp only [List.length_drop] at h₁
  have := h (cur + i) (Nat.le_add_right _ _) (by omega)
  rw [List.getD_eq_getElem _ _ (by omega), List.getD_eq_getElem _ _ (by omega)] at this
  rwa [List.getElem_drop, List.getElem_drop]

theorem drop_content_eq {y : FrameSys cfg rc} {m : Src} {cur : Nat}
    (h : ∀ l, m.ahead cfg cur l → y.byte l = x.byte l) :
    (y.content m).drop cur = (x.content m).drop cur := by
  cases m with
  | flash t => rfl
  | line p =>
    refine drop_eq_of_getD (by simp [FrameSys.content]) fun i hi hlt => ?_
    simp only [FrameSys.content, List.length_map, List.length_range] at hlt
    simpa [FrameSys.content, List.getD_eq_getElem?_getD, hlt, byte] using
      h (.recv (p + i)) (by simp [Src.ahead]; omega)
  | report k =>
    exact drop_eq_of_getD (by simp [FrameSys.content, ReportBuf.length_eq]) fun i hi _ =>
      h (.report k i) (by simp [Src.ahead, hi])
  | scratch =>
    exact drop_eq_of_getD (by simp [FrameSys.content, ReportBuf.length_eq]) fun i hi _ =>
      h (.scratch i) (by simp [Src.ahead, hi])
  | debug =>
    exact drop_eq_of_getD (by simp [FrameSys.content, ReportBuf.length_eq]) fun i hi _ =>
      h (.debug i) (by simp [Src.ahead, hi])

theorem stream_eq_of_frame {y : FrameSys cfg rc} (htx : y.tx = x.tx) (hsent : y.sent = x.sent)
    (h : ∀ m cur, x.tx = some (m, cur) → ∀ l, m.ahead cfg cur l → y.byte l = x.byte l) :
    y.stream = x.stream := by
  unfold FrameSys.stream FrameSys.inflight
  rw [htx, hsent]
  split
  · next m cur hx => rw [drop_content_eq x (h m cur hx)]
  · rfl

theorem stream_startCycle (c : Cycle rc) : (x.startCycle c).stream = x.stream :=
  stream_eq_of_frame x (by unfold startCycle; split_ifs <;> rfl)
    (by unfold startCycle; split_ifs <;> rfl)
    fun _ _ _ l _ => by unfold startCycle; split_ifs <;> cases l <;> rfl

end FrameSys

/-! ### The invariant -/

theorem txView_cursor (m : Src) (c c' : Nat) : txView (some (m, c)) = txView (some (m, c')) := by
  cases m <;> rfl

theorem txView_of_not_report {m : Src} (hm : m.isReport = false) (c : Nat) :
    txView (some (m, c)) = some .other := by
  cases m <;> simp_all [txView, Src.isReport]

theorem flyOf_reportTx (t : Option TxBuf) : flyOf (reportTx t) = none := by
  rcases t with _ | _ | _ <;> rfl

theorem txView_reportTx {t : Option TxBuf} (ht : t = none ∨ ∃ k, t = some (.report k)) :
    txView (reportTx t) = t := by
  rcases ht with rfl | ⟨k, rfl⟩ <;> rfl

/-- The invariant of the system: the receive ring's and the report queue's, the check of the
operations still to run, and that a line in flight or still to send is the oldest complete one.
The report globals see the transmit pointer as `txView` has it, but between the report reset of
`ReInitState` and its wait, where they see nothing in flight. A line is in flight only as the echo,
with the `UART_QueueSend` of its `\r\n` next. -/
structure FrameInv (x : FrameSys cfg rc) : Prop where
  rx : RecvInv cfg x.rx
  reports : ReportInv { x.app.reports with transbuf := txView x.tx } ∨
    ReportInv { x.app.reports with transbuf := none } ∧ x.prog.head? = some .waitForSendDone
  safe : ∃ rel, frameSafe (flyOf x.tx) rel x.prog = true
  lines : ∀ p, ((∃ cur, x.tx = some (.line p, cur)) ∨ .queueSend (.line p) ∈ x.prog) →
    p = slotBase cfg x.rx.oldestrow ∧ 0 < x.rx.rowcount
  echo : ∀ p cur, x.tx = some (.line p, cur) → x.prog.head? = some (.queueSend (.flash crlfText))

namespace FrameInv

variable {x : FrameSys cfg rc}

theorem reports_of_ne (h : FrameInv x) {op : Op rc.bufferChars} {ops : List (Op rc.bufferChars)}
    (hp : x.prog = op :: ops) (hop : op ≠ .waitForSendDone) :
    ReportInv { x.app.reports with transbuf := txView x.tx } :=
  h.reports.resolve_right fun ⟨_, hw⟩ => hop (by simpa [hp] using hw)

theorem runOp (h : FrameInv x) {op : Op rc.bufferChars} {ops : List (Op rc.bufferChars)}
    (hp : x.prog = op :: ops) : FrameInv (x.runOp ops op) := by
  obtain ⟨rel, hs⟩ := h.safe
  rw [hp] at hs
  have hlines : ∀ p, ((∃ cur, x.tx = some (.line p, cur)) ∨ .queueSend (.line p) ∈ ops) →
      p = slotBase cfg x.rx.oldestrow ∧ 0 < x.rx.rowcount :=
    fun p hp' => h.lines p (hp'.imp_right fun hm => hp ▸ List.mem_cons_of_mem _ hm)
  -- a line is in flight only before the `UART_QueueSend` of its `\r\n`
  have hecho : (∀ m, op ≠ .queueSend m) → ∀ p cur, x.tx = some (.line p, cur) →
      (x.runOp ops op).prog.head? = some (.queueSend (.flash crlfText)) := fun hop p cur hc => by
    have := h.echo p cur hc
    rw [hp, List.head?_cons, Option.some.injEq] at this
    exact absurd this (hop _)
  cases op with
  | queueSend m =>
    unfold FrameSys.runOp
    split_ifs with htx
    · simp only [frameSafe, Bool.and_eq_true, Bool.not_eq_true'] at hs
      obtain ⟨⟨⟨-, hrep⟩, hcr⟩, hs⟩ := hs
      have hr := (h.reports_of_ne hp Op.noConfusion).step .queueOther
      rw [htx] at hr
      refine ⟨h.rx, .inl ?_, ⟨rel, hs⟩, fun p hp' => ?_, fun p cur hc => ?_⟩
      · rw [txView_of_not_report hrep]; exact hr
      · rcases hp' with ⟨cur, hc⟩ | hm
        · obtain ⟨rfl, -⟩ := Prod.mk.inj (Option.some.inj hc)
          exact h.lines p (.inr (hp ▸ List.mem_cons_self _ _))
        · exact hlines p (.inr hm)
      · obtain ⟨rfl, -⟩ := Prod.mk.inj (Option.some.inj hc)
        simpa [Src.isLine] using hcr
    · exact h
  | waitForSendDone =>
    unfold FrameSys.runOp
    split_ifs with htx
    · refine ⟨h.rx, .inl ?_, ⟨rel, by rw [htx] at hs ⊢; exact hs⟩, hlines,
        fun p cur hc => by simp [htx] at hc⟩
      rcases h.reports with hr | ⟨hr, -⟩
      · exact hr
      · rw [htx]; exact hr
    · exact h
  | storeScratch i v =>
    simp only [frameSafe, Bool.and_eq_true] at hs
    exact ⟨h.rx, .inl (h.reports_of_ne hp Op.noConfusion), ⟨rel, hs.2⟩, hlines,
      hecho fun _ => Op.noConfusion⟩
  | storeDebug i v =>
    simp only [frameSafe, Bool.and_eq_true] at hs
    exact ⟨h.rx, .inl (h.reports_of_ne hp Op.noConfusion), ⟨rel, hs.2⟩, hlines,
      hecho fun _ => Op.noConfusion⟩
  | doneWithLine =>
    simp only [frameSafe, Bool.and_eq_true, Bool.not_eq_true'] at hs
    refine ⟨h.rx.doneWithLine, .inl (h.reports_of_ne hp Op.noConfusion), ⟨true, hs.2⟩, ?_,
      hecho fun _ => Op.noConfusion⟩
    rintro p (⟨cur, hc⟩ | hm)
    · rw [show x.tx = some (.line p, cur) from hc] at hs
      simp [flyOf, Src.guarded, Src.isLine] at hs
    · exact absurd hm (queueSend_line_not_mem hs.2 p)
  | resetReportQueue =>
    simp only [frameSafe, Bool.and_eq_true, beq_iff_eq] at hs
    exact ⟨h.rx, .inr ⟨ReportInv.reInitState _, hs.1⟩, ⟨rel, hs.2⟩, hlines,
      hecho fun _ => Op.noConfusion⟩
  | sendPending =>
    simp only [frameSafe] at hs
    have hr := (h.reports_of_ne hp Op.noConfusion).sendPending
    have hecho' := hecho fun _ => Op.noConfusion
    unfold FrameSys.runOp at hecho' ⊢
    dsimp only at hecho' ⊢
    split_ifs at hecho' ⊢ with htx
    · rw [htx] at hr ⊢
      have hrep : ∀ p cur, reportTx { x.app.reports with transbuf := txView none }.sendPending.transbuf ≠
          some (.line p, cur) := fun p cur hc => by
        rcases ReportSys.sendPending_transbuf (s := { x.app.reports with transbuf := txView none })
          rfl with ht | ⟨k, ht⟩ <;> simp [ht, reportTx] at hc
      refine ⟨h.rx, .inl ?_, ⟨rel, ?_⟩, ?_, fun p cur hc => absurd hc (hrep p cur)⟩
      · rw [txView_reportTx (ReportSys.sendPending_transbuf rfl)]; exact hr
      · rw [flyOf_reportTx]; rw [htx] at hs; exact hs
      · rintro p (⟨cur, hc⟩ | hm)
        · exact absurd hc (hrep p cur)
        · exact hlines p (.inr hm)
    · have hb := ReportSys.sendPending_of_busy (s := { x.app.reports with transbuf := txView x.tx })
        (by cases ht : x.tx with
            | none => exact absurd ht htx
            | some t => obtain ⟨m, c⟩ := t; cases m <;> simp [txView])
      refine ⟨h.rx, .inl ?_, ⟨rel, hs⟩, hlines, hecho'⟩
      rw [hb]; exact h.reports_of_ne hp Op.noConfusion
  | makeReport ok buf =>
    simp only [frameSafe] at hs
    refine ⟨h.rx, .inl ?_, ⟨rel, hs⟩, hlines, hecho fun _ => Op.noConfusion⟩
    show ReportInv { x.app.reports.makeReport ok buf with transbuf := txView x.tx }
    rw [ReportSys.makeReport_transbuf]
    exact (h.reports_of_ne hp Op.noConfusion).makeReport ok buf

theorem mainStep (h : FrameInv x) : FrameInv x.mainStep := by
  unfold FrameSys.mainStep
  split
  · exact h
  · next op ops hp => exact h.runOp hp

theorem udreISR (h : FrameInv x) : FrameInv x.udreISR := by
  unfold FrameSys.udreISR
  split
  · exact h
  · next m cur htx =>
    dsimp only
    obtain ⟨rel, hs⟩ := h.safe
    rw [htx] at hs
    split_ifs
    · refine ⟨h.rx, .inl ?_, ⟨rel, ?_⟩, ?_, fun p cur hc => by cases hc⟩
      · rcases h.reports with hr | ⟨hr, -⟩
        · exact hr.step .sendDone
        · exact hr
      · exact frameSafe_none hs
      · rintro p (⟨cur, hc⟩ | hm)
        · cases hc
        · exact h.lines p (.inr hm)
    · refine ⟨h.rx, ?_, ⟨rel, hs⟩, ?_, fun p c hc => ?_⟩
      · have hv : txView (some (m, cur + 1)) = txView x.tx := by rw [htx, txView_cursor m cur]
        show ReportInv { x.app.reports with transbuf := txView (some (m, cur + 1)) } ∨ _
        rw [hv]; exact h.reports
      · rintro p (⟨c, hc⟩ | hm)
        · obtain ⟨rfl, -⟩ := Prod.mk.inj (Option.some.inj hc)
          exact h.lines p (.inl ⟨cur, htx⟩)
        · exact h.lines p (.inr hm)
      · obtain ⟨rfl, -⟩ := Prod.mk.inj (Option.some.inj hc)
        exact h.echo p cur htx

theorem recvISR (h : FrameInv x) (c : UInt8) : FrameInv (x.recvISR c) :=
  ⟨h.rx.handleRecvCharISR c, h.reports, h.safe, fun p hp => by
    obtain ⟨h₁, h₂⟩ := h.lines p hp
    exact ⟨h₁.trans (congrArg _ (RecvState.handleRecvCharISR_oldestrow c).symm),
      lt_of_lt_of_le h₂ (RecvState.rowcount_le_handleRecvCharISR c)⟩, h.echo⟩

theorem step (h : FrameInv x) : ∀ e, FrameInv (x.step e)
  | .main => h.mainStep
  | .udre => h.udreISR
  | .recv c => h.recvISR c

theorem startCycle (h : FrameInv x) (c : Cycle rc) : FrameInv (x.startCycle c) := by
  unfold FrameSys.startCycle
  split_ifs with hp
  · have hnil : x.prog = [] := List.isEmpty_iff.1 hp
    have hfly : flyOf x.tx = none := by
      obtain ⟨rel, hs⟩ := h.safe
      rw [hnil] at hs
      simpa [frameSafe] using hs
    have hnl : ∀ p cur, x.tx ≠ some (.line p, cur) := fun p cur hc => by
      rw [hc] at hfly; simp [flyOf, Src.guarded] at hfly
    refine ⟨h.rx, .inl (h.reports.resolve_right fun ⟨_, hw⟩ => by simp [hnil] at hw),
      ⟨false, ?_⟩, ?_, fun p cur hc => absurd hc (hnl p cur)⟩
    · rw [hfly]; exact frameSafe_cycleOps _ _ _ _
    · rintro p (⟨cur, hc⟩ | hm)
      · exact absurd hc (hnl p cur)
      · obtain ⟨rfl, hcalls⟩ := line_of_mem_cycleOps hm
        cases hl : RecvState.getNextLine cfg x.rx with
        | none => simp [hl, AppState.pollCommand] at hcalls
        | some a =>
          obtain ⟨h₁, h₂⟩ := getNextLine_eq_some hl
          exact ⟨h₂, h₁⟩
  · exact h

theorem sysStep (h : FrameInv x) : ∀ e, FrameInv (x.sysStep e)
  | .ev e => h.step e
  | .poll c => h.startCycle c

theorem runSys (h : FrameInv x) (evs : List (SysEv rc)) : FrameInv (x.runSys evs) := by
  induction evs generalizing x with
  | nil => exact h
  | cons e evs ih => exact ih (h.sysStep e)

/-- In a state of the invariant, a store that reaches the text still to send is the report reset
of `ReInitState` putting a NUL at the head of a report that has not begun to go out. The receive
interrupt stores into the slot in progress, never the line in flight; the main loop's stores into
`scratchstr` and `debug_string` come after a wait (`frameSafe`); a `MakeReportString` call writes
the free slot, never the one in flight (`ReportInv.read_ne_write`). -/
theorem writes_ahead (h : FrameInv x) {e : FrameEv} {m : Src} {cur : Nat} {l : Loc}
    (htx : x.tx = some (m, cur)) (hl : l ∈ x.writes e) (ha : m.ahead cfg cur l) :
    e = .main ∧ x.prog.head? = some .resetReportQueue ∧ cur = 0 ∧
      ∃ k, m = .report k ∧ l = .report k 0 := by
  cases e with
  | udre => simp [FrameSys.writes] at hl
  | recv c =>
    obtain ⟨a, hw, rfl⟩ := List.mem_map.1 hl
    cases m with
    | line p =>
      simp only [Src.ahead, Bool.and_eq_true, decide_eq_true_eq] at ha
      obtain ⟨rfl, hr⟩ := h.lines p (.inl ⟨cur, htx⟩)
      have := h.rx.complete_not_written c hr (k := 0) (j := a - slotBase cfg x.rx.oldestrow)
        (by omega)
      rw [Nat.add_zero, Nat.mod_eq_of_lt h.rx.oldest_lt, Nat.add_sub_cancel' (by omega)] at this
      exact absurd hw this
    | _ => simp [Src.ahead] at ha
  | main =>
    obtain ⟨rel, hs⟩ := h.safe
    cases hp : x.prog with
    | nil => simp [FrameSys.writes, hp] at hl
    | cons op ops =>
      simp only [FrameSys.writes, hp] at hl
      rw [hp, htx] at hs
      cases op with
      | storeScratch i v =>
        obtain rfl : l = .scratch i := by simpa [FrameSys.opWrites] using hl
        cases m <;> simp_all [Src.ahead, frameSafe, flyOf, Src.guarded]
      | storeDebug i v =>
        obtain rfl : l = .debug i := by simpa [FrameSys.opWrites] using hl
        cases m <;> simp_all [Src.ahead, frameSafe, flyOf, Src.guarded]
      | resetReportQueue =>
        obtain ⟨j, -, rfl⟩ := List.mem_map.1 hl
        cases m with
        | report k =>
          simp only [Src.ahead, Bool.and_eq_true, beq_iff_eq, decide_eq_true_eq] at ha
          obtain ⟨rfl, hc⟩ := ha
          exact ⟨rfl, by simp [hp], by omega, _, rfl, rfl⟩
        | _ => simp [Src.ahead] at ha
      | makeReport ok buf =>
        simp only [FrameSys.opWrites] at hl
        split_ifs at hl with hc
        · obtain ⟨i, -, rfl⟩ := List.mem_map.1 hl
          cases m with
          | report k =>
            simp only [Src.ahead, Bool.and_eq_true, beq_iff_eq] at ha
            have hr := h.reports_of_ne hp Op.noConfusion
            obtain ⟨htr, hk⟩ := hr.inflight k (by simp [htx, txView])
            exact absurd (hk.symm.trans ha.1) (hr.read_ne_write hc htr)
          | _ => simp [Src.ahead] at ha
        · simp at hl
      | _ => simp [FrameSys.opWrites] at hl

theorem stream_of_frame (h : FrameInv x) {e : FrameEv}
    (he : ¬ (e = .main ∧ x.prog.head? = some .resetReportQueue ∧ ∃ k, x.tx = some (.report k, 0)))
    (htx : (x.step e).tx = x.tx) (hsent : (x.step e).sent = x.sent) :
    (x.step e).stream = x.stream :=
  x.stream_eq_of_frame htx hsent fun m cur hx l ha => x.byte_step e fun hl => by
    obtain ⟨rfl, hp, rfl, k, rfl, -⟩ := h.writes_ahead hx hl ha
    exact he ⟨rfl, hp, k, hx⟩

/-- The transmit stream only grows, but at the report reset of `ReInitState` over a report that
has not begun to go out. -/
theorem stream_step (h : FrameInv x) (e : FrameEv)
    (he : ¬ (e = .main ∧ x.prog.head? = some .resetReportQueue ∧ ∃ k, x.tx = some (.report k, 0))) :
    x.stream <+: (x.step e).stream := by
  have hframe := h.stream_of_frame he
  cases e with
  | udre => rw [show x.step .udre = x.udreISR from rfl, x.stream_udreISR]
  | recv c => rw [hframe rfl rfl]
  | main =>
    by_cases htx : x.tx = none
    · have hs : x.stream = x.sent := by simp [FrameSys.stream, FrameSys.inflight, htx]
      rw [hs, show x.step .main = x.mainStep from rfl, ← x.sent_mainStep]
      exact List.prefix_append _ _
    · rw [hframe (x.tx_mainStep htx) x.sent_mainStep]

end FrameInv

theorem frameInv_powerOn : FrameInv (FrameSys.powerOn cfg rc) := by
  have := rc.queueLength_pos
  refine ⟨recvInv_initBuffersISR _, .inl ?_, ⟨false, rfl⟩, fun p hp => ?_, fun p cur hc => ?_⟩
  · constructor <;> simp [FrameSys.powerOn, AppState.construct, txView, ReportSys.waiting,
      ReportSys.pending, pendingOf, slotAt] <;> omega
  · simp [FrameSys.powerOn] at hp
  · cases hc

/-- Every state reached from power-on. -/
theorem frameInv_runSys (evs : List (SysEv rc)) : FrameInv ((FrameSys.powerOn cfg rc).runSys evs) :=
  frameInv_powerOn.runSys evs

/-- From power-on, under every interleaving of the main loop, the transmit interrupt, the receive
interrupt and the starts of `DoPolling` calls: an event stores into the text still to send only
as the report reset of `ReInitState`, which puts a NUL at the head of a report that has not begun
to go out. -/
theorem store_into_inflight_is_reset (evs : List (SysEv rc)) (e : FrameEv) {m : Src} {cur : Nat}
    {l : Loc} :
    let x := (FrameSys.powerOn cfg rc).runSys evs
    x.tx = some (m, cur) → l ∈ x.writes e → m.ahead cfg cur l = true →
      e = .main ∧ x.prog.head? = some .resetReportQueue ∧ cur = 0 ∧
        ∃ k, m = .report k ∧ l = .report k 0 :=
  fun htx hl ha => (frameInv_runSys evs).writes_ahead htx hl ha

set_option maxRecDepth 8000 in
/-- The one store the theorem allows happens: in the run of `resetReportQueue_cuts_inflight_ini`,
the reset stores into the head of report slot 0 while it is in flight at its first byte. -/
theorem store_into_inflight_is_reset_ini :
    let report : ReportBuf neurapp.bufferChars := ⟨65 :: List.replicate 89 0, rfl⟩
    let withReport : Cycle neurapp := ⟨[⟨1, none⟩], [[(true, report)]], fun _ => []⟩
    let quiet : Cycle neurapp := ⟨[⟨1, none⟩], [], fun _ => []⟩
    let evs : List (SysEv neurapp) :=
      ([69, 67, 72, 32, 48, 13].map fun c => .ev (.recv c)) ++ [.poll withReport] ++
        (List.replicate 20 [SysEv.ev .main, .ev .udre]).flatten ++ [.poll quiet, .ev .main] ++
        ([73, 78, 73, 13].map fun c => .ev (.recv c)) ++ [.poll quiet]
    let x := (FrameSys.powerOn m328p neurapp).runSys evs
    x.tx = some (.report 0, 0) ∧ Loc.report 0 0 ∈ x.writes .main ∧
      (Src.report 0).ahead m328p 0 (.report 0 0) = true ∧
      x.prog.head? = some .resetReportQueue := by
  intro report withReport quiet evs x
  have htx : x.tx = some (.report 0, 0) := by decide
  have hl : Loc.report 0 0 ∈ x.writes .main := by decide
  have ha : (Src.report 0).ahead m328p 0 (.report 0 0) = true := by decide
  exact ⟨htx, hl, ha, (store_into_inflight_is_reset evs .main htx hl ha).2.1⟩

/-- From power-on, under every interleaving: every event keeps what the transmit stream holds,
and may add to it, but the report reset of `ReInitState` over a report that has not begun to go
out. -/
theorem stream_prefix_but_reset (evs : List (SysEv rc)) (e : SysEv rc) :
    let x := (FrameSys.powerOn cfg rc).runSys evs
    x.stream <+: (x.sysStep e).stream ∨
      e = .ev .main ∧ x.prog.head? = some .resetReportQueue ∧ ∃ k, x.tx = some (.report k, 0) := by
  intro x
  cases e with
  | ev e =>
    by_cases he : e = .main ∧ x.prog.head? = some .resetReportQueue ∧
        ∃ k, x.tx = some (.report k, 0)
    · exact .inr ⟨congrArg _ he.1, he.2⟩
    · exact .inl ((frameInv_runSys evs).stream_step e he)
  | poll c => exact .inl (by rw [show x.sysStep (.poll c) = x.startCycle c from rfl,
      x.stream_startCycle c])

end NeurAvr
