import NeurAvr.Uart.Send
import NeurAvr.App.FrameInv

/-!
# The pointer model refines the copying model

`TxSys` (`Uart/Send`) treats `UART_QueueSend` as if it copied its message; `FrameSys` keeps the
pointer and the memory the transmit interrupt reads through it. `TxAgrees x t` relates the two:
the copying model is outside any call, has a message in flight exactly when the pointer model has
one, with the same text left to send and the same bytes on the wire. One event of `FrameSys` is
none, one or three events of `TxSys` (`FrameSys.txEvs`): the main-loop step that hands a buffer to
the UART is the call, the busy-wait check and the install of a copy of the buffer as memory holds
it then; the transmit interrupt is the transmit interrupt. Every event keeps the agreement but the
report reset of `ReInitState` over a report that has not begun to go out (`TxAgrees.step`), the
one store into the text in flight (`FrameInv.writes_ahead`).

On a run from power-on without that event the history invariant of `TxSys` (`TxInv`) carries over
to the pointer model: the transmit stream is every buffer handed to the UART, up to its NUL and as
memory held it when handed over, in order (`stream_eq_queued`).
-/

namespace NeurAvr

variable {cfg : UartConfig} {rc : ReportConfig}

/-- A string in flash goes out with `UART_QueueSend_P`. -/
def Src.isFlash : Src → Bool
  | .flash _ => true
  | _ => false

namespace FrameSys

/-- The message a copying `UART_QueueSend` would take for buffer `m`: its memory now. -/
def msgOf (x : FrameSys cfg rc) (m : Src) : Msg := ⟨x.content m, m.isFlash⟩

/-- The copying model's events for event `e`. A main-loop step that hands buffer `m` to the UART
(`UART_QueueSend`, or the report code's in `sendPending`) is the call, the busy-wait check that
finds the UART free and the install; the transmit interrupt is the transmit interrupt. -/
def txEvs (x : FrameSys cfg rc) : FrameEv → List TxEv
  | .main =>
    match x.tx, x.mainStep.tx with
    | none, some (m, _) => [.queueSend (some (x.msgOf m)), .mainStep, .mainStep]
    | _, _ => []
  | .udre => [.udre]
  | .recv _ => []

/-- Event `e` is the report reset of `ReInitState` while a report that has not begun to go out is
in flight. -/
def cutsReport (x : FrameSys cfg rc) : SysEv rc → Bool
  | .ev .main =>
    decide (x.prog.head? = some .resetReportQueue) &&
      match x.tx with
      | some (.report _, 0) => true
      | _ => false
  | _ => false

/-- The copying model's events along a run. -/
def txTrace (x : FrameSys cfg rc) : List (SysEv rc) → List TxEv
  | [] => []
  | .ev e :: evs => x.txEvs e ++ (x.step e).txTrace evs
  | .poll c :: evs => (x.startCycle c).txTrace evs

/-- Some event of the run cuts a report. -/
def cutsSome (x : FrameSys cfg rc) : List (SysEv rc) → Bool
  | [] => false
  | e :: evs => x.cutsReport e || (x.sysStep e).cutsSome evs

variable (x : FrameSys cfg rc)

theorem not_cut_of_cutsReport {e : FrameEv} (h : x.cutsReport (.ev e) = false) :
    ¬ (e = .main ∧ x.prog.head? = some .resetReportQueue ∧ ∃ k, x.tx = some (.report k, 0)) := by
  rintro ⟨rfl, hp, k, hk⟩
  simp [cutsReport, hp, hk] at h

theorem udreISR_cases :
    (x.inflight = [] ∧ x.udreISR.tx = none ∧ x.udreISR.sent = x.sent) ∨
      ∃ c, x.inflight = c :: x.udreISR.inflight ∧ x.udreISR.sent = x.sent ++ [c] ∧
        x.tx.isSome ∧ x.udreISR.tx.isSome := by
  unfold udreISR
  cases htx : x.tx with
  | none => exact .inl ⟨by simp [FrameSys.inflight, htx], htx, rfl⟩
  | some t =>
    obtain ⟨m, cur⟩ := t
    have hd := cstr_drop (x.content m) cur
    dsimp only
    by_cases hc : (x.content m).getD cur 0 = 0
    · rw [if_pos hc] at hd ⊢
      exact .inl ⟨by simp [FrameSys.inflight, htx, hd], rfl, rfl⟩
    · rw [if_neg hc] at hd ⊢
      exact .inr ⟨_, by simp [FrameSys.inflight, htx, hd], rfl, rfl, rfl⟩

theorem inflight_mainStep_install (htx : x.tx = none) {m : Src} {cur : Nat}
    (h : x.mainStep.tx = some (m, cur)) : x.mainStep.inflight = cstr (x.content m) := by
  cases hp : x.prog with
  | nil => simp [mainStep, hp, htx] at h
  | cons op ops =>
    simp only [mainStep, hp] at h ⊢
    cases op with
    | queueSend m' =>
      simp only [runOp, htx, if_true, Option.some.injEq, Prod.mk.injEq] at h ⊢
      obtain ⟨rfl, rfl⟩ := h
      cases m' <;> rfl
    | sendPending =>
      simp only [runOp, htx, if_true, reportTx] at h ⊢
      split at h
      · next k hk =>
        obtain ⟨rfl, rfl⟩ := Prod.mk.inj (Option.some.inj h)
        simp [FrameSys.inflight, hk, FrameSys.content, ReportSys.sendPending_reportqueue]
      · cases h
    | _ => simp [runOp, htx] at h

end FrameSys

namespace TxSys

theorem run_call {t : TxSys} (hpc : t.pc = .idle) (hb : t.tx.transbuf = none) (m : Msg) :
    t.run [.queueSend (some m), .mainStep, .mainStep] =
      { t with tx := t.tx.install m, calls := t.calls ++ [some m] } := by
  obtain ⟨tx, pc, sent, calls⟩ := t
  dsimp only at hpc hb
  subst hpc
  simp [run, step, mainStep, SendState.isSendInProgress, hb]

end TxSys

/-- The copying model `t` is where the pointer model `x` is: outside any call of
`UART_QueueSend`, with a message in flight exactly when `x` has one, the same text left to send
and the same bytes on the wire. -/
structure TxAgrees (x : FrameSys cfg rc) (t : TxSys) : Prop where
  idle : t.pc = .idle
  busy : t.tx.transbuf.isSome = x.tx.isSome
  rest : inflight t.tx = x.inflight
  sent : t.sent = x.sent

namespace TxAgrees

variable {x : FrameSys cfg rc} {t : TxSys}

theorem init (s : SendState) : TxAgrees (FrameSys.powerOn cfg rc) (TxSys.init s) :=
  ⟨rfl, rfl, rfl, rfl⟩

theorem stream (h : TxAgrees x t) : t.sent ++ inflight t.tx = x.stream := by
  rw [h.sent, h.rest]; rfl

theorem frame (h : TxAgrees x t) {y : FrameSys cfg rc} (htx : y.tx = x.tx)
    (hsent : y.sent = x.sent) (hs : y.stream = x.stream) : TxAgrees y t := by
  refine ⟨h.idle, by rw [htx, h.busy], ?_, by rw [hsent, h.sent]⟩
  unfold FrameSys.stream at hs
  rw [hsent] at hs
  rw [h.rest, List.append_cancel_left hs]

theorem udre (h : TxAgrees x t) : TxAgrees x.udreISR (t.step .udre) := by
  obtain ⟨hpc, hb, hr, hs⟩ := h
  rcases t.tx.udreISR_cases with ⟨ho, hb', -, hi⟩ | ⟨c, ho, ht', hsome, hi⟩ <;>
    rcases x.udreISR_cases with ⟨hi', htx', hs'⟩ | ⟨c', hi', hs', hsome', hsome''⟩ <;>
    rw [hr, hi'] at hi
  · -- both end the transmission
    refine ⟨hpc, ?_, ?_, ?_⟩ <;>
      simp [TxSys.step, hb', htx', SendState.inflight_of_none hb', FrameSys.inflight, ho, hs, hs']
  · cases hi
  · cases hi
  · -- both send the next byte
    obtain ⟨rfl, hrest⟩ := List.cons.inj hi
    refine ⟨hpc, ?_, hrest.symm, ?_⟩
    · simp only [TxSys.step, ht', hsome, hsome'']
    · simp [TxSys.step, ho, hs, hs']

theorem install (h : TxAgrees x t) (htx : x.tx = none) {m : Src} {cur : Nat}
    (hm : x.mainStep.tx = some (m, cur)) :
    TxAgrees x.mainStep (t.run [.queueSend (some (x.msgOf m)), .mainStep, .mainStep]) := by
  have hb : t.tx.transbuf = none := by simpa [htx] using h.busy
  rw [TxSys.run_call h.idle hb]
  refine ⟨h.idle, by simp [SendState.install, SendState.enableTransmitISR, hm], ?_,
    by rw [h.sent, x.sent_mainStep]⟩
  rw [inflight_install, x.inflight_mainStep_install htx hm]
  rfl

/-- Every event keeps the agreement, but the report reset of `ReInitState` over a report that has
not begun to go out. -/
theorem step (hi : FrameInv x) (h : TxAgrees x t) (e : FrameEv)
    (he : x.cutsReport (.ev e) = false) : TxAgrees (x.step e) (t.run (x.txEvs e)) := by
  have hframe := hi.stream_of_frame (x.not_cut_of_cutsReport he)
  cases e with
  | udre => exact h.udre
  | recv c => exact h.frame rfl rfl (hframe rfl rfl)
  | main =>
    show TxAgrees x.mainStep _
    cases htx : x.tx with
    | none =>
      cases hm : x.mainStep.tx with
      | none =>
        simp only [FrameSys.txEvs, htx, hm, TxSys.run_nil]
        refine ⟨h.idle, by rw [h.busy, htx, hm], ?_, by rw [h.sent, x.sent_mainStep]⟩
        simp [h.rest, FrameSys.inflight, htx, hm]
      | some p =>
        simp only [FrameSys.txEvs, htx, hm]
        exact h.install htx hm
    | some p =>
      simp only [FrameSys.txEvs, htx, TxSys.run_nil]
      have htx' := x.tx_mainStep (by simp [htx])
      exact h.frame htx' x.sent_mainStep (hframe htx' x.sent_mainStep)

theorem runSys (hi : FrameInv x) (h : TxAgrees x t) (evs : List (SysEv rc))
    (hno : x.cutsSome evs = false) : TxAgrees (x.runSys evs) (t.run (x.txTrace evs)) := by
  induction evs generalizing x t with
  | nil => exact h
  | cons e evs ih =>
    simp only [FrameSys.cutsSome, Bool.or_eq_false_iff] at hno
    cases e with
    | ev e =>
      rw [FrameSys.txTrace, TxSys.run_append]
      exact ih (hi.step e) (h.step hi e hno.1) hno.2
    | poll c =>
      rw [FrameSys.txTrace]
      have hc : (x.startCycle c).tx = x.tx ∧ (x.startCycle c).sent = x.sent := by
        unfold FrameSys.startCycle; split_ifs <;> exact ⟨rfl, rfl⟩
      exact ih (hi.startCycle c) (h.frame hc.1 hc.2 (x.stream_startCycle c)) hno.2

end TxAgrees

/-- From power-on, over every interleaving of the main loop, both interrupts and the starts of
`DoPolling` calls in which the report reset of `ReInitState` never meets a report that has not
begun to go out: the copying model run on the same buffers agrees with the pointer model, and the
transmit stream is every buffer handed to the UART, up to its NUL and as memory held it when
handed over, in order. -/
theorem stream_eq_queued (s : SendState) (evs : List (SysEv rc)) :
    let x₀ := FrameSys.powerOn cfg rc
    let t := (TxSys.init s).run (x₀.txTrace evs)
    x₀.cutsSome evs = false →
      TxAgrees (x₀.runSys evs) t ∧ (x₀.runSys evs).stream = (t.calls.map callBytes).flatten := by
  intro x₀ t hno
  have h : TxAgrees (x₀.runSys evs) t := (TxAgrees.init s).runSys frameInv_powerOn evs hno
  refine ⟨h, ?_⟩
  rw [← h.stream, ← ((TxInv.init s).run (x₀.txTrace evs)).history, h.idle]
  simp [TxPc.pendingBytes]

set_option maxRecDepth 8000 in
/-- With echo on, the line `Q` received and a `DoPolling` call started: the echo of the line goes
out and its `\r\n` is handed over. No report reset meets a report in flight, and the stream is the
two buffers in order. -/
theorem stream_eq_queued_echo :
    let quiet : Cycle neurapp := ⟨[], [], fun _ => []⟩
    let evs : List (SysEv neurapp) :=
      [.ev (.recv 81), .ev (.recv 13), .poll quiet, .ev .main, .ev .udre, .ev .udre, .ev .main]
    let x₀ := FrameSys.powerOn m328p neurapp
    let t := (TxSys.init ⟨none, 0, false, false⟩).run (x₀.txTrace evs)
    x₀.cutsSome evs = false ∧ (x₀.runSys evs).stream = [81, 13, 10] ∧
      (x₀.runSys evs).stream = (t.calls.map callBytes).flatten := by
  intro quiet evs x₀ t
  have hno : x₀.cutsSome evs = false := by decide
  exact ⟨hno, by decide, (stream_eq_queued _ evs hno).2⟩

end NeurAvr
