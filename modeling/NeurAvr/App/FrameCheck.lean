import NeurAvr.App.Command
import NeurAvr.App.Frame

/-!
# The buffers a `DoPolling` call leaves alone while they are in flight

`UART_QueueSend` hands the UART a pointer, and the transmit interrupt reads the buffer until its
NUL. Three of the buffers the main loop hands over can change under it: `scratchstr` and
`debug_string`, which the main loop fills, and a receive line, which the receive interrupt may
refill once `UART_DoneWithLine` has released it. The code keeps them apart by waiting: every
writer of `scratchstr` calls `UART_WaitForSendDone` first, `debug_string` is waited for after it
is sent, the echo of a line is followed by a `UART_QueueSend` (which waits), and the line is
released at the end of the command part.

`frameSafe` checks this of a list of operations. `frameSafe_cycleOps` proves it of every
`DoPolling` call, whatever the line, the registry, the texts and the handlers' answers; the
calls of the command part are taken piece by piece (`Neutral`), the print routines chunk by chunk.
-/

namespace NeurAvr

namespace Src

/-- A receive line. -/
def isLine : Src → Bool
  | .line _ => true
  | _ => false

/-- A report slot. -/
def isReport : Src → Bool
  | .report _ => true
  | _ => false

/-- A buffer that can change while the UART reads it: a receive line, `scratchstr`,
`debug_string`. A string in flash cannot, and the report slots are the report code's. -/
def guarded : Src → Bool
  | .line _ | .scratch | .debug => true
  | _ => false

end Src

/-- The guarded buffer a transmit pointer reads, if any. -/
def flyOf : Option (Src × Nat) → Option Src
  | some (m, _) => if m.guarded then some m else none
  | none => none

variable {n : Nat}

/-- The check of the main loop's remaining operations, with `fly` the guarded buffer that may
still be in flight (it was sent and nothing has waited since) and `rel` whether the line has been
released: no store into `fly`, no release while a line is in flight, no line sent after the
release and none but as the echo (followed by its `\r\n`), no report slot sent but by "send the
next pending string", the report reset followed by its wait, and nothing guarded in flight at the
end. -/
def frameSafe : Option Src → Bool → List (Op n) → Bool
  | fly, _, [] => fly.isNone
  | _, rel, .queueSend m :: ops =>
    !(rel && m.isLine) && !m.isReport &&
      (!m.isLine || ops.head? == some (.queueSend (.flash crlfText))) &&
      frameSafe (if m.guarded then some m else none) rel ops
  | _, rel, .waitForSendDone :: ops => frameSafe none rel ops
  | fly, rel, .storeScratch _ _ :: ops => fly != some .scratch && frameSafe fly rel ops
  | fly, rel, .storeDebug _ _ :: ops => fly != some .debug && frameSafe fly rel ops
  | fly, _, .doneWithLine :: ops => !(fly.any Src.isLine) && frameSafe fly true ops
  | fly, rel, .resetReportQueue :: ops =>
    ops.head? == some .waitForSendDone && frameSafe fly rel ops
  | fly, rel, .sendPending :: ops => frameSafe fly rel ops
  | fly, rel, .makeReport _ _ :: ops => frameSafe fly rel ops

theorem frameSafe_wait (fly : Option Src) (rel : Bool) (ops : List (Op n)) :
    frameSafe fly rel (.waitForSendDone :: ops) = frameSafe none rel ops := rfl

theorem frameSafe_flash (fly : Option Src) (rel : Bool) (t : List UInt8) (ops : List (Op n)) :
    frameSafe fly rel (.queueSend (.flash t) :: ops) = frameSafe none rel ops := by
  cases rel <;> rfl

theorem frameSafe_none {fly : Option Src} {rel : Bool} {P : List (Op n)}
    (h : frameSafe fly rel P = true) : frameSafe none rel P = true := by
  induction P generalizing rel with
  | nil => rfl
  | cons op ops ih =>
    cases op <;> simp only [frameSafe, Bool.and_eq_true] at h ⊢
    all_goals first | exact h | exact ih h | exact ⟨rfl, ih h.2⟩ | exact ⟨h.1, ih h.2⟩

theorem queueSend_line_not_mem {fly : Option Src} {P : List (Op n)}
    (h : frameSafe fly true P = true) (q : Nat) : Op.queueSend (.line q) ∉ P := by
  induction P generalizing fly with
  | nil => simp
  | cons op ops ih =>
    rw [List.mem_cons, not_or]
    cases op with
    | queueSend m =>
      simp only [frameSafe, Bool.and_eq_true, Bool.not_eq_true', Bool.true_and] at h
      exact ⟨by rintro ⟨⟩; simp [Src.isLine] at h, ih h.2⟩
    | _ =>
      simp only [frameSafe, Bool.and_eq_true] at h
      first | exact ⟨Op.noConfusion, ih h⟩ | exact ⟨Op.noConfusion, ih h.2⟩

/-! ### The print routines, chunk by chunk -/

theorem frameSafe_stores {S : List (Op n)}
    (hS : ∀ o ∈ S, ∃ i v, o = .storeScratch i v ∨ o = .storeDebug i v) (rel : Bool)
    (R : List (Op n)) : frameSafe none rel (S ++ R) = frameSafe none rel R := by
  induction S with
  | nil => rfl
  | cons o S ih =>
    obtain ⟨i, v, rfl | rfl⟩ := hS o (List.mem_cons_self o S) <;>
      simp [frameSafe, ih fun o ho => hS o (List.mem_cons_of_mem _ ho)]

theorem frameSafe_printChar (fly : Option Src) (rel : Bool) (c : UInt8) (R : List (Op n)) :
    frameSafe fly rel (printChar c ++ R) = frameSafe (some .scratch) rel R := by
  simp [printChar, frameSafe, Src.isLine, Src.isReport, Src.guarded]

theorem frameSafe_printHex8 (fly : Option Src) (rel : Bool) (v : UInt8) (R : List (Op n)) :
    frameSafe fly rel (printHex8 v ++ R) = frameSafe (some .scratch) rel R := by
  simp only [printHex8, List.cons_append, List.append_assoc, frameSafe_wait]
  rw [frameSafe_stores (by simp) rel, frameSafe_stores (by simp) rel]
  simp [frameSafe, Src.isLine, Src.isReport, Src.guarded]

theorem frameSafe_shortHelpChar (fly : Option Src) (rel : Bool) (c : UInt8) (R : List (Op n)) :
    frameSafe fly rel (shortHelpChar c ++ R) = frameSafe (some .scratch) rel R := by
  unfold shortHelpChar
  split_ifs
  · exact frameSafe_printChar fly rel c R
  · simp only [List.append_assoc, frameSafe_printChar, frameSafe_printHex8]

theorem frameSafe_printShortHelp (fly : Option Src) (rel : Bool) (l : List UInt8)
    (R : List (Op n)) : frameSafe fly rel (printShortHelp l ++ R) = frameSafe none rel R := by
  have chars : ∀ (fly : Option Src) (cs : List UInt8),
      frameSafe fly rel (cs.flatMap shortHelpChar ++ .queueSend (.flash shortHelpOutro) :: R) =
        frameSafe none rel R := by
    intro fly cs
    induction cs generalizing fly with
    | nil => exact frameSafe_flash fly rel _ R
    | cons c cs ih => rw [List.flatMap_cons, List.append_assoc, frameSafe_shortHelpChar, ih]
  simp only [printShortHelp, List.cons_append, List.append_assoc, List.singleton_append,
    List.nil_append]
  rw [frameSafe_flash, chars]

theorem frameSafe_sendDebug (rel : Bool) (t : List UInt8) (R : List (Op n)) :
    frameSafe none rel (sendDebug t ++ .waitForSendDone :: R) = frameSafe none rel R := by
  rw [sendDebug, List.append_assoc,
    frameSafe_stores (fun o ho => by obtain ⟨⟨i, v⟩, -, rfl⟩ := List.mem_map.1 ho; exact ⟨i, v, .inr rfl⟩)]
  simp [frameSafe, Src.isLine, Src.isReport, Src.guarded]

theorem frameSafe_reportOps (rel : Bool) (evs : List (ReportEv n)) :
    frameSafe none rel (evs.flatMap ReportEv.toOp) = true := by
  induction evs with
  | nil => rfl
  | cons e evs ih => cases e <;> simpa [ReportEv.toOp, frameSafe] using ih

/-! ### The calls of the command part -/

/-- Calls whose operations, run with nothing guarded in flight and the line held, leave it so,
whatever the texts and the line's address. -/
def Neutral (U : List Call) : Prop :=
  ∀ (n : Nat) (texts : Out → List UInt8) (p : Nat) (R : List (Op n)),
    frameSafe none false (U.flatMap (lowerCall texts p) ++ R) = frameSafe none false R

theorem Neutral.nil : Neutral [] := fun _ _ _ _ => rfl

theorem Neutral.append {U V : List Call} (hU : Neutral U) (hV : Neutral V) : Neutral (U ++ V) :=
  fun n texts p R => by rw [List.flatMap_append, List.append_assoc, hU, hV]

/-- A call that leaves nothing guarded in flight by itself: all but sending the line or a debug
report, the report reset and the release of the line. -/
def Call.plain : Call → Bool
  | .send (.line _) | .send .freeMemory | .send (.skippedTicks _ _) | .resetReportQueue
  | .doneWithLine => false
  | _ => true

theorem neutral_singleton {c : Call} (hc : c.plain) : Neutral [c] := by
  intro n texts p R
  cases c with
  | send o =>
    cases o
    case shortHelp l =>
      simpa only [List.flatMap_cons, List.flatMap_nil, List.append_nil, lowerCall] using
        frameSafe_printShortHelp none false l R
    all_goals simp_all [Call.plain, lowerCall, frameSafe_flash]
  | _ => simp_all [Call.plain, lowerCall, frameSafe]

theorem neutral_of_plain {U : List Call} (h : ∀ c ∈ U, c.plain) : Neutral U := by
  induction U with
  | nil => exact Neutral.nil
  | cons c U ih =>
    exact (neutral_singleton (h c (List.mem_cons_self c U))).append
      (ih fun d hd => h d (List.mem_cons_of_mem c hd))

theorem neutral_echo (l : List UInt8) : Neutral [.send (.line l), .send .crlf] := by
  intro n texts p R
  simp [lowerCall, frameSafe, Src.isLine, Src.isReport, Src.guarded]

theorem neutral_reset : Neutral [.resetReportQueue, .waitForSendDone] := by
  intro n texts p R
  simp [lowerCall, frameSafe]

theorem neutral_debug {o : Out} (ho : o = .freeMemory ∨ ∃ a b, o = .skippedTicks a b) :
    Neutral [.send o, .waitForSendDone] := by
  intro n texts p R
  rcases ho with rfl | ⟨a, b, rfl⟩ <;>
    simpa [lowerCall] using frameSafe_sendDebug false _ R

namespace AppState

variable {cfg : ReportConfig}

theorem neutral_runCommand (s : AppState cfg) (rows : List HandlerRow) (cmd : CmdOut) :
    Neutral (s.runCommand rows cmd).2.1 := by
  rcases runCommand_calls s rows cmd with h | h | h | h | h | ⟨a, b, h⟩ | h <;> rw [h]
  · -- `HLP`
    refine neutral_of_plain ?_
    simp only [distinctLoop_none, List.mem_append, List.mem_cons, List.mem_flatten, List.mem_map,
      exists_exists_and_eq_and, List.not_mem_nil, or_false]
    rintro c (((rfl | rfl | rfl | rfl) | ⟨h, -, rfl | rfl | rfl⟩) | rfl) <;> rfl
  · exact neutral_of_plain (by simp [Call.plain])
  · -- `INI`
    show Neutral ([.resetReportQueue, .waitForSendDone] ++
      (.user .initState :: everyLoop (fun h => [.hook .initState h]) rows))
    refine neutral_reset.append (neutral_of_plain ?_)
    simp only [everyLoop, List.mem_cons, List.mem_flatten, List.mem_map, exists_exists_and_eq_and,
      List.not_mem_nil, or_false]
    rintro c (rfl | ⟨r, -, rfl⟩) <;> rfl
  · exact Neutral.nil
  · exact neutral_debug (.inl rfl)
  · exact neutral_debug (.inr ⟨_, _, rfl⟩)
  · rw [dispatchCommand_eq]
    cases firstMatch cmd.cmd rows with
    | none => exact Neutral.nil
    | some e =>
      simp only [Option.map_some', Option.getD_some, entryResult]
      split_ifs
      · exact neutral_of_plain (by simp [Call.plain])
      · exact Neutral.nil

/-- The command part of `DoPolling` on a line: the echo, calls that leave nothing guarded in
flight, the release. -/
theorem pollCommand_trace (s : AppState cfg) (rows : List HandlerRow) (line : List UInt8) :
    ∃ body, Neutral body ∧ (s.pollCommand rows (some line)).2 =
      (if s.echoState then [.send (.line line), .send .crlf] else []) ++ body ++ [.doneWithLine] := by
  dsimp only [pollCommand]
  generalize s.parser.parseInputLine line = r
  obtain ⟨p, ok⟩ := r
  cases ok
  · exact ⟨_, neutral_of_plain (by simp [Call.plain]), rfl⟩
  dsimp only [if_true]
  generalize p.wasNewCommand ⟨[], 0, 0, 0⟩ = w
  obtain ⟨p', isNew, cmd⟩ := w
  cases isNew
  · exact ⟨[], Neutral.nil, rfl⟩
  have h := neutral_runCommand { s with parser := p' } rows cmd
  dsimp only [if_true]
  generalize AppState.runCommand { s with parser := p' } rows cmd = rc at h
  obtain ⟨s'', calls, bad⟩ := rc
  refine ⟨calls ++ if bad then [Call.send (.shortHelp line)] else [], h.append ?_, by simp⟩
  split_ifs
  · exact neutral_of_plain (by simp [Call.plain])
  · exact Neutral.nil

end AppState

variable {rc : ReportConfig}

/-- Every `DoPolling` call passes the check, from nothing in flight and the line held. -/
theorem frameSafe_cycleOps (c : Cycle rc) (p : Nat) (s : AppState rc) (line : Option (List UInt8)) :
    frameSafe none false (cycleOps c p (s.pollCommand c.rows line).2) = true := by
  cases line with
  | none => exact frameSafe_reportOps false _
  | some l =>
    obtain ⟨body, hb, ht⟩ := s.pollCommand_trace c.rows l
    have hecho : Neutral (if s.echoState then [.send (.line l), .send .crlf] else []) := by
      split_ifs
      · exact neutral_echo l
      · exact Neutral.nil
    rw [cycleOps, ht, List.append_assoc, List.flatMap_append, List.append_assoc, hecho,
      List.flatMap_append, List.append_assoc, hb]
    exact frameSafe_reportOps true _

theorem line_of_mem_lowerCall {texts : Out → List UInt8} {p q : Nat} {c : Call}
    (h : Op.queueSend (.line q) ∈ (lowerCall texts p c : List (Op n))) : q = p := by
  cases c with
  | send o =>
    cases o <;> simp [lowerCall, printShortHelp, shortHelpChar, printChar, printHex8, sendDebug,
      List.mem_flatMap] at h
    · exact h
    · obtain ⟨a, -, h⟩ := h
      split_ifs at h <;> simp at h
  | _ => simp [lowerCall] at h

theorem line_of_mem_cycleOps {c : Cycle rc} {p q : Nat} {calls : List Call}
    (h : Op.queueSend (.line q) ∈ cycleOps c p calls) : q = p ∧ calls ≠ [] := by
  rcases List.mem_append.1 h with h | h
  · obtain ⟨call, hcall, h⟩ := List.mem_flatMap.1 h
    exact ⟨line_of_mem_lowerCall h, List.ne_nil_of_mem hcall⟩
  · obtain ⟨e, -, h⟩ := List.mem_flatMap.1 h
    cases e <;> simp [ReportEv.toOp] at h

end NeurAvr
