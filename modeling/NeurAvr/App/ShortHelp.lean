import NeurAvr.App.FrameInv

/-!
# What `PrintShortHelp` puts on the wire

`PrintShortHelp(rawline)` sends its message in pieces: the flash prefix, then per byte of the line
one or three `UART_PrintChar` / `UART_PrintHex8` calls, each of which waits for `scratchstr` to be
free, stores into it and queues it, then the flash suffix. `shortHelpText` is the message as the
help text describes it: the printable bytes themselves, every other byte as `<` and its two
lower-case hex digits and `>`.

The proof has a static and a dynamic half. `printOut` reads a sequence of such operations as the
text it sends, and is undefined when a store into `scratchstr` could hit the string in flight;
`printOut_printShortHelp` says the operations of `PrintShortHelp` read as `shortHelpText`.
`Printing` is the invariant of a run: the operations left send what is still missing from the
stream. Each action keeps it (`Printing.step`), so a run that finishes the operations has put the
whole message on the stream and nothing else (`printShortHelp_stream`), provided no receive line
is in flight. In every state reached from power-on none is (`FrameInv.no_line_at_printShortHelp`),
which gives the same for the whole system (`printShortHelp_stream_reachable`).
-/

namespace NeurAvr

/-! ### The message as the help text describes it -/

/-- A byte of the line as the diagnostic shows it: itself when printable (`32` to `126`), else `<`,
its two lower-case hex digits as an unsigned byte, `>`. -/
def renderByte (b : UInt8) : List UInt8 :=
  if 32 ≤ b.toNat ∧ b.toNat ≤ 126 then [b] else 60 :: hexNumeral b.toNat 2 ++ [62]

/-- The diagnostic for `line`: the prefix, each byte before the NUL rendered, the suffix. -/
def shortHelpText (line : List UInt8) : List UInt8 :=
  shortHelpIntro ++ (cstr line).flatMap renderByte ++ shortHelpOutro

/-! ### The static reading -/

/-- Whether `scratchstr` is the string in flight. -/
def flying : Option (Src × Nat) → Bool
  | some (.scratch, _) => true
  | _ => false

variable {n : Nat}

/-- The text a sequence of print operations sends, `fly` saying whether `scratchstr` may still be
in flight. Undefined for a store into `scratchstr` while it may be in flight, and for anything but
sending flash or `scratchstr`, waiting and storing into `scratchstr`. -/
def printOut (fly : Bool) (sc : ReportBuf intScratchChars) : List (Op n) → Option (List UInt8)
  | [] => some []
  | .queueSend (.flash t) :: ops => (printOut false sc ops).map (cstr t ++ ·)
  | .queueSend .scratch :: ops => (printOut true sc ops).map (cstr sc.bytes ++ ·)
  | .waitForSendDone :: ops => printOut false sc ops
  | .storeScratch i v :: ops => if fly then none else printOut false (sc.store i v) ops
  | _ => none

section
variable (f : Bool) (sc : ReportBuf intScratchChars) (ops : List (Op n))

@[simp] theorem printOut_nil : printOut f sc ([] : List (Op n)) = some [] := rfl

@[simp] theorem printOut_flash (t : List UInt8) :
    printOut f sc (.queueSend (.flash t) :: ops) = (printOut false sc ops).map (cstr t ++ ·) := rfl

@[simp] theorem printOut_scratch :
    printOut f sc (.queueSend .scratch :: ops) = (printOut true sc ops).map (cstr sc.bytes ++ ·) :=
  rfl

@[simp] theorem printOut_wait : printOut f sc (.waitForSendDone :: ops) = printOut false sc ops :=
  rfl

@[simp] theorem printOut_store (i : Nat) (v : UInt8) :
    printOut f sc (.storeScratch i v :: ops) = if f then none else printOut false (sc.store i v) ops :=
  rfl

end

theorem printOut_mono {f f' : Bool} (hf : f' = true → f = true) {sc : ReportBuf intScratchChars}
    {P : List (Op n)} {o : List UInt8} (h : printOut f sc P = some o) : printOut f' sc P = some o := by
  match P with
  | .storeScratch i v :: ops => cases f <;> cases f' <;> first | exact h | cases h | cases hf rfl
  | .queueSend m :: ops => cases m <;> exact h
  | [] | .waitForSendDone :: _ | .storeDebug _ _ :: _ | .doneWithLine :: _ | .resetReportQueue :: _
  | .sendPending :: _ | .makeReport _ _ :: _ => exact h

theorem printOut_stores (is : List Nat) (f : Nat → UInt8) (sc : ReportBuf intScratchChars)
    (R : List (Op n)) :
    printOut false sc (is.map (fun i => .storeScratch i (f i)) ++ R) =
      printOut false (is.foldl (fun sc i => sc.store i (f i)) sc) R := by
  induction is generalizing sc with
  | nil => rfl
  | cons i is ih => exact ih (sc.store i (f i))

theorem getElem?_foldl_set (is : List Nat) (f : Nat → UInt8) (l : List UInt8) (j : Nat) :
    (is.foldl (fun l i => l.set i (f i)) l)[j]? =
      if j ∈ is ∧ j < l.length then some (f j) else l[j]? := by
  induction is generalizing l with
  | nil => simp
  | cons i is ih =>
    rw [List.foldl_cons, ih, List.length_set, List.getElem?_set]
    by_cases hj : j ∈ is ∧ j < l.length
    · rw [if_pos hj, if_pos ⟨List.mem_cons_of_mem i hj.1, hj.2⟩]
    · rw [if_neg hj]
      by_cases hij : i = j
      · subst hij
        by_cases hl : i < l.length
        · simp [hl]
        · simp [hl]; omega
      · rw [if_neg hij, if_neg fun h => hj ⟨(List.mem_cons.1 h.1).resolve_left (Ne.symm hij), h.2⟩]

theorem bytes_foldl_store (is : List Nat) (f : Nat → UInt8) (sc : ReportBuf intScratchChars) :
    (is.foldl (fun sc i => sc.store i (f i)) sc).bytes =
      is.foldl (fun l i => l.set i (f i)) sc.bytes := by
  induction is generalizing sc with
  | nil => rfl
  | cons i is ih => exact ih (sc.store i (f i))

theorem printOut_printChar (f : Bool) (sc : ReportBuf intScratchChars) {c : UInt8} (hc : c ≠ 0)
    (R : List (Op n)) :
    printOut f sc (printChar c ++ R) =
      (printOut true ((sc.store 0 c).store 1 0) R).map ([c] ++ ·) := by
  obtain ⟨bytes, hlen⟩ := sc
  match bytes, hlen with
  | a :: b :: rest, _ => simp [printChar, printOut, cstr, hc]

theorem hexChar_ne_zero {v : Nat} (hv : v < 16) : hexChar v ≠ 0 :=
  (by decide : ∀ w : Fin 16, hexChar w ≠ 0) ⟨v, hv⟩

theorem printOut_printHex (f : Bool) (sc : ReportBuf intScratchChars) (value : UInt32)
    {digits : UInt8} (hd : digits.toNat < intScratchChars) (R : List (Op n)) : ∃ sc',
    printOut f sc (printHex value digits ++ R) =
      (printOut true sc' R).map (hexNumeral value.toNat digits.toNat ++ ·) := by
  let r := writeHex (fun _ => 0) value digits
  have hw : r.2 = (List.range digits.toNat).reverse := by
    simpa using (writeHexLoop_get digits.toNat (fun _ => 0) value digits le_rfl).1
  have hmap : (List.range digits.toNat).map r.1 = hexNumeral value.toNat digits.toNat :=
    writeHex_range_map _ value digits
  have hlen : (hexNumeral value.toNat digits.toNat).length = digits.toNat := by
    rw [← hmap, List.length_map, List.length_range]
  -- the zero fill of `scratchstr`, then the digit stores
  let fill := (List.range intScratchChars).foldl (fun sc i => sc.store i ((fun _ => 0) i)) sc
  have hfill : fill.bytes = List.replicate 16 0 := by
    refine (bytes_foldl_store _ _ sc).trans (List.ext_getElem? fun j => ?_)
    rw [getElem?_foldl_set, sc.length_eq]
    by_cases hj : j < 16
    · rw [if_pos ⟨List.mem_range.2 hj, hj⟩, List.getElem?_replicate, if_pos hj]
    · rw [if_neg fun h => hj h.2, List.getElem?_eq_none (by rw [sc.length_eq]; exact Nat.le_of_not_lt hj),
        List.getElem?_eq_none (by rw [List.length_replicate]; omega)]
  have hdigits : (r.2.foldl (fun sc i => sc.store i (r.1 i)) fill).bytes =
      hexNumeral value.toNat digits.toNat ++ List.replicate (16 - digits.toNat) 0 := by
    refine (bytes_foldl_store _ _ fill).trans (List.ext_getElem? fun j => ?_)
    rw [getElem?_foldl_set, hfill, hw]
    simp only [List.length_replicate, List.mem_reverse, List.mem_range]
    by_cases hj : j < digits.toNat
    · rw [if_pos ⟨hj, by simp only [intScratchChars] at hd; omega⟩,
        List.getElem?_append_left (by rw [hlen]; exact hj), ← hmap, List.getElem?_map,
        List.getElem?_range hj]
      rfl
    · rw [if_neg fun h => hj h.1, List.getElem?_append_right (by rw [hlen]; omega), hlen,
        List.getElem?_replicate, List.getElem?_replicate]
      simp only [intScratchChars] at hd
      split_ifs <;> first | rfl | omega
  have hops : printHex value digits ++ R = .waitForSendDone ::
      ((List.range intScratchChars).map (fun i => .storeScratch i ((fun _ => 0) i)) ++
        (r.2.map (fun i => .storeScratch i (r.1 i)) ++ .queueSend .scratch :: R)) := by
    simp [printHex, r]
  have hne : ∀ c ∈ hexNumeral value.toNat digits.toNat, c ≠ 0 := by
    rw [hexNumeral_eq_map]
    simp only [List.mem_map]
    rintro c ⟨j, -, rfl⟩
    exact hexChar_ne_zero (Nat.mod_lt _ (by omega))
  refine ⟨r.2.foldl (fun sc i => sc.store i (r.1 i)) fill, ?_⟩
  rw [hops, printOut_wait, printOut_stores, printOut_stores, printOut_scratch, hdigits,
    show 16 - digits.toNat = (16 - digits.toNat - 1) + 1 by simp only [intScratchChars] at hd; omega,
    List.replicate_succ, cstr_append_zero_cons hne]

theorem printOut_printHex8 (f : Bool) (sc : ReportBuf intScratchChars) (v : UInt8)
    (R : List (Op n)) : ∃ sc',
    printOut f sc (printHex8 v ++ R) = (printOut true sc' R).map (hexNumeral v.toNat 2 ++ ·) :=
  printOut_printHex f sc v.toUInt32 (by decide) R

theorem printable_iff (b : UInt8) :
    (32 ≤ signedChar b ∧ signedChar b ≤ 126) ↔ (32 ≤ b.toNat ∧ b.toNat ≤ 126) := by
  have := byte_toNat_lt b
  unfold signedChar
  split_ifs <;> omega

theorem printOut_shortHelpChar (f : Bool) (sc : ReportBuf intScratchChars) {b : UInt8} (hb : b ≠ 0)
    (R : List (Op n)) : ∃ sc',
    printOut f sc (shortHelpChar b ++ R) = (printOut true sc' R).map (renderByte b ++ ·) := by
  unfold shortHelpChar renderByte
  by_cases hp : 32 ≤ b.toNat ∧ b.toNat ≤ 126
  · rw [if_pos ((printable_iff b).2 hp), if_pos hp]
    exact ⟨_, printOut_printChar f sc hb R⟩
  · rw [if_neg (mt (printable_iff b).1 hp), if_neg hp, List.append_assoc, List.append_assoc,
      printOut_printChar f sc (by decide)]
    obtain ⟨sc₁, h₁⟩ := printOut_printHex8 true ((sc.store 0 60).store 1 0) b (printChar 62 ++ R)
    rw [h₁, printOut_printChar true sc₁ (by decide)]
    exact ⟨(sc₁.store 0 62).store 1 0, by simp [Option.map_map, Function.comp_def]⟩

theorem printOut_shortHelpChars (t : List UInt8) :
    ∀ (l : List UInt8), (∀ b ∈ l, b ≠ 0) → ∀ (f : Bool) (sc : ReportBuf intScratchChars),
      printOut f sc (l.flatMap shortHelpChar ++ [(.queueSend (.flash t) : Op n)]) =
        some (l.flatMap renderByte ++ cstr t)
  | [], _, f, sc => by simp
  | b :: l, hl, f, sc => by
    obtain ⟨sc', h⟩ := printOut_shortHelpChar f sc (hl b (List.mem_cons_self b l))
      (l.flatMap shortHelpChar ++ [(.queueSend (.flash t) : Op n)])
    rw [List.flatMap_cons, List.append_assoc, h,
      printOut_shortHelpChars t l (fun c hc => hl c (List.mem_cons_of_mem b hc)) true sc']
    simp

/-- The operations of `PrintShortHelp(line)` send `shortHelpText line`. -/
theorem printOut_printShortHelp (f : Bool) (sc : ReportBuf intScratchChars) (line : List UInt8) :
    printOut f sc (printShortHelp line : List (Op n)) = some (shortHelpText line) := by
  rw [printShortHelp, List.cons_append, printOut_flash, printOut_shortHelpChars _ _ fun b => ne_zero_of_mem_cstr]
  simp [shortHelpText, show cstr shortHelpIntro = shortHelpIntro from rfl,
    show cstr shortHelpOutro = shortHelpOutro from rfl]

/-! ### The run -/

variable {cfg : UartConfig} {rc : ReportConfig}

namespace FrameSys

variable (x : FrameSys cfg rc)

theorem udreISR_tx {m : Src} {cur : Nat} (h : x.udreISR.tx = some (m, cur)) :
    ∃ c, x.tx = some (m, c) := by
  revert h
  unfold udreISR
  cases htx : x.tx with
  | none => simp [htx]
  | some t =>
    obtain ⟨m', c⟩ := t
    dsimp only
    split_ifs
    · simp
    · simp only [Option.some.injEq, Prod.mk.injEq, and_imp]
      rintro rfl -
      exact ⟨c, by simp⟩

theorem stream_storeScratch (h : flying x.tx = false) (i : Nat) (v : UInt8)
    (ops : List (Op rc.bufferChars)) :
    ({ x with scratch := x.scratch.store i v, prog := ops } : FrameSys cfg rc).stream = x.stream := by
  unfold FrameSys.stream FrameSys.inflight
  cases htx : x.tx with
  | none => rfl
  | some t =>
    obtain ⟨m, cur⟩ := t
    rw [htx] at h
    cases m <;> first | rfl | cases h

end FrameSys

open FrameSys

/-- The middle of a print: the main loop has the operations `P` of it left before `rest`, what they
will still send completes the stream to `goal`, and no receive line is in flight. -/
structure Printing (x : FrameSys cfg rc) (P rest : List (Op rc.bufferChars)) (goal : List UInt8) :
    Prop where
  prog : x.prog = P ++ rest
  out : ∃ o, printOut (flying x.tx) x.scratch P = some o ∧ x.stream ++ o = goal
  noLine : ∀ p cur, x.tx ≠ some (.line p, cur)

namespace Printing

variable {x : FrameSys cfg rc} {P rest : List (Op rc.bufferChars)} {goal : List UInt8}

theorem runOp (h : Printing x (op :: P) rest goal) :
    Printing (x.runOp (P ++ rest) op) P rest goal ∨ x.runOp (P ++ rest) op = x := by
  obtain ⟨o, ho, hgoal⟩ := h.out
  cases op with
  | queueSend m =>
    by_cases htx : x.tx = none
    · left
      simp only [FrameSys.runOp, if_pos htx]
      cases m with
      | flash t =>
        obtain ⟨o', ho', rfl⟩ := Option.map_eq_some'.1 ho
        exact ⟨rfl, ⟨o', ho', by rw [x.stream_queueSend htx, List.append_assoc]; exact hgoal⟩,
          by simp⟩
      | scratch =>
        obtain ⟨o', ho', rfl⟩ := Option.map_eq_some'.1 ho
        exact ⟨rfl, ⟨o', ho', by rw [x.stream_queueSend htx, List.append_assoc]; exact hgoal⟩,
          by simp⟩
      | _ => cases ho
    · right
      simp only [FrameSys.runOp, if_neg htx]
  | waitForSendDone =>
    by_cases htx : x.tx = none
    · left
      simp only [FrameSys.runOp, if_pos htx]
      exact ⟨rfl, ⟨o, by simpa [htx, flying] using ho, hgoal⟩, by simp [htx]⟩
    · right
      simp only [FrameSys.runOp, if_neg htx]
  | storeScratch i v =>
    left
    have hf : flying x.tx = false := by
      cases hf : flying x.tx
      · rfl
      · simp [hf] at ho
    rw [printOut_store, hf, if_neg Bool.false_ne_true] at ho
    refine ⟨rfl, ⟨o, ?_, ?_⟩, h.noLine⟩
    · simpa [FrameSys.runOp, hf] using ho
    · rw [FrameSys.runOp, x.stream_storeScratch hf]; exact hgoal
  | _ => cases ho

theorem step (h : Printing x P rest goal) (e : FrameEv) :
    (∃ P', Printing (x.step e) P' rest goal) ∨ (x.step e).prog.length < rest.length := by
  cases e with
  | main =>
    show (∃ P', Printing x.mainStep P' rest goal) ∨ x.mainStep.prog.length < rest.length
    cases P with
    | nil =>
      rcases x.mainStep_cases with hm | ⟨op, hm⟩
      · exact .inl ⟨[], by rw [hm]; exact h⟩
      · have := congrArg List.length hm
        rw [h.prog, List.nil_append, List.length_cons] at this
        exact .inr (by omega)
    | cons op P =>
      have hm : x.mainStep = x.runOp (P ++ rest) op := by
        unfold mainStep; rw [h.prog]; rfl
      rw [hm]
      rcases h.runOp with h' | h'
      · exact .inl ⟨P, h'⟩
      · exact .inl ⟨op :: P, h'.symm ▸ h⟩
  | udre =>
    show (∃ P', Printing x.udreISR P' rest goal) ∨ x.udreISR.prog.length < rest.length
    obtain ⟨hp, -, -, hsc, -⟩ := x.udreISR_mem
    obtain ⟨o, ho, hgoal⟩ := h.out
    refine .inl ⟨P, ⟨hp.trans h.prog, ⟨o, ?_, (x.stream_udreISR).symm ▸ hgoal⟩, fun p cur hl => ?_⟩⟩
    · refine hsc ▸ printOut_mono (fun hf => ?_) ho
      revert hf
      cases htx : x.udreISR.tx with
      | none => simp [flying]
      | some t =>
        obtain ⟨m, c⟩ := t
        obtain ⟨c', hc'⟩ := x.udreISR_tx htx
        cases m <;> simp [flying, hc']
    · obtain ⟨c, hc⟩ := x.udreISR_tx hl
      exact h.noLine p c hc
  | recv c =>
    obtain ⟨o, ho, hgoal⟩ := h.out
    exact .inl ⟨P, ⟨h.prog, ⟨o, ho, (x.stream_recvISR c h.noLine).symm ▸ hgoal⟩, h.noLine⟩⟩

theorem run (h : Printing x P rest goal) (evs : List FrameEv) (hend : (x.run evs).prog = rest) :
    (x.run evs).stream = goal := by
  induction evs generalizing x P with
  | nil =>
    obtain ⟨o, ho, hgoal⟩ := h.out
    have hP : P = [] := List.append_left_eq_self.1 (h.prog.symm.trans hend)
    subst hP
    cases ho
    simpa using hgoal
  | cons e evs ih =>
    rcases h.step e with ⟨P', h'⟩ | hlt
    · exact ih h' hend
    · have := ((x.step e).prog_run_suffix evs).length_le
      rw [run_cons] at hend
      rw [hend] at this
      omega

end Printing

/-- For every line, and under every interleaving of the main loop with the transmit and the
receive interrupt: from any state in which the main loop is about to run `PrintShortHelp(line)`
and no receive line is in flight, a run that finishes the call has added to the transmit stream
exactly `shortHelpText line`, and nothing else. -/
theorem printShortHelp_stream (x : FrameSys cfg rc) (line : List UInt8)
    (rest : List (Op rc.bufferChars)) (evs : List FrameEv)
    (hprog : x.prog = printShortHelp line ++ rest) (hline : ∀ p cur, x.tx ≠ some (.line p, cur))
    (hend : (x.run evs).prog = rest) :
    (x.run evs).stream = x.stream ++ shortHelpText line :=
  Printing.run ⟨hprog, ⟨_, printOut_printShortHelp _ _ line, rfl⟩, hline⟩ evs hend

set_option maxRecDepth 8000 in
/-- The line `[7]` from power-on, the main loop and the transmit interrupt taking turns: the
diagnostic is `Unrecognized command:  "<07>". Type "?" or "HLP" for help.` and a CR LF. -/
theorem printShortHelp_stream_bell :
    let x : FrameSys m328p neurapp := { FrameSys.powerOn m328p neurapp with prog := printShortHelp [7] }
    let evs := (List.replicate 58 [FrameEv.main, .udre]).flatten
    (x.run evs).prog = [] ∧ (x.run evs).stream = x.stream ++ shortHelpText [7] := by
  intro x evs
  have hend : (x.run evs).prog = [] := by decide
  exact ⟨hend, printShortHelp_stream x [7] [] evs rfl (fun _ _ h => Option.noConfusion h) hend⟩

/-- In a state of the system invariant no receive line is in flight when `PrintShortHelp` starts:
a line goes out only as the echo, and its `\r\n` is queued before anything else. -/
theorem FrameInv.no_line_at_printShortHelp {x : FrameSys cfg rc} (h : FrameInv x)
    {line : List UInt8} {rest : List (Op rc.bufferChars)} (hprog : x.prog = printShortHelp line ++ rest) :
    ∀ p cur, x.tx ≠ some (.line p, cur) := fun p cur hc => by
  have := h.echo p cur hc
  simp [hprog, printShortHelp, shortHelpIntro, crlfText] at this

/-- From power-on, for every line and under every interleaving of the main loop, both interrupts
and the starts of `DoPolling` calls: once the main loop is about to run `PrintShortHelp(line)`, a
run that finishes the call has added to the transmit stream exactly `shortHelpText line`. -/
theorem printShortHelp_stream_reachable (evs : List (SysEv rc)) (line : List UInt8)
    (rest : List (Op rc.bufferChars)) (evs' : List FrameEv) :
    let x := (FrameSys.powerOn cfg rc).runSys evs
    x.prog = printShortHelp line ++ rest → (x.run evs').prog = rest →
      (x.run evs').stream = x.stream ++ shortHelpText line := fun hprog hend =>
  Printing.run ⟨hprog, ⟨_, printOut_printShortHelp _ _ line, rfl⟩,
    (frameInv_runSys evs).no_line_at_printShortHelp hprog⟩ evs' hend

set_option maxRecDepth 8000 in
/-- With no handler, the line `Q` from power-on is echoed; once its `\r\n` is queued the main
loop is at `PrintShortHelp("Q")`, and 34 rounds of the main loop and the transmit interrupt get
through it. -/
theorem printShortHelp_stream_reachable_q :
    let quiet : Cycle neurapp := ⟨[], [], fun _ => []⟩
    let evs : List (SysEv neurapp) :=
      [.ev (.recv 81), .ev (.recv 13), .poll quiet, .ev .main, .ev .udre, .ev .udre, .ev .main]
    let x := (FrameSys.powerOn m328p neurapp).runSys evs
    let rest := x.prog.drop (printShortHelp (n := neurapp.bufferChars) [81]).length
    let evs' := (List.replicate 34 [FrameEv.main, .udre]).flatten
    x.prog = printShortHelp [81] ++ rest ∧ (x.run evs').prog = rest ∧
      (x.run evs').stream = x.stream ++ shortHelpText [81] := by
  intro quiet evs x rest evs'
  have hprog : x.prog = printShortHelp [81] ++ rest := by decide
  have hend : (x.run evs').prog = rest := by decide
  exact ⟨hprog, hend, printShortHelp_stream_reachable evs [81] rest evs' hprog hend⟩

/-! ### The hex printing routines -/

/-- `UART_PrintHex32`, `UART_PrintHex16` and `UART_PrintHex8`, for every value and every digit
count that leaves room for the NUL: from any state in which the main loop is about to run the
routine and no receive line is in flight, a run that finishes the call has added to the transmit
stream exactly the `digits` lower-case hex digits of `value`, most significant first. -/
theorem printHex_stream (x : FrameSys cfg rc) (value : UInt32) (digits : UInt8)
    (hd : digits.toNat < intScratchChars) (rest : List (Op rc.bufferChars)) (evs : List FrameEv)
    (hprog : x.prog = printHex value digits ++ rest) (hline : ∀ p cur, x.tx ≠ some (.line p, cur))
    (hend : (x.run evs).prog = rest) :
    (x.run evs).stream = x.stream ++ hexNumeral value.toNat digits.toNat := by
  obtain ⟨sc', h⟩ := printOut_printHex (flying x.tx) x.scratch value hd ([] : List (Op rc.bufferChars))
  rw [List.append_nil] at h
  exact Printing.run ⟨hprog, ⟨_, h.trans (by simp), rfl⟩, hline⟩ evs hend

set_option maxRecDepth 8000 in
/-- `UART_PrintHex32(0x1234abcd)` from power-on, the main loop and the transmit interrupt taking
turns: the stream gets `1234abcd`. -/
theorem printHex_stream_hex32 :
    let x : FrameSys m328p neurapp :=
      { FrameSys.powerOn m328p neurapp with prog := printHex32 0x1234abcd }
    let evs := (List.replicate 26 [FrameEv.main, .udre]).flatten
    (x.run evs).prog = [] ∧
      (x.run evs).stream = x.stream ++ hexNumeral (0x1234abcd : UInt32).toNat 8 ∧
      hexNumeral (0x1234abcd : UInt32).toNat 8 = [49, 50, 51, 52, 97, 98, 99, 100] := by
  intro x evs
  have hend : (x.run evs).prog = [] := by decide
  exact ⟨hend, printHex_stream x 0x1234abcd 8 (by decide) [] evs rfl
    (fun _ _ h => Option.noConfusion h) hend, by decide⟩

end NeurAvr
