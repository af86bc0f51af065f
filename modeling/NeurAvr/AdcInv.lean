import NeurAvr.Adc
import Mathlib.Data.List.Sort

/-!
# Runs of the conversion scheduler

`AdcSys` is the scheduler with its converter, driven by whole main-loop calls
(`ADC_StartConversion`, `ADC_ReadPendingSample`), by the timer interrupt's `ADC_HousekeepingPoll`
taken between them, and by the converter finishing a conversion. Besides the globals it keeps, as
proof-only ghost state, what an observer has seen since the last request `ADC_StartConversion`
accepted: the channels it asked for, the conversions the converter finished (the channel selected
and the value), the samples the polls stored and the samples `ADC_ReadPendingSample` handed out.

`AdcInv` ties the globals to that record: the stored samples and the channels still marked make up
the request, in ascending order; the converter works on the lowest marked channel; the samples
stored are the conversions finished; the unread samples are the stored ones not handed out yet.
Each event keeps it (`AdcInv.step`), so it holds in every reachable state (`AdcInv.run`).

The loops of the source are read through one lemma each (`startScan_foldl`, `pollScan_foldl`,
`readScan_foldl`): each says what the whole loop computes from the channels marked below its
bound, in ascending order.
-/

namespace NeurAvr

/-! ### Channel lists -/

/-- The channels `ADC_StartConversion(channel_mask)` asks for: those below `ADC_CHANNEL_COUNT`
whose bit is set, in ascending order. -/
def requested (n : Nat) (mask : UInt8) : List Nat := (List.range n).filter mask.toNat.testBit

namespace AdcState

variable (n : Nat)

/-- The channels still marked `ADC_needs_conversion`, in ascending order. -/
def pending (s : AdcState) : List Nat := (List.range n).filter s.needsConversion

/-- The unread samples, in ascending channel order. -/
def unread (s : AdcState) : List (Nat × UInt16) :=
  ((List.range n).filter s.dataReady).map fun c => (c, s.data c)

end AdcState

theorem filter_range_succ (p : Nat → Bool) (k : Nat) :
    (List.range (k + 1)).filter p = (List.range k).filter p ++ if p k then [k] else [] := by
  rw [List.range_succ, List.filter_append]
  cases h : p k <;> simp [h]

theorem lt_of_mem_filter_range {p : Nat → Bool} {k c : Nat} (h : c ∈ (List.range k).filter p) :
    c < k :=
  List.mem_range.1 (List.mem_of_mem_filter h)

theorem filter_range_eq_cons {p : Nat → Bool} {k c : Nat} {rest : List Nat}
    (h : (List.range k).filter p = c :: rest) : c < k ∧ p c ∧ ∀ j < c, p j = false := by
  induction k generalizing c rest with
  | zero => cases h
  | succ k ih =>
    rw [filter_range_succ] at h
    cases hk : (List.range k).filter p with
    | cons c' rest' =>
      obtain ⟨hc, hp, hlow⟩ := ih hk
      rw [hk, List.cons_append] at h
      cases h
      exact ⟨by omega, hp, hlow⟩
    | nil =>
      rw [hk, List.nil_append] at h
      have hnil := List.filter_eq_nil_iff.1 hk
      by_cases hpk : p k
      · rw [if_pos hpk] at h
        cases h
        exact ⟨by omega, hpk, fun j hj => by simpa using hnil j (List.mem_range.2 hj)⟩
      · rw [if_neg hpk] at h
        cases h

theorem filter_update_false {p : Nat → Bool} {l rest : List Nat} {c : Nat} (hl : l.Nodup)
    (h : l.filter p = c :: rest) : l.filter (Function.update p c false) = rest := by
  have hnd : (c :: rest).Nodup := h ▸ hl.filter p
  have hupd : l.filter (Function.update p c false) = (l.filter p).filter fun j => j != c := by
    rw [List.filter_filter]
    refine List.filter_congr fun j _ => ?_
    by_cases hj : j = c
    · subst hj; simp
    · simp [hj]
  rw [hupd, h, List.filter_cons_of_neg (by simp), List.filter_eq_self]
  intro j hj
  simpa using fun he : j = c => (List.nodup_cons.1 hnd).1 (he ▸ hj)

theorem filter_range_update_true {p : Nat → Bool} {c k : Nat} (hc : c < k)
    (hp : ∀ j < k, p j = true → j < c) :
    (List.range k).filter (Function.update p c true) = (List.range k).filter p ++ [c] := by
  induction k with
  | zero => omega
  | succ k ih =>
    rw [filter_range_succ, filter_range_succ]
    by_cases hck : c = k
    · subst hck
      have hsame : (List.range c).filter (Function.update p c true) = (List.range c).filter p :=
        List.filter_congr fun j hj => Function.update_noteq (List.mem_range.1 hj).ne _ _
      have hpc : p c = false := by
        cases h : p c
        · rfl
        · exact absurd (hp c (by omega) h) (Nat.lt_irrefl c)
      simp [hsame, hpc]
    · have hpk : p k = false := by
        cases h : p k
        · rfl
        · exact absurd (hp k (by omega) h) (by omega)
      rw [ih (by omega) fun j hj => hp j (by omega), Function.update_noteq (Ne.symm hck), hpk]
      simp

namespace AdcState

variable (n : Nat)

/-! ### The three loops -/

theorem requested_succ (mask : UInt8) (k : Nat) :
    requested (k + 1) mask = requested k mask ++ if mask.toNat.testBit k then [k] else [] :=
  filter_range_succ _ k

theorem startScan_foldl (mask : UInt8) (s : AdcState) (nf : Bool) (f k : Nat) :
    (List.range k).foldl (startScan mask) (s, nf, f) =
      ({ s with needsConversion := fun j => (decide (j < k) && mask.toNat.testBit j) ||
          s.needsConversion j },
        nf && (requested k mask).isEmpty, if nf then (requested k mask).headD f else f) := by
  induction k with
  | zero => cases nf <;> simp [requested]
  | succ k ih =>
    rw [List.range_succ, List.foldl_append, ih, requested_succ, List.foldl_cons, List.foldl_nil,
      startScan]
    by_cases hb : mask.toNat.testBit k
    · rw [if_pos hb, if_pos hb]
      refine Prod.ext ?_ (Prod.ext ?_ ?_)
      · simp only [AdcState.mk.injEq, true_and, and_true]
        funext j
        by_cases hj : j = k
        · subst hj; simp [hb]
        · simp [Function.update_noteq hj, show j < k + 1 ↔ j < k by omega]
      · simp
      · cases nf <;> cases requested k mask <;> simp
    · rw [if_neg hb, if_neg hb, List.append_nil]
      refine Prod.ext ?_ rfl
      simp only [AdcState.mk.injEq, true_and, and_true]
      funext j
      by_cases hj : j = k
      · subst hj; simp [hb]
      · simp [show j < k + 1 ↔ j < k by omega]

theorem pollScan_foldl (hw : AdcHw) (s : AdcState) (k : Nat) :
    (List.range k).foldl (pollScan hw) (s, 0, 0) =
      match (List.range k).filter s.needsConversion with
      | [] => (s, 0, 0)
      | c :: rest =>
        ({ s with needsConversion := Function.update s.needsConversion c false
                  dataReady := Function.update s.dataReady c true
                  data := Function.update s.data c hw.getConversionResult },
          rest.length + 1, rest.headD 0) := by
  induction k with
  | zero => rfl
  | succ k ih =>
    rw [filter_range_succ, List.range_succ, List.foldl_append, ih, List.foldl_cons, List.foldl_nil]
    cases hk : (List.range k).filter s.needsConversion with
    | nil =>
      by_cases hn : s.needsConversion k <;> simp [pollScan, hn]
    | cons c rest =>
      have hck : k ≠ c := (lt_of_mem_filter_range (hk ▸ List.mem_cons_self c rest)).ne'
      by_cases hn : s.needsConversion k
      · cases rest <;> simp [pollScan, hn, Function.update_noteq hck]
      · simp [pollScan, hn, Function.update_noteq hck]

theorem readScan_foldl (s : AdcState) (d : UInt16) (ch k : Nat) :
    (List.range k).foldl readScan (s, false, d, ch) =
      match (List.range k).filter s.dataReady with
      | [] => (s, false, d, ch)
      | c :: _ => ({ s with dataReady := Function.update s.dataReady c false }, true, s.data c, c) := by
  induction k with
  | zero => rfl
  | succ k ih =>
    rw [filter_range_succ, List.range_succ, List.foldl_append, ih, List.foldl_cons, List.foldl_nil]
    cases hk : (List.range k).filter s.dataReady with
    | nil => by_cases hn : s.dataReady k <;> simp [readScan, hn]
    | cons c rest => simp [readScan]

/-! ### The four functions -/

theorem reInitBuffer_dataReady (s : AdcState) (k j : Nat) :
    ((List.range k).foldl clearChannel s).dataReady j = if j < k then false else s.dataReady j := by
  induction k with
  | zero => simp
  | succ k ih =>
    rw [List.range_succ, List.foldl_append, List.foldl_cons, List.foldl_nil, clearChannel]
    by_cases hj : j = k
    · subst hj; simp
    · simp only [Function.update_noteq hj, ih, show j < k + 1 ↔ j < k by omega]

theorem startConversion_of_idle (mask : UInt8) {s : AdcState} (hs : s.idle = true) (hw : AdcHw) :
    let r := startConversion n mask s hw
    r.1.pending n = requested n mask ∧ r.1.unread n = [] ∧ r.1.idle = (requested n mask).isEmpty ∧
      r.2 = match requested n mask with
        | [] => hw
        | c :: _ => hw.readFromChannel n c := by
  have hpend : (List.range n).filter (fun j => (decide (j < n) && mask.toNat.testBit j) ||
      (reInitBuffer n s).needsConversion j) = requested n mask :=
    List.filter_congr fun j hj => by
      simp [reInitBuffer, reInitBuffer_needsConversion, List.mem_range.1 hj]
  have hready : (List.range n).filter (reInitBuffer n s).dataReady = [] :=
    List.filter_eq_nil_iff.2 fun j hj => by
      simp [reInitBuffer, reInitBuffer_dataReady, List.mem_range.1 hj]
  have hidle : (reInitBuffer n s).idle = true := by
    rcases Nat.eq_zero_or_pos n with rfl | hn
    · exact hs
    · exact reInitBuffer_idle s hn
  simp only [startConversion, startConversionHead, hs, if_true, startScan_foldl, Bool.true_and,
    if_true]
  cases hreq : requested n mask with
  | nil => simp [pending, unread, hpend, hreq, hready, hidle]
  | cons c rest => simp [pending, unread, hpend, hreq, hready]

theorem startConversion_of_not_idle (mask : UInt8) {s : AdcState} (hs : s.idle = false)
    (hw : AdcHw) : startConversion n mask s hw = (s, hw) := by
  simp [startConversion, startConversionHead, hs]

theorem housekeepingPoll_of_busy (s : AdcState) {hw : AdcHw} (hb : hw.busy = true) :
    housekeepingPoll n s hw = (s, hw) := by
  simp [housekeepingPoll, AdcHw.isADCBusy, hb]

/-- A poll that finds the conversion done stores it into the lowest marked channel and starts the
next marked one, or goes idle after the last. -/
theorem housekeepingPoll_collect {s : AdcState} {hw : AdcHw} (hs : s.idle = false)
    (hb : hw.busy = false) {c : Nat} {rest : List Nat} (hp : s.pending n = c :: rest) :
    housekeepingPoll n s hw =
      ({ s with needsConversion := Function.update s.needsConversion c false
                dataReady := Function.update s.dataReady c true
                data := Function.update s.data c hw.result
                idle := rest.isEmpty },
        if rest.isEmpty then hw else hw.readFromChannel n (rest.headD 0)) := by
  simp only [housekeepingPoll, hs, hb, AdcHw.isADCBusy, Bool.not_false, Bool.and_self, if_true,
    pollScan_foldl]
  rw [show (List.range n).filter s.needsConversion = c :: rest from hp]
  cases rest <;> simp [AdcHw.getConversionResult]

theorem readPendingSample_eq (s : AdcState) (d : UInt16) (ch : Nat) :
    readPendingSample n s d ch =
      if s.idle then
        match (List.range n).filter s.dataReady with
        | [] => (s, false, d, ch)
        | c :: _ => ({ s with dataReady := Function.update s.dataReady c false }, true, s.data c, c)
      else (s, false, d, ch) := by
  unfold readPendingSample
  split_ifs
  · rw [readScan_foldl]
  · rfl

end AdcState

/-! ### The scheduler with its converter -/

/-- What can happen between whole main-loop ADC calls. -/
inductive AdcEv
  /-- The main loop calls `ADC_StartConversion(mask)`. -/
  | start (mask : UInt8)
  /-- The main loop calls `ADC_ReadPendingSample`. -/
  | read
  /-- The timer interrupt calls `ADC_HousekeepingPoll()`. -/
  | poll
  /-- The converter finishes the conversion in progress with the value `v`. -/
  | complete (v : UInt16)
deriving Repr, DecidableEq

/-- The scheduler's globals and the converter, with what has been seen since the last request
`ADC_StartConversion` accepted. -/
structure AdcSys where
  s : AdcState
  hw : AdcHw
  /-- The channels the last accepted request asked for. -/
  req : List Nat
  /-- The conversions the converter finished since: the channel selected and the value. -/
  conv : List (Nat × UInt16)
  /-- The samples the polls stored since. -/
  done : List (Nat × UInt16)
  /-- The samples `ADC_ReadPendingSample` handed out since. -/
  taken : List (Nat × UInt16)

namespace AdcSys

variable (n : Nat)

/-- Power-on, after `ADC_Init()`. -/
def powerOn : AdcSys := ⟨AdcState.powerOn, AdcHw.init, [], [], [], []⟩

/-- The samples a poll from `s` to `s'` stored: the channels whose mark it cleared, with the value
they now hold. -/
def stored (s s' : AdcState) : List (Nat × UInt16) :=
  ((List.range n).filter fun c => s.needsConversion c && !s'.needsConversion c).map
    fun c => (c, s'.data c)

/-- One event. An accepted `ADC_StartConversion` starts a new record. -/
def step (x : AdcSys) : AdcEv → AdcSys
  | .start mask =>
    let r := AdcState.startConversion n mask x.s x.hw
    if x.s.idle then ⟨r.1, r.2, requested n mask, [], [], []⟩ else { x with s := r.1, hw := r.2 }
  | .read =>
    let r := AdcState.readPendingSample n x.s 0 0
    { x with s := r.1, taken := x.taken ++ if r.2.1 then [(r.2.2.2, r.2.2.1)] else [] }
  | .poll =>
    let r := AdcState.housekeepingPoll n x.s x.hw
    { x with s := r.1, hw := r.2, done := x.done ++ stored n x.s r.1 }
  | .complete v =>
    { x with hw := x.hw.complete v, conv := x.conv ++ if x.hw.busy then [(x.hw.admux, v)] else [] }

/-- A run of events. -/
def run (x : AdcSys) (evs : List AdcEv) : AdcSys := evs.foldl (step n) x

/-- What `k` calls of `ADC_ReadPendingSample` in a row return: the sample handed out, or `none`
for a call that returns false. -/
def readOut : Nat → AdcState → List (Option (Nat × UInt16))
  | 0, _ => []
  | k + 1, s =>
    let r := AdcState.readPendingSample n s 0 0
    (if r.2.1 then some (r.2.2.2, r.2.2.1) else none) :: readOut k r.1

end AdcSys

/-- The scheduler against the record of the request it serves. -/
structure AdcInv (n : Nat) (x : AdcSys) : Prop where
  /-- The request is in ascending channel order. -/
  sorted : x.req.Sorted (· < ·)
  /-- The stored samples and the marked channels make up the request. -/
  split : x.done.map Prod.fst ++ x.s.pending n = x.req
  /-- `ADC_idle` is set exactly when no channel is marked. -/
  idle : x.s.idle = true ↔ x.s.pending n = []
  /-- The converter works on the lowest marked channel. -/
  admux : ∀ c rest, x.s.pending n = c :: rest → x.hw.admux = c
  busy : x.s.idle = true → x.hw.busy = false
  /-- Every finished conversion is stored but the one a poll has still to collect. -/
  conv : x.conv = x.done ++ if x.s.idle || x.hw.busy then [] else [(x.hw.admux, x.hw.result)]
  /-- The unread samples are the stored ones not handed out yet. -/
  unread : x.taken ++ x.s.unread n = x.done
  /-- Nothing is read during a request. -/
  fresh : x.s.idle = false → x.taken = []

namespace AdcInv

variable {n : Nat} {x : AdcSys}

theorem powerOn : AdcInv n AdcSys.powerOn where
  sorted := List.sorted_nil
  split := by simp [AdcSys.powerOn, AdcState.pending, AdcState.powerOn]
  idle := by simp [AdcSys.powerOn, AdcState.pending, AdcState.powerOn]
  admux := by simp [AdcSys.powerOn, AdcState.pending, AdcState.powerOn]
  busy := fun _ => rfl
  conv := rfl
  unread := by simp [AdcSys.powerOn, AdcState.unread, AdcState.powerOn]
  fresh := fun h => by cases h

theorem start (h : AdcInv n x) (mask : UInt8) : AdcInv n (x.step n (.start mask)) := by
  cases hs : x.s.idle
  · simp only [AdcSys.step, hs, AdcState.startConversion_of_not_idle n mask hs]
    exact h
  obtain ⟨hpend, hunread, hidle, hhw⟩ := AdcState.startConversion_of_idle n mask hs x.hw
  simp only [AdcSys.step, hs, if_true]
  generalize AdcState.startConversion n mask x.s x.hw = r at hpend hunread hidle hhw
  obtain ⟨s', hw'⟩ := r
  dsimp only at hpend hunread hidle hhw
  cases hreq : requested n mask with
  | nil =>
    rw [hreq] at hpend hidle hhw
    subst hhw
    exact ⟨List.sorted_nil, by simp [hpend], by simp [hpend, hidle], by simp [hpend],
      fun _ => h.busy hs, by simp [hidle], by simp [hunread], fun _ => rfl⟩
  | cons c rest =>
    rw [hreq] at hpend hidle hhw
    have hc : c < n := lt_of_mem_filter_range (hreq ▸ List.mem_cons_self c rest)
    subst hhw
    refine ⟨hreq ▸ (List.sorted_lt_range n).filter _, by simp [hpend], by simp [hpend, hidle],
      fun c' rest' h' => ?_, by simp [hidle], by simp [AdcHw.readFromChannel, hc, hidle],
      by simp [hunread], fun _ => rfl⟩
    rw [hpend] at h'
    cases h'
    simp [AdcHw.readFromChannel, hc]

theorem read (h : AdcInv n x) : AdcInv n (x.step n .read) := by
  by_cases hs : x.s.idle = true
  · cases hr : (List.range n).filter x.s.dataReady with
    | nil => simpa [AdcSys.step, AdcState.readPendingSample_eq, hs, hr] using h
    | cons c rest =>
      have hstep : x.step n .read =
          { x with s := { x.s with dataReady := Function.update x.s.dataReady c false }
                   taken := x.taken ++ [(c, x.s.data c)] } := by
        simp [AdcSys.step, AdcState.readPendingSample_eq, hs, hr]
      have hrest : (List.range n).filter (Function.update x.s.dataReady c false) = rest :=
        filter_update_false (List.nodup_range n) hr
      rw [hstep]
      refine ⟨h.sorted, h.split, h.idle, h.admux, h.busy, h.conv, ?_, fun h' => absurd hs (by simpa using h')⟩
      rw [← h.unread]
      simp [AdcState.unread, hrest, hr]
  · simpa [AdcSys.step, AdcState.readPendingSample_eq, hs] using h

theorem complete (h : AdcInv n x) (v : UInt16) : AdcInv n (x.step n (.complete v)) := by
  cases hb : x.hw.busy
  · simpa [AdcSys.step, AdcHw.complete, hb] using h
  have hs : x.s.idle = false := by
    cases hs : x.s.idle
    · rfl
    · exact absurd (h.busy hs) (by simp [hb])
  have hstep : x.step n (.complete v) =
      { x with hw := { x.hw with busy := false, result := v }
               conv := x.conv ++ [(x.hw.admux, v)] } := by
    simp [AdcSys.step, AdcHw.complete, hb]
  rw [hstep]
  refine ⟨h.sorted, h.split, h.idle, h.admux, fun h' => by simp [hs] at h', ?_, h.unread, h.fresh⟩
  simp [h.conv, hs, hb]

theorem ready_lt (h : AdcInv n x) (hs : x.s.idle = false) {c : Nat} {rest : List Nat}
    (hp : x.s.pending n = c :: rest) {j : Nat} (hj : j < n) (hr : x.s.dataReady j = true) : j < c := by
  have hmem : j ∈ x.done.map Prod.fst := by
    rw [← h.unread, h.fresh hs, List.nil_append]
    exact List.mem_map.2 ⟨(j, x.s.data j),
      List.mem_map.2 ⟨j, List.mem_filter.2 ⟨List.mem_range.2 hj, hr⟩, rfl⟩, rfl⟩
  have hsorted := h.sorted
  rw [← h.split, hp, List.Sorted, List.pairwise_append] at hsorted
  exact hsorted.2.2 j hmem c (List.mem_cons_self c rest)

theorem step_poll_collect (hs : x.s.idle = false) (hb : x.hw.busy = false)
    {c : Nat} {rest : List Nat} (hp : x.s.pending n = c :: rest) :
    x.step n .poll =
      { x with s := { x.s with needsConversion := Function.update x.s.needsConversion c false
                               dataReady := Function.update x.s.dataReady c true
                               data := Function.update x.s.data c x.hw.result
                               idle := rest.isEmpty }
               hw := if rest.isEmpty then x.hw else x.hw.readFromChannel n (rest.headD 0)
               done := x.done ++ [(c, x.hw.result)] } := by
  have hc := filter_range_eq_cons hp
  have hone : (List.range n).filter (fun j => x.s.needsConversion j &&
      !Function.update x.s.needsConversion c false j) = [c] := by
    rw [show (fun j => x.s.needsConversion j && !Function.update x.s.needsConversion c false j) =
        Function.update (fun _ => false) c true from funext fun j => by
          by_cases hj : j = c
          · subst hj; simp [hc.2.1]
          · simp [hj]]
    rw [filter_range_update_true hc.1 fun j _ h => by cases h]
    simp
  simp only [AdcSys.step, AdcState.housekeepingPoll_collect n hs hb hp, AdcSys.stored, hone,
    List.map_cons, List.map_nil, Function.update_same]

theorem poll (h : AdcInv n x) : AdcInv n (x.step n .poll) := by
  by_cases hact : x.s.idle = false ∧ x.hw.busy = false
  swap
  · -- Idle, or the converter still busy: nothing changes.
    have hr : AdcState.housekeepingPoll n x.s x.hw = (x.s, x.hw) := by
      rcases not_and_or.1 hact with hs | hb
      · exact AdcState.housekeepingPoll_of_idle n (by simpa using hs) _
      · exact AdcState.housekeepingPoll_of_busy n _ (by simpa using hb)
    simpa [AdcSys.step, hr, AdcSys.stored] using h
  obtain ⟨hs, hb⟩ := hact
  obtain ⟨c, rest, hp⟩ : ∃ c rest, x.s.pending n = c :: rest := by
    cases hp : x.s.pending n with
    | nil => exact absurd (h.idle.2 hp) (by simp [hs])
    | cons c rest => exact ⟨c, rest, rfl⟩
  have hc := filter_range_eq_cons hp
  have hrest : (List.range n).filter (Function.update x.s.needsConversion c false) = rest :=
    filter_update_false (List.nodup_range n) hp
  have hready : (List.range n).filter (Function.update x.s.dataReady c true) =
      (List.range n).filter x.s.dataReady ++ [c] :=
    filter_range_update_true hc.1 fun j hj hr => h.ready_lt hs hp hj hr
  have hnext : ∀ d rest', rest = d :: rest' → d < n := fun d rest' hd =>
    lt_of_mem_filter_range (show d ∈ x.s.pending n by
      rw [hp, hd]; exact List.mem_cons_of_mem c (List.mem_cons_self d rest'))
  rw [step_poll_collect hs hb hp]
  refine ⟨h.sorted, ?_, ?_, ?_, ?_, ?_, ?_, fun _ => h.fresh hs⟩
  · rw [← h.split, hp]
    simp [AdcState.pending, hrest]
  · simp [AdcState.pending, hrest]
  · intro d rest' hd
    simp only [AdcState.pending, hrest] at hd
    subst hd
    simp [AdcHw.readFromChannel, hnext d rest' rfl]
  · cases rest
    · exact fun _ => hb
    · simp
  · rw [h.conv, h.admux c rest hp]
    cases rest with
    | nil => simp [hs, hb]
    | cons d rest' => simp [hs, hb, AdcHw.readFromChannel, hnext d rest' rfl]
  · have hunread : x.s.unread n = x.done := by rw [← h.unread, h.fresh hs, List.nil_append]
    rw [h.fresh hs, List.nil_append, ← hunread]
    simp only [AdcState.unread, hready, List.map_append, List.map_cons, List.map_nil,
      Function.update_same]
    congr 1
    refine List.map_congr_left fun j hj => ?_
    obtain ⟨hj, hr⟩ := List.mem_filter.1 hj
    rw [Function.update_noteq (h.ready_lt hs hp (List.mem_range.1 hj) hr).ne]

theorem step (h : AdcInv n x) : ∀ e, AdcInv n (x.step n e)
  | .start mask => h.start mask
  | .read => h.read
  | .poll => h.poll
  | .complete v => h.complete v

theorem run (h : AdcInv n x) (evs : List AdcEv) : AdcInv n (x.run n evs) := by
  induction evs generalizing x with
  | nil => exact h
  | cons e evs ih => exact ih (h.step e)

end AdcInv

/-- Calls of `ADC_ReadPendingSample` on an idle scheduler hand out the unread samples in order,
then return false. -/
theorem AdcSys.readOut_eq (n : Nat) {s : AdcState} (hs : s.idle = true) (k : Nat) :
    AdcSys.readOut n k s =
      ((s.unread n).take k).map some ++ List.replicate (k - (s.unread n).length) none := by
  induction k generalizing s with
  | zero => simp [AdcSys.readOut]
  | succ k ih =>
    simp only [AdcSys.readOut, AdcState.readPendingSample_eq, hs, if_true]
    cases hr : (List.range n).filter s.dataReady with
    | nil =>
      have hu : s.unread n = [] := by simp [AdcState.unread, hr]
      simp [ih hs, hu, List.replicate_succ]
    | cons c rest =>
      have hrest : (List.range n).filter (Function.update s.dataReady c false) = rest :=
        filter_update_false (List.nodup_range n) hr
      simp [ih, AdcState.unread, hr, hrest]

/-- Over every run of whole main-loop calls, timer polls taken between them and conversions the
converter finishes, from power-on: `ADC_idle` is set exactly when no channel is marked, and
otherwise the converter works on the lowest marked channel. Since the last accepted
`ADC_StartConversion(mask)`, the polls have stored the requested channels (those below
`ADC_CHANNEL_COUNT` with their bit set, ascending) in order, once each, each with the value the
converter produced for it, and `ADC_idle` is set exactly when all are stored; a conversion
finished and a poll store the next one. Once idle, `ADC_ReadPendingSample` hands out the stored
samples not read yet, in order, then returns false; nothing is read during a request. -/
theorem adc_requests_served (n : Nat) (evs : List AdcEv) :
    let x := AdcSys.powerOn.run n evs
    (x.s.idle = true → ∀ c < n, x.s.needsConversion c = false) ∧
      (x.s.idle = false → ∃ c < n, x.s.needsConversion c = true ∧
        (∀ j < c, x.s.needsConversion j = false) ∧ x.hw.admux = c) ∧
      x.req.Sorted (· < ·) ∧ x.done.map Prod.fst <+: x.req ∧ x.done <+: x.conv ∧
      (x.s.idle = true ↔ x.done.map Prod.fst = x.req) ∧
      (x.s.idle = false → ∀ v, ((x.step n (.complete v)).step n .poll).done =
        x.done ++ [(x.hw.admux, if x.hw.busy then v else x.hw.result)]) ∧
      (x.s.idle = false → x.taken = []) ∧
      (x.s.idle = true → ∀ k, AdcSys.readOut n k x.s =
        ((x.done.drop x.taken.length).take k).map some ++
          List.replicate (k - (x.done.length - x.taken.length)) none) := by
  intro x
  have h : AdcInv n x := AdcInv.powerOn.run evs
  have hpend : x.s.idle = false → ∃ c rest, x.s.pending n = c :: rest := fun hs => by
    cases hp : x.s.pending n with
    | nil => exact absurd (h.idle.2 hp) (by simp [hs])
    | cons c rest => exact ⟨c, rest, rfl⟩
  refine ⟨fun hs c hc => ?_, fun hs => ?_, h.sorted, ⟨_, h.split⟩, ⟨_, h.conv.symm⟩, ?_,
    fun hs v => ?_, h.fresh, fun hs k => ?_⟩
  · simpa using List.filter_eq_nil_iff.1 (h.idle.1 hs) c (List.mem_range.2 hc)
  · obtain ⟨c, rest, hp⟩ := hpend hs
    obtain ⟨hc, hnc, hlow⟩ := filter_range_eq_cons hp
    exact ⟨c, hc, hnc, hlow, h.admux c rest hp⟩
  · rw [h.idle, ← h.split]
    simp
  · -- The converter finishes, then the poll collects the lowest marked channel.
    obtain ⟨c, rest, hp⟩ := hpend hs
    have hb : (x.step n (.complete v)).hw.busy = false := by
      cases hb : x.hw.busy <;> simp [AdcSys.step, AdcHw.complete, hb]
    rw [AdcInv.step_poll_collect (x := x.step n (.complete v)) hs hb hp]
    cases hb : x.hw.busy <;> simp [AdcSys.step, AdcHw.complete, hb, h.admux c rest hp]
  · rw [AdcSys.readOut_eq n hs, ← h.unread, List.drop_left, List.length_append,
      Nat.add_sub_cancel_left]

/-! ### `ADC_WaitForData` -/

/-- What can happen while the main loop is inside `ADC_WaitForData`: timer polls and the converter,
no main-loop call. -/
def AdcEv.fromInterrupt : AdcEv → Bool
  | .poll | .complete _ => true
  | .start _ | .read => false

namespace AdcSys

variable (n : Nat)

/-- `ADC_WaitForData()`: `while (!ADC_IsDataReady())`, one check per pass of the busy-wait and
`passes` the events of each pass; the state once a check succeeds, `none` while it still waits. -/
def waitForData (x : AdcSys) : List (List AdcEv) → Option AdcSys
  | [] => if AdcState.isDataReady n x.s then some x else none
  | p :: ps => if AdcState.isDataReady n x.s then some x else waitForData (x.run n p) ps

variable {n}

theorem step_s_of_idle {x : AdcSys} (hs : x.s.idle = true) {e : AdcEv} (he : e.fromInterrupt) :
    (x.step n e).s = x.s := by
  cases e <;> simp_all [step, AdcEv.fromInterrupt, AdcState.housekeepingPoll_of_idle]

theorem run_s_of_idle {x : AdcSys} (hs : x.s.idle = true) {evs : List AdcEv}
    (he : ∀ e ∈ evs, e.fromInterrupt) : (x.run n evs).s = x.s := by
  induction evs generalizing x with
  | nil => rfl
  | cons e evs ih =>
    have h1 := step_s_of_idle (n := n) hs (he e (List.mem_cons_self _ _))
    exact (ih (h1 ▸ hs) fun e' he' => he e' (List.mem_cons_of_mem _ he')).trans h1

end AdcSys

/-- `ADC_WaitForData()` called while the scheduler is idle with no unread sample (at power-on,
after every sample has been read, or after an `ADC_StartConversion` whose mask selects no channel
below `ADC_CHANNEL_COUNT`) never returns, whatever the timer polls and the converter do meanwhile:
`ADC_IsDataReady()` stays false, although its comment says it blocks until "the queued conversion
(if any)" completes. -/
theorem waitForData_never_returns (n : Nat) (x : AdcSys) (hs : x.s.idle = true)
    (hu : x.s.unread n = []) (passes : List (List AdcEv))
    (hp : ∀ p ∈ passes, ∀ e ∈ p, e.fromInterrupt) : x.waitForData n passes = none := by
  have hr : AdcState.isDataReady n x.s = false := by
    simpa [AdcState.isDataReady, AdcState.unread, hs, List.filter_eq_nil_iff] using hu
  induction passes generalizing x with
  | nil => simp [AdcSys.waitForData, hr]
  | cons p ps ih =>
    have hx := AdcSys.run_s_of_idle (n := n) hs (hp p (List.mem_cons_self _ _))
    rw [AdcSys.waitForData, hr, if_neg Bool.false_ne_true]
    exact ih _ (hx ▸ hs) (hx ▸ hu) (fun p' hp' => hp p' (List.mem_cons_of_mem _ hp')) (hx ▸ hr)

theorem waitForData_never_returns_mask_zero :
    (AdcSys.powerOn.step 6 (.start 0)).waitForData 6 [[.poll], [.complete 0x1234, .poll]] = none :=
  waitForData_never_returns 6 _ (by decide) (by decide) _ (by decide)

end NeurAvr
