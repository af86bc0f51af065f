import Mathlib.Logic.Function.Basic

/-!
# The atomic section of the workstation emulation (`ATOMIC_GetCli`, `ATOMIC_ReleaseCli`)

On the workstation build `ATOMIC_BLOCK` is a `for` loop around `ATOMIC_GetCli` and
`ATOMIC_ReleaseCli`, and interrupts are threads. Two mutexes do the work:
`atomic_waiting_mutex` is held by the thread inside an atomic block, and `atomic_access_mutex`
guards the bookkeeping, `atomic_owner_count` and `atomic_owner_id`. `ATOMIC_GetCli` reads the
bookkeeping, releases the access mutex, then locks the waiting mutex unless the count is nonzero
and the owner is the calling thread, and at last bumps the count and writes its own id.
`ATOMIC_ReleaseCli` drops the count and unlocks the waiting mutex when the count reaches zero.

The model is the interleaving of any number of threads (any type `τ` of thread ids), each step
one critical section of the access mutex, one lock or one unlock of the waiting mutex; a lock of a
held mutex waits. The bookkeeping is read and written only under the access mutex, so its critical
sections are atomic steps. A thread's ghost `depth` counts the blocks it is inside of, and it calls
`ATOMIC_ReleaseCli` only at the end of a block (`ATOMIC_BLOCK` nests properly by construction: the
result of `ATOMIC_GetCli` is never `ATOMIC_DONE`). `AtomicInv` is the invariant of every run.
-/

namespace NeurAvr

/-- `ATOMIC_DONE`. -/
def atomicDone : Int := 0

/-- `ATOMIC_WANT_INTERRUPTS`. -/
def atomicWantInterrupts : Int := 1

/-- `ATOMIC_WANT_NO_INTERRUPTS`. -/
def atomicWantNoInterrupts : Int := 2

/-- The result of `ATOMIC_GetCli(save_old)` when the count it bumped was `oldCount`. -/
def getCliResult (saveOld : Bool) (oldCount : Int) : Int :=
  if saveOld ∧ 0 < oldCount then atomicWantNoInterrupts else atomicWantInterrupts

theorem getCliResult_ne_done (saveOld : Bool) (oldCount : Int) :
    getCliResult saveOld oldCount ≠ atomicDone := by
  unfold getCliResult atomicDone atomicWantNoInterrupts atomicWantInterrupts
  split_ifs <;> decide

/-- Where a thread is in the atomic-section code: in its own code, in `ATOMIC_GetCli` before the
lock of `atomic_waiting_mutex` or before the second bookkeeping section, or in
`ATOMIC_ReleaseCli` before the unlock. -/
inductive AtomicPc
  | body
  | getLock (saveOld : Bool)
  | getBump (saveOld : Bool)
  | relUnlock
deriving Repr, DecidableEq

/-- The globals of the emulation's atomic section, the holder of `atomic_waiting_mutex`, and each
thread's position, nesting depth and last `ATOMIC_GetCli` result. `atomicOwnerId` is `none`
while it holds a default-constructed `std::thread::id`. -/
structure AtomicSys (τ : Type) where
  atomicOwnerCount : Int
  atomicOwnerId : Option τ
  waiting : Option τ
  pc : τ → AtomicPc
  depth : τ → Nat
  result : τ → Int

/-- One step of a thread. -/
inductive AtomicEv (τ : Type)
  | getCli (t : τ) (saveOld : Bool)
  | lock (t : τ)
  | bump (t : τ)
  | releaseCli (t : τ)
  | unlock (t : τ)
deriving Repr, DecidableEq

namespace AtomicSys

variable {τ : Type}

/-- No thread in a block, no holder, the count zero. -/
def init : AtomicSys τ := ⟨0, none, none, fun _ => .body, fun _ => 0, fun _ => 0⟩

section Steps

variable [DecidableEq τ]

/-- The call `ATOMIC_GetCli(save_old)` and its first bookkeeping section: read the count and the
owner, then go on to the lock unless the count is nonzero and the owner is this thread. -/
def getCli (s : AtomicSys τ) (t : τ) (saveOld : Bool) : AtomicSys τ :=
  if s.pc t = .body then
    let oldCount := s.atomicOwnerCount
    let oldId := s.atomicOwnerId
    let next := if oldCount = 0 ∨ oldId ≠ some t then AtomicPc.getLock saveOld else .getBump saveOld
    { s with pc := Function.update s.pc t next }
  else s

/-- `atomic_waiting_mutex.lock()` returns, once no thread holds it. -/
def lock (s : AtomicSys τ) (t : τ) : AtomicSys τ :=
  match s.pc t with
  | .getLock saveOld =>
    if s.waiting = none then
      { s with waiting := some t, pc := Function.update s.pc t (.getBump saveOld) }
    else s
  | _ => s

/-- The second bookkeeping section of `ATOMIC_GetCli`, `atomic_owner_count++` and
`atomic_owner_id = this_thread`, and its return. -/
def bump (s : AtomicSys τ) (t : τ) : AtomicSys τ :=
  match s.pc t with
  | .getBump saveOld =>
    let oldCount := s.atomicOwnerCount
    { s with atomicOwnerCount := oldCount + 1, atomicOwnerId := some t
             pc := Function.update s.pc t .body
             depth := Function.update s.depth t (s.depth t + 1)
             result := Function.update s.result t (getCliResult saveOld oldCount) }
  | _ => s

/-- The call `ATOMIC_ReleaseCli` at the end of a block, and its bookkeeping section
`atomic_owner_count--`; it returns unless the count is now zero. -/
def releaseCli (s : AtomicSys τ) (t : τ) : AtomicSys τ :=
  if s.pc t = .body ∧ 0 < s.depth t then
    let oldCount := s.atomicOwnerCount - 1
    let next := if oldCount = 0 then AtomicPc.relUnlock else .body
    { s with atomicOwnerCount := oldCount
             depth := Function.update s.depth t (s.depth t - 1)
             pc := Function.update s.pc t next }
  else s

/-- `atomic_waiting_mutex.unlock()` at the outermost level, and the return of
`ATOMIC_ReleaseCli`. -/
def unlock (s : AtomicSys τ) (t : τ) : AtomicSys τ :=
  if s.pc t = .relUnlock then { s with waiting := none, pc := Function.update s.pc t .body } else s

def step (s : AtomicSys τ) : AtomicEv τ → AtomicSys τ
  | .getCli t saveOld => s.getCli t saveOld
  | .lock t => s.lock t
  | .bump t => s.bump t
  | .releaseCli t => s.releaseCli t
  | .unlock t => s.unlock t

def run (s : AtomicSys τ) (evs : List (AtomicEv τ)) : AtomicSys τ := evs.foldl step s

@[simp] theorem run_nil (s : AtomicSys τ) : s.run [] = s := rfl

@[simp] theorem run_cons (s : AtomicSys τ) (e : AtomicEv τ) (evs : List (AtomicEv τ)) :
    s.run (e :: evs) = (s.step e).run evs := rfl

end Steps

/-! ### The invariant -/

/-- The invariant of every run: a thread inside a block, in the second bookkeeping section or
before its unlock holds the waiting mutex; the count is the holder's depth (zero when the mutex is
free) and, when positive, the owner id names the holder; a thread at the lock or at the unlock is
in no block. -/
structure AtomicInv (s : AtomicSys τ) : Prop where
  holder : ∀ t, (0 < s.depth t ∨ s.pc t = .relUnlock ∨ ∃ so, s.pc t = .getBump so) →
    s.waiting = some t
  count_holder : ∀ t, s.waiting = some t → s.atomicOwnerCount = s.depth t
  count_free : s.waiting = none → s.atomicOwnerCount = 0
  owner : 0 < s.atomicOwnerCount → s.atomicOwnerId = s.waiting
  lock_depth : ∀ t so, s.pc t = .getLock so → s.depth t = 0
  unlock_depth : ∀ t, s.pc t = .relUnlock → s.depth t = 0

variable {s : AtomicSys τ}

theorem AtomicInv.init : AtomicInv (init : AtomicSys τ) := by
  constructor <;> simp [AtomicSys.init]

theorem AtomicInv.owner_of_ne_zero (h : AtomicInv s) (hc : s.atomicOwnerCount ≠ 0) :
    ∃ u, s.waiting = some u ∧ s.atomicOwnerId = some u ∧ s.atomicOwnerCount = s.depth u := by
  cases hw : s.waiting with
  | none => exact absurd (h.count_free hw) hc
  | some u =>
    have hu := h.count_holder u hw
    exact ⟨u, rfl, by rw [h.owner (by omega), hw], hu⟩

theorem AtomicInv.getCli_lock_iff (h : AtomicInv s) (t : τ) :
    (s.atomicOwnerCount = 0 ∨ s.atomicOwnerId ≠ some t) ↔ s.depth t = 0 := by
  constructor
  · intro hc
    by_contra hd
    have hw := h.holder t (.inl (Nat.pos_of_ne_zero hd))
    have hct := h.count_holder t hw
    rcases hc with hc | hc
    · omega
    · exact hc (by rw [h.owner (by omega), hw])
  · intro hd
    by_contra hc
    simp only [not_or, not_not] at hc
    obtain ⟨u, hw, ho, hcu⟩ := h.owner_of_ne_zero hc.1
    rw [hc.2, Option.some.injEq] at ho
    subst ho
    omega

theorem AtomicInv.of_step (h : AtomicInv s) {s' : AtomicSys τ} (t : τ)
    (hpc : ∀ u, u ≠ t → s'.pc u = s.pc u) (hdepth : ∀ u, u ≠ t → s'.depth u = s.depth u)
    (hw : ∀ u, u ≠ t → s.waiting = some u → s'.waiting = some u)
    (ht : (0 < s'.depth t ∨ s'.pc t = .relUnlock ∨ ∃ so, s'.pc t = .getBump so) →
      s'.waiting = some t)
    (hl : ∀ so, s'.pc t = .getLock so → s'.depth t = 0) (hr : s'.pc t = .relUnlock → s'.depth t = 0)
    (hcount : ∀ u, s'.waiting = some u → s'.atomicOwnerCount = s'.depth u)
    (hfree : s'.waiting = none → s'.atomicOwnerCount = 0)
    (howner : 0 < s'.atomicOwnerCount → s'.atomicOwnerId = s'.waiting) : AtomicInv s' := by
  refine ⟨fun u hu => ?_, hcount, hfree, howner, fun u so hu => ?_, fun u hu => ?_⟩ <;>
    rcases eq_or_ne u t with rfl | e
  · exact ht hu
  · exact hw u e (h.holder u (by rwa [hpc u e, hdepth u e] at hu))
  · exact hl so hu
  · rw [hdepth u e]; exact h.lock_depth u so (by rwa [hpc u e] at hu)
  · exact hr hu
  · rw [hdepth u e]; exact h.unlock_depth u (by rwa [hpc u e] at hu)

section Preservation

variable [DecidableEq τ]

theorem AtomicInv.getCli (h : AtomicInv s) (t : τ) (so : Bool) : AtomicInv (s.getCli t so) := by
  unfold AtomicSys.getCli
  split_ifs with hb
  · simp only [h.getCli_lock_iff t]
    -- in no block `t` goes on to the lock; nested, straight to the bookkeeping
    refine h.of_step t (fun u e => Function.update_noteq e _ _) (fun _ _ => rfl) (fun _ _ => id)
      ?_ ?_ ?_ h.count_holder h.count_free h.owner <;> by_cases hd : s.depth t = 0
    · exact fun ht => by simp [hd] at ht
    · exact fun _ => h.holder t (.inl (Nat.pos_of_ne_zero hd))
    · exact fun _ _ => hd
    · exact fun _ hl => by simp [hd] at hl
    all_goals exact fun hr => by simp [hd] at hr
  · exact h

theorem AtomicInv.lock (h : AtomicInv s) (t : τ) : AtomicInv (s.lock t) := by
  unfold AtomicSys.lock
  split
  · rename_i so hpc
    split_ifs with hw
    · have hd := h.lock_depth t so hpc
      have hc := h.count_free hw
      refine h.of_step t (fun u e => Function.update_noteq e _ _) (fun _ _ => rfl)
        (fun u _ hu => by simp [hw] at hu) (fun _ => rfl) (fun _ _ => hd) (fun _ => hd)
        (fun u hu => ?_) (fun hu => by simp at hu) (fun hu => by simp [hc] at hu)
      cases hu
      simp [hc, hd]
    · exact h
  · exact h

theorem AtomicInv.bump (h : AtomicInv s) (t : τ) : AtomicInv (s.bump t) := by
  unfold AtomicSys.bump
  split
  · rename_i so hpc
    have hw := h.holder t (.inr (.inr ⟨so, hpc⟩))
    have hc := h.count_holder t hw
    refine h.of_step t (fun u e => Function.update_noteq e _ _)
      (fun u e => Function.update_noteq e _ _) (fun u _ hu => hu) (fun _ => hw)
      (fun _ hl => by simp at hl) (fun hr => by simp at hr) (fun u hu => ?_)
      (fun hu => by simp [hw] at hu) (fun _ => hw.symm)
    cases Option.some.inj (hu.symm.trans hw)
    simp [hc]
  · exact h

theorem AtomicInv.releaseCli (h : AtomicInv s) (t : τ) : AtomicInv (s.releaseCli t) := by
  unfold AtomicSys.releaseCli
  split_ifs with hb
  · have hw := h.holder t (.inl hb.2)
    have hc := h.count_holder t hw
    refine h.of_step t (fun u e => Function.update_noteq e _ _)
      (fun u e => Function.update_noteq e _ _) (fun u _ hu => hu) (fun _ => hw)
      (fun _ hl => ?_) (fun hr => ?_) (fun u hu => ?_) (fun hu => by simp [hw] at hu)
      (fun hpos => h.owner (by simp only at hpos; omega))
    · simp only [Function.update_same] at hl
      split_ifs at hl
    · simp only [Function.update_same] at hr ⊢
      split_ifs at hr
      omega
    · cases Option.some.inj (hu.symm.trans hw)
      simp only [Function.update_same]
      omega
  · exact h

theorem AtomicInv.unlock (h : AtomicInv s) (t : τ) : AtomicInv (s.unlock t) := by
  unfold AtomicSys.unlock
  split_ifs with hpc
  · have hw := h.holder t (.inr (.inl hpc))
    have hd := h.unlock_depth t hpc
    have hc := h.count_holder t hw
    refine h.of_step t (fun u e => Function.update_noteq e _ _) (fun _ _ => rfl)
      (fun u e hu => absurd (Option.some.inj (hw.symm.trans hu)) (Ne.symm e))
      (fun ht => by simp [hd] at ht) (fun _ hl => by simp at hl) (fun hr => by simp at hr)
      (fun u hu => by simp at hu) (fun _ => by simp [hc, hd]) (fun hpos => by simp [hc, hd] at hpos)
  · exact h

theorem AtomicInv.step (h : AtomicInv s) : ∀ e : AtomicEv τ, AtomicInv (s.step e)
  | .getCli t so => h.getCli t so
  | .lock t => h.lock t
  | .bump t => h.bump t
  | .releaseCli t => h.releaseCli t
  | .unlock t => h.unlock t

theorem AtomicInv.run (h : AtomicInv s) (evs : List (AtomicEv τ)) : AtomicInv (s.run evs) := by
  induction evs generalizing s with
  | nil => exact h
  | cons e evs ih => exact ih (h.step e)

end Preservation

end AtomicSys

open AtomicSys

end NeurAvr
