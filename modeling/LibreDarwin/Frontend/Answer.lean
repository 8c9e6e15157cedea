import LibreDarwin.Common.History
import LibreDarwin.Frontend.Model.Answer

/-!
# A late answer is harmless

The worker that brings an answer and the block it posts both look at the
guard's flag under its mutex, and the destructor of the frontend clears the
flag under the same mutex. So whoever saw the flag set still holds the
mutex, and the destructor waits (`Locked`, `Guarded`): what follows the
check is done to a frontend that is there. The transport is destroyed after
the frontend, behind every block that was posted, so the block finds it
there too (`Queued`).
-/

namespace LibreDarwin

namespace Frontend

open Transport (Life)
open Function

/-- **What a step does**, with what it needs. -/
inductive Moved (s : AnswerState) : AnswerState → Prop
  | asked (n : ConfirmId) (hn : s.worker n = .unasked) : Moved s (s.goto n .confirming)
  | answered (n : ConfirmId) (ok : Bool) (hn : s.worker n = .confirming) :
    Moved s (s.goto n (.answered ok))
  | workerLocked (n : ConfirmId) (ok : Bool) (hn : s.worker n = .answered ok)
      (hfree : s.mutex = none) :
    Moved s ({ s with mutex := some (.worker n) }.goto n (.locked ok))
  | workerAlive (n : ConfirmId) (ok : Bool) (hn : s.worker n = .locked ok)
      (halive : s.alive = true) : Moved s (s.goto n (.sawAlive ok))
  | discarded (n : ConfirmId) (ok : Bool) (hn : s.worker n = .locked ok)
      (halive : s.alive = false) : Moved s ((s.goto n .leaving).mark (.discarded n))
  | posted (n : ConfirmId) (ok : Bool) (hn : s.worker n = .sawAlive ok) :
    Moved s (({ s with blocks := s.blocks ++ [AnswerBlock.continuation n ok] }.goto n
      .leaving).mark (.posted n ok))
  | workerLeft (n : ConfirmId) (hn : s.worker n = .leaving) :
    Moved s ({ s with mutex := none }.goto n .done)
  | dropped (n : ConfirmId) (ok : Bool) (blocks : List AnswerBlock) (hloop : s.loop = none)
      (hblocks : s.blocks = .continuation n ok :: blocks) :
    Moved s (({ s with blocks := blocks }.mark (.taken n)).mark (.dropped n))
  | entered (n : ConfirmId) (ok : Bool) (blocks : List AnswerBlock) (hloop : s.loop = none)
      (hblocks : s.blocks = .continuation n ok :: blocks) :
    Moved s ({ s with blocks := blocks, loop := some ⟨n, ok, .entered⟩ }.mark (.taken n))
  | quiesced (blocks : List AnswerBlock) (hloop : s.loop = none)
      (hblocks : s.blocks = .quiesce :: blocks) :
    Moved s { s with blocks := blocks, loopQuiesced := true }
  | tornDown (blocks : List AnswerBlock) (hloop : s.loop = none)
      (hblocks : s.blocks = .teardown :: blocks) :
    Moved s { s with blocks := blocks, life := .tornDown }
  | loopLocked (n : ConfirmId) (ok : Bool) (hloop : s.loop = some ⟨n, ok, .entered⟩)
      (hfree : s.mutex = none) :
    Moved s { s with mutex := some .loop, loop := some ⟨n, ok, .locked⟩ }
  | loopAlive (n : ConfirmId) (ok : Bool) (hloop : s.loop = some ⟨n, ok, .locked⟩)
      (halive : s.alive = true) : Moved s { s with loop := some ⟨n, ok, .sawAlive⟩ }
  | discardedOnLoop (n : ConfirmId) (ok : Bool) (hloop : s.loop = some ⟨n, ok, .locked⟩)
      (halive : s.alive = false) :
    Moved s ({ s with loop := some ⟨n, ok, .leaving⟩ }.mark (.discardedOnLoop n))
  | erased (n : ConfirmId) (ok : Bool) (hloop : s.loop = some ⟨n, ok, .sawAlive⟩) :
    Moved s ({ s with loop := some ⟨n, ok, .erased⟩ }.mark (.erased n))
  | finished (n : ConfirmId) (ok : Bool) (hloop : s.loop = some ⟨n, ok, .erased⟩) :
    Moved s ({ s with loop := some ⟨n, ok, .leaving⟩ }.mark
      (if ok then .applied n else .replied n))
  | loopLeft (n : ConfirmId) (ok : Bool) (hloop : s.loop = some ⟨n, ok, .leaving⟩) :
    Moved s { s with mutex := none, loop := none }
  | quiesceCalled (hlife : s.life = .alive) :
    Moved s { s with blocks := s.blocks ++ [.quiesce] }
  | destructorCalled (hd : s.destructor = .notCalled) : Moved s { s with destructor := .waiting }
  | destructorLocked (hd : s.destructor = .waiting) (hfree : s.mutex = none) :
    Moved s { s with destructor := .locked, mutex := some .destructor }
  | marked (hd : s.destructor = .locked) :
    Moved s { s with destructor := .marked, alive := false }
  | frontendGone (hd : s.destructor = .marked) :
    Moved s ({ s with destructor := .gone, mutex := none }.mark .frontendGone)
  | transportCalled (hd : s.destructor = .gone) (hlife : s.life = .alive) :
    Moved s { s with blocks := s.blocks ++ [.teardown], life := .closing }
  | transportGone (hlife : s.life = .tornDown) :
    Moved s ({ s with life := .destroyed }.mark .transportGone)

/-- Every step is one of these. -/
theorem moved_of_step {s t : AnswerState} {i : AnswerInput} (h : s.step i = some t) :
    Moved s t := by
  cases i with
  | ask n =>
    simp only [AnswerState.step, Option.ite_none_right_eq_some, Option.some.injEq] at h
    obtain ⟨⟨hn, -, -⟩, rfl⟩ := h
    exact .asked n hn
  | answer n ok =>
    simp only [AnswerState.step, Option.ite_none_right_eq_some, Option.some.injEq] at h
    obtain ⟨hn, rfl⟩ := h
    exact .answered n ok hn
  | workerLock n =>
    simp only [AnswerState.step] at h
    split at h
    next ok hn =>
      simp only [Option.ite_none_right_eq_some, Option.some.injEq] at h
      obtain ⟨hfree, rfl⟩ := h
      exact .workerLocked n ok hn hfree
    · cases h
  | workerCheck n =>
    simp only [AnswerState.step] at h
    split at h
    next ok hn =>
      cases h
      split
      next halive => exact .workerAlive n ok hn halive
      next halive => exact .discarded n ok hn (by simpa using halive)
    · cases h
  | workerPost n =>
    simp only [AnswerState.step] at h
    split at h
    next ok hn =>
      cases h
      exact .posted n ok hn
    · cases h
  | workerUnlock n =>
    simp only [AnswerState.step, Option.ite_none_right_eq_some, Option.some.injEq] at h
    obtain ⟨hn, rfl⟩ := h
    exact .workerLeft n hn
  | runNext =>
    simp only [AnswerState.step] at h
    split at h
    next block blocks hloop hblocks =>
      cases h
      cases block with
      | continuation n ok =>
        simp only [AnswerState.runBlock]
        split
        · exact .dropped n ok blocks hloop hblocks
        · exact .entered n ok blocks hloop hblocks
      | quiesce => exact .quiesced blocks hloop hblocks
      | teardown => exact .tornDown blocks hloop hblocks
    · cases h
  | loopLock =>
    simp only [AnswerState.step] at h
    split at h
    next n ok hloop =>
      simp only [Option.ite_none_right_eq_some, Option.some.injEq] at h
      obtain ⟨hfree, rfl⟩ := h
      exact .loopLocked n ok hloop hfree
    · cases h
  | loopCheck =>
    simp only [AnswerState.step] at h
    split at h
    next n ok hloop =>
      cases h
      split
      next halive => exact .loopAlive n ok hloop halive
      next halive => exact .discardedOnLoop n ok hloop (by simpa using halive)
    · cases h
  | loopErase =>
    simp only [AnswerState.step] at h
    split at h
    next n ok hloop =>
      cases h
      exact .erased n ok hloop
    · cases h
  | loopFinish =>
    simp only [AnswerState.step] at h
    split at h
    next n ok hloop =>
      cases h
      exact .finished n ok hloop
    · cases h
  | loopUnlock =>
    simp only [AnswerState.step] at h
    split at h
    next n ok hloop =>
      cases h
      exact .loopLeft n ok hloop
    · cases h
  | quiesceLoop =>
    simp only [AnswerState.step, Option.ite_none_right_eq_some, Option.some.injEq] at h
    obtain ⟨hlife, rfl⟩ := h
    exact .quiesceCalled hlife
  | destroyFrontend =>
    simp only [AnswerState.step, Option.ite_none_right_eq_some, Option.some.injEq] at h
    obtain ⟨hd, rfl⟩ := h
    exact .destructorCalled hd
  | destructorLock =>
    simp only [AnswerState.step, Option.ite_none_right_eq_some, Option.some.injEq] at h
    obtain ⟨⟨hd, hfree⟩, rfl⟩ := h
    exact .destructorLocked hd hfree
  | destructorMark =>
    simp only [AnswerState.step, Option.ite_none_right_eq_some, Option.some.injEq] at h
    obtain ⟨hd, rfl⟩ := h
    exact .marked hd
  | destructorUnlock =>
    simp only [AnswerState.step, Option.ite_none_right_eq_some, Option.some.injEq] at h
    obtain ⟨hd, rfl⟩ := h
    exact .frontendGone hd
  | destroyTransport =>
    simp only [AnswerState.step, Option.ite_none_right_eq_some, Option.some.injEq] at h
    obtain ⟨⟨hd, hlife⟩, rfl⟩ := h
    exact .transportCalled hd hlife
  | transportReturns =>
    simp only [AnswerState.step, Option.ite_none_right_eq_some, Option.some.injEq] at h
    obtain ⟨hlife, rfl⟩ := h
    exact .transportGone hlife

/-! The mutex. -/

def WorkerPc.Holds : WorkerPc → Prop
  | .locked _ | .sawAlive _ | .leaving => True
  | _ => False

/-- Who is between its lock and its unlock. -/
def AnswerState.Holds (s : AnswerState) : Holder → Prop
  | .worker n => (s.worker n).Holds
  | .loop => ∃ r ∈ s.loop, r.stage ≠ .entered
  | .destructor => s.destructor = .locked ∨ s.destructor = .marked

/-- **The mutex is held by whoever is between the two.** -/
def Locked (s : AnswerState) : Prop := ∀ who, s.Holds who ↔ s.mutex = some who

namespace Locked

variable {s t : AnswerState}

/-- Nobody takes it and nobody lets it go. -/
theorem keep (h : Locked s) (hmutex : t.mutex = s.mutex) (hholds : ∀ who, t.Holds who ↔ s.Holds who) :
    Locked t := by
  intro who
  rw [hholds who, hmutex]
  exact h who

/-- Somebody takes it. -/
theorem take (h : Locked s) (hfree : s.mutex = none) {who : Holder} (hmutex : t.mutex = some who)
    (hnow : t.Holds who) (hothers : ∀ other, other ≠ who → (t.Holds other ↔ s.Holds other)) :
    Locked t := by
  intro other
  rw [hmutex]
  by_cases heq : other = who
  · subst heq
    simp [hnow]
  · rw [hothers other heq, h other, hfree]
    simpa using Ne.symm heq

/-- Whoever holds it lets it go. -/
theorem letGo (h : Locked s) {who : Holder} (hheld : s.Holds who) (hmutex : t.mutex = none)
    (hnow : ¬ t.Holds who) (hothers : ∀ other, other ≠ who → (t.Holds other ↔ s.Holds other)) :
    Locked t := by
  intro other
  rw [hmutex]
  by_cases heq : other = who
  · subst heq
    simp [hnow]
  · rw [hothers other heq, h other, (h who).1 hheld]
    simpa using Ne.symm heq

/-- A worker takes a step. -/
theorem worker_of_ne {n : ConfirmId} {pc : WorkerPc} (hworker : t.worker = update s.worker n pc)
    (hloop : t.loop = s.loop) (hdestructor : t.destructor = s.destructor) (other : Holder)
    (hne : other ≠ .worker n) : t.Holds other ↔ s.Holds other := by
  cases other with
  | worker m =>
    have hm : m ≠ n := fun heq => hne (congrArg Holder.worker heq)
    simp only [AnswerState.Holds, hworker, update_of_ne hm]
  | loop => simp only [AnswerState.Holds, hloop]
  | destructor => simp only [AnswerState.Holds, hdestructor]

/-- The loop does. -/
theorem loop_of_ne (hworker : t.worker = s.worker) (hdestructor : t.destructor = s.destructor)
    (other : Holder) (hne : other ≠ .loop) : t.Holds other ↔ s.Holds other := by
  cases other with
  | worker m => simp only [AnswerState.Holds, hworker]
  | loop => exact absurd rfl hne
  | destructor => simp only [AnswerState.Holds, hdestructor]

/-- The destructor does. -/
theorem destructor_of_ne (hworker : t.worker = s.worker) (hloop : t.loop = s.loop)
    (other : Holder) (hne : other ≠ .destructor) : t.Holds other ↔ s.Holds other := by
  cases other with
  | worker m => simp only [AnswerState.Holds, hworker]
  | loop => simp only [AnswerState.Holds, hloop]
  | destructor => exact absurd rfl hne

/-- One thread takes a step, on the side of the lock it is on. -/
theorem stay (h : Locked s) {who : Holder} (hmutex : t.mutex = s.mutex)
    (hthis : t.Holds who ↔ s.Holds who)
    (hothers : ∀ other, other ≠ who → (t.Holds other ↔ s.Holds other)) : Locked t := by
  refine h.keep hmutex fun other => ?_
  by_cases heq : other = who
  · subst heq
    exact hthis
  · exact hothers other heq

theorem move (h : Locked s) (hmoved : Moved s t) : Locked t := by
  cases hmoved with
  | asked n hn =>
    refine h.stay rfl ?_ (worker_of_ne rfl rfl rfl)
    simp [AnswerState.Holds, AnswerState.goto, hn, WorkerPc.Holds]
  | answered n ok hn =>
    refine h.stay rfl ?_ (worker_of_ne rfl rfl rfl)
    simp [AnswerState.Holds, AnswerState.goto, hn, WorkerPc.Holds]
  | workerLocked n ok hn hfree =>
    refine h.take hfree rfl ?_ (worker_of_ne rfl rfl rfl)
    simp [AnswerState.Holds, AnswerState.goto, WorkerPc.Holds]
  | workerAlive n ok hn =>
    refine h.stay rfl ?_ (worker_of_ne rfl rfl rfl)
    simp [AnswerState.Holds, AnswerState.goto, hn, WorkerPc.Holds]
  | discarded n ok hn =>
    refine h.stay rfl ?_ (worker_of_ne rfl rfl rfl)
    simp [AnswerState.Holds, AnswerState.goto, AnswerState.mark, hn, WorkerPc.Holds]
  | posted n ok hn =>
    refine h.stay rfl ?_ (worker_of_ne rfl rfl rfl)
    simp [AnswerState.Holds, AnswerState.goto, AnswerState.mark, hn, WorkerPc.Holds]
  | workerLeft n hn =>
    refine h.letGo ?_ rfl ?_ (worker_of_ne rfl rfl rfl)
    · simp [AnswerState.Holds, hn, WorkerPc.Holds]
    · simp [AnswerState.Holds, AnswerState.goto, WorkerPc.Holds]
  | dropped n ok blocks hloop => exact h.keep rfl fun who => Iff.rfl
  | entered n ok blocks hloop =>
    refine h.stay rfl ?_ (loop_of_ne rfl rfl)
    simp [AnswerState.Holds, AnswerState.mark, hloop]
  | quiesced blocks hloop => exact h.keep rfl fun who => by cases who <;> rfl
  | tornDown blocks hloop => exact h.keep rfl fun who => by cases who <;> rfl
  | loopLocked n ok hloop hfree =>
    refine h.take hfree rfl ?_ (loop_of_ne rfl rfl)
    simp [AnswerState.Holds]
  | loopAlive n ok hloop =>
    refine h.stay rfl ?_ (loop_of_ne rfl rfl)
    simp [AnswerState.Holds, hloop]
  | discardedOnLoop n ok hloop =>
    refine h.stay rfl ?_ (loop_of_ne rfl rfl)
    simp [AnswerState.Holds, AnswerState.mark, hloop]
  | erased n ok hloop =>
    refine h.stay rfl ?_ (loop_of_ne rfl rfl)
    simp [AnswerState.Holds, AnswerState.mark, hloop]
  | finished n ok hloop =>
    refine h.stay rfl ?_ (loop_of_ne rfl rfl)
    simp [AnswerState.Holds, AnswerState.mark, hloop]
  | loopLeft n ok hloop =>
    refine h.letGo ?_ rfl ?_ (loop_of_ne rfl rfl)
    · simp [AnswerState.Holds, hloop]
    · simp [AnswerState.Holds]
  | quiesceCalled hlife => exact h.keep rfl fun who => by cases who <;> rfl
  | destructorCalled hd =>
    refine h.stay rfl ?_ (destructor_of_ne rfl rfl)
    simp [AnswerState.Holds, hd]
  | destructorLocked hd hfree =>
    refine h.take hfree rfl ?_ (destructor_of_ne rfl rfl)
    simp [AnswerState.Holds]
  | marked hd =>
    refine h.stay rfl ?_ (destructor_of_ne rfl rfl)
    simp [AnswerState.Holds, hd]
  | frontendGone hd =>
    refine h.letGo ?_ rfl ?_ (destructor_of_ne rfl rfl)
    · simp [AnswerState.Holds, hd]
    · simp [AnswerState.Holds, AnswerState.mark]
  | transportCalled hd hlife => exact h.keep rfl fun who => by cases who <;> rfl
  | transportGone hlife => exact h.keep rfl fun who => by cases who <;> rfl

end Locked

/-- **Whoever saw the flag set finds the frontend, and with it the
transport.** -/
structure Guarded (s : AnswerState) : Prop where
  locked : Locked s
  worker : ∀ n ok, s.worker n = .sawAlive ok → s.alive = true
  loop : ∀ n ok, s.loop = some ⟨n, ok, .sawAlive⟩ ∨ s.loop = some ⟨n, ok, .erased⟩ →
    s.alive = true
  flag : s.alive = true → s.destructor ≠ .marked ∧ s.destructor ≠ .gone
  order : s.life ≠ .alive → s.destructor = .gone
  frontend : .frontendGone ∈ s.trace → s.destructor = .gone
  transport : .transportGone ∈ s.trace → s.life = .destroyed

/-- **The transport's destructor waits at the end of the queue**, and nothing
comes after its block. -/
structure Queued (s : AnswerState) : Prop where
  waiting : .teardown ∈ s.blocks → s.life = .closing
  last : s.life = .closing → ∃ before, s.blocks = before ++ [.teardown] ∧ .teardown ∉ before
  drained : s.life = .tornDown ∨ s.life = .destroyed → s.blocks = [] ∧ s.loop = none

namespace Guarded

variable {s t : AnswerState}

theorem fresh : Guarded .fresh := by
  refine ⟨fun who => ?_, ?_, ?_, ?_, ?_, ?_, ?_⟩
  · cases who <;> simp [AnswerState.fresh, AnswerState.Holds, WorkerPc.Holds]
  all_goals simp [AnswerState.fresh]

/-- While the flag is set both are there. -/
theorem standing (h : Guarded s) (halive : s.alive = true) :
    .frontendGone ∉ s.trace ∧ .transportGone ∉ s.trace ∧ s.life = .alive := by
  have hgone := (h.flag halive).2
  have hlife : s.life = .alive := by
    by_contra hne
    exact hgone (h.order hne)
  refine ⟨fun hmem => hgone (h.frontend hmem), fun hmem => ?_, hlife⟩
  rw [h.transport hmem] at hlife
  cases hlife

/-- A step of a worker or of the loop, that logs what it did if
anything. -/
theorem thread (h : Guarded s) (hlocked : Locked t) (halive : t.alive = s.alive)
    (hdestructor : t.destructor = s.destructor) (hlife : t.life = s.life) {l : List AnswerMark}
    (htrace : t.trace = s.trace ++ l) (hms : .frontendGone ∉ l ∧ .transportGone ∉ l)
    (hworker : ∀ n ok, t.worker n = .sawAlive ok → s.alive = true)
    (hloop : ∀ n ok, t.loop = some ⟨n, ok, .sawAlive⟩ ∨ t.loop = some ⟨n, ok, .erased⟩ →
      s.alive = true) : Guarded t := by
  refine ⟨hlocked, ?_, ?_, ?_, ?_, ?_, ?_⟩
  · rwa [halive]
  · rwa [halive]
  · rw [halive, hdestructor]
    exact h.flag
  · rw [hlife, hdestructor]
    exact h.order
  · rw [htrace, hdestructor, List.mem_append]
    exact fun hmem => h.frontend (hmem.resolve_right hms.1)
  · rw [htrace, hlife, List.mem_append]
    exact fun hmem => h.transport (hmem.resolve_right hms.2)

/-- A worker goes on, with the flag set if it goes on to post. -/
theorem saw_goto (h : Guarded s) {n : ConfirmId} {pc : WorkerPc}
    (hpc : ∀ ok, pc = .sawAlive ok → s.alive = true) (m : ConfirmId) (ok : Bool)
    (hm : update s.worker n pc m = .sawAlive ok) : s.alive = true := by
  rw [update_apply] at hm
  split at hm
  · exact hpc ok hm
  · exact h.worker m ok hm

/-- Nothing changes but the queue, the quiesced flag and the trace. -/
theorem block (h : Guarded s) (hlocked : Locked t) (hworker : t.worker = s.worker)
    (hloop : t.loop = s.loop) (halive : t.alive = s.alive)
    (hdestructor : t.destructor = s.destructor) (hlife : t.life = s.life) {l : List AnswerMark}
    (htrace : t.trace = s.trace ++ l) (hms : .frontendGone ∉ l ∧ .transportGone ∉ l) :
    Guarded t :=
  h.thread hlocked halive hdestructor hlife htrace hms (by rw [hworker]; exact h.worker)
    (by rw [hloop]; exact h.loop)

/-- While the destructor of the frontend is under way the transport is
there. -/
theorem before_gone (h : Guarded s) (hd : s.destructor ≠ .gone) :
    s.life = .alive ∧ .frontendGone ∉ s.trace := by
  refine ⟨?_, fun hmem => hd (h.frontend hmem)⟩
  by_contra hne
  exact hd (h.order hne)

/-- A step of the destructor before the last. -/
theorem destructor (h : Guarded s) (hlocked : Locked t) (hd : s.destructor ≠ .gone)
    (hsaw : t.alive = s.alive ∨ s.destructor = .locked)
    (hflag : t.alive = true → t.destructor ≠ .marked ∧ t.destructor ≠ .gone)
    (hworker : t.worker = s.worker) (hloop : t.loop = s.loop) (hlife : t.life = s.life)
    (htrace : t.trace = s.trace) : Guarded t := by
  obtain ⟨halive, hnotgone⟩ := h.before_gone hd
  -- who saw the flag set has the mutex, and then the destructor has not
  have hkept : ∀ who, s.Holds who → who ≠ .destructor → t.alive = s.alive := by
    intro who hholds hne
    refine hsaw.resolve_right fun hd' => hne ?_
    have hthis := (h.locked who).1 hholds
    have hother := (h.locked .destructor).1 (.inl hd')
    exact Option.some.inj (hthis.symm.trans hother)
  refine ⟨hlocked, ?_, ?_, hflag, ?_, ?_, ?_⟩
  · rw [hworker]
    intro n ok hn
    rw [hkept (.worker n) (by simp [AnswerState.Holds, hn, WorkerPc.Holds]) (by simp)]
    exact h.worker n ok hn
  · rw [hloop]
    intro n ok hn
    rw [hkept .loop (by rcases hn with hn | hn <;> simp [AnswerState.Holds, hn]) (by simp)]
    exact h.loop n ok hn
  · rw [hlife]
    exact fun hne => absurd halive hne
  · rw [htrace]
    exact fun hmem => absurd hmem hnotgone
  · rw [htrace, hlife]
    exact h.transport

theorem move (h : Guarded s) (hqueued : Queued s) (hmoved : Moved s t) : Guarded t := by
  have hlocked : Locked t := h.locked.move hmoved
  cases hmoved with
  | asked n hn =>
    exact h.thread hlocked rfl rfl rfl (List.append_nil _).symm (by simp)
      (h.saw_goto (by rintro ok ⟨⟩)) h.loop
  | answered n ok hn =>
    exact h.thread hlocked rfl rfl rfl (List.append_nil _).symm (by simp)
      (h.saw_goto (by rintro ok ⟨⟩)) h.loop
  | workerLocked n ok hn hfree =>
    exact h.thread hlocked rfl rfl rfl (List.append_nil _).symm (by simp)
      (h.saw_goto (by rintro ok ⟨⟩)) h.loop
  | workerAlive n ok hn halive =>
    exact h.thread hlocked rfl rfl rfl (List.append_nil _).symm (by simp)
      (h.saw_goto fun _ _ => halive) h.loop
  | discarded n ok hn halive =>
    exact h.thread hlocked rfl rfl rfl rfl (by simp) (h.saw_goto (by rintro ok ⟨⟩)) h.loop
  | posted n ok hn =>
    exact h.thread hlocked rfl rfl rfl rfl (by simp) (h.saw_goto (by rintro ok ⟨⟩)) h.loop
  | workerLeft n hn =>
    exact h.thread hlocked rfl rfl rfl (List.append_nil _).symm (by simp)
      (h.saw_goto (by rintro ok ⟨⟩)) h.loop
  | dropped n ok blocks hloop =>
    exact h.block hlocked rfl rfl rfl rfl rfl (l := [.taken n, .dropped n])
      (by simp [AnswerState.mark]) (by simp)
  | entered n ok blocks hloop =>
    exact h.thread hlocked rfl rfl rfl rfl (by simp) h.worker
      (by rintro m ok' (heq | heq) <;> cases heq)
  | quiesced blocks hloop =>
    exact h.block hlocked rfl rfl rfl rfl rfl (List.append_nil _).symm (by simp)
  | tornDown blocks hloop hblocks =>
    have hclosing : s.life = .closing := hqueued.waiting (by simp [hblocks])
    refine ⟨hlocked, h.worker, h.loop, h.flag, fun _ => ?_, h.frontend, fun hmem => ?_⟩
    · exact h.order (by simp [hclosing])
    · have hdestroyed := h.transport hmem
      simp [hclosing] at hdestroyed
  | loopLocked n ok hloop hfree =>
    exact h.thread hlocked rfl rfl rfl (List.append_nil _).symm (by simp) h.worker
      (by rintro m ok' (heq | heq) <;> cases heq)
  | loopAlive n ok hloop halive =>
    exact h.thread hlocked rfl rfl rfl (List.append_nil _).symm (by simp) h.worker
      fun _ _ _ => halive
  | discardedOnLoop n ok hloop halive =>
    exact h.thread hlocked rfl rfl rfl rfl (by simp) h.worker
      (by rintro m ok' (heq | heq) <;> cases heq)
  | erased n ok hloop =>
    exact h.thread hlocked rfl rfl rfl rfl (by simp) h.worker
      fun _ _ _ => h.loop n ok (.inl hloop)
  | finished n ok hloop =>
    exact h.thread hlocked rfl rfl rfl rfl (by cases ok <;> simp) h.worker
      (by rintro m ok' (heq | heq) <;> cases heq)
  | loopLeft n ok hloop =>
    exact h.thread hlocked rfl rfl rfl (List.append_nil _).symm (by simp) h.worker
      (by rintro m ok' (heq | heq) <;> cases heq)
  | quiesceCalled hlife =>
    exact h.block hlocked rfl rfl rfl rfl rfl (List.append_nil _).symm (by simp)
  | destructorCalled hd =>
    exact h.destructor hlocked (by simp [hd]) (.inl rfl) (by simp) rfl rfl rfl rfl
  | destructorLocked hd hfree =>
    exact h.destructor hlocked (by simp [hd]) (.inl rfl) (by simp) rfl rfl rfl rfl
  | marked hd =>
    exact h.destructor hlocked (by simp [hd]) (.inr hd) (by simp) rfl rfl rfl rfl
  | frontendGone hd =>
    obtain ⟨halive, -⟩ := h.before_gone (by simp [hd])
    have hdead : s.alive = false := by
      by_contra hne
      exact (h.flag (by simpa using hne)).1 hd
    refine ⟨hlocked, h.worker, h.loop, fun htrue => ?_, fun _ => rfl, fun _ => rfl, ?_⟩
    · simp [AnswerState.mark, hdead] at htrue
    · simpa [AnswerState.mark] using h.transport
  | transportCalled hd hlife =>
    refine ⟨hlocked, h.worker, h.loop, h.flag, fun _ => hd, h.frontend, fun hmem => ?_⟩
    have hdestroyed := h.transport hmem
    simp [hlife] at hdestroyed
  | transportGone hlife =>
    refine ⟨hlocked, h.worker, h.loop, h.flag, fun _ => ?_, ?_, fun _ => rfl⟩
    · exact h.order (by simp [hlife])
    · simpa [AnswerState.mark] using h.frontend

end Guarded

namespace Queued

variable {s t : AnswerState}

/-- The queue, the loop and the transport stay as they are. -/
theorem same (h : Queued s) (hblocks : t.blocks = s.blocks) (hloop : t.loop = s.loop)
    (hlife : t.life = s.life) : Queued t := by
  refine ⟨?_, ?_, ?_⟩
  · rw [hblocks, hlife]
    exact h.waiting
  · rw [hblocks, hlife]
    exact h.last
  · rw [hblocks, hlife, hloop]
    exact h.drained

/-- The loop is at work on a block. -/
theorem running (h : Queued s) {r : Running} (hr : s.loop = some r) (hblocks : t.blocks = s.blocks)
    (hlife : t.life = s.life) : Queued t := by
  refine ⟨?_, ?_, fun hdrained => ?_⟩
  · rw [hblocks, hlife]
    exact h.waiting
  · rw [hblocks, hlife]
    exact h.last
  · rw [hlife] at hdrained
    have hnone := (h.drained hdrained).2
    rw [hr] at hnone
    cases hnone

/-- A block goes to the end of the queue of a transport that is there. -/
theorem submit (h : Queued s) (hlife : s.life = .alive) {block : AnswerBlock}
    (hblock : block ≠ .teardown) (hblocks : t.blocks = s.blocks ++ [block])
    (hlife' : t.life = .alive) : Queued t := by
  have hnone : .teardown ∉ s.blocks := fun hmem => by
    have hclosing := h.waiting hmem
    rw [hlife] at hclosing
    cases hclosing
  refine ⟨fun hmem => ?_, by simp [hlife'], by simp [hlife']⟩
  rw [hblocks, List.mem_append, List.mem_singleton] at hmem
  exact absurd hmem (not_or.2 ⟨hnone, Ne.symm hblock⟩)

/-- The loop takes a block that is not the last. -/
theorem take (h : Queued s) {block : AnswerBlock} {blocks : List AnswerBlock}
    (hs : s.blocks = block :: blocks) (hblock : block ≠ .teardown) (hblocks : t.blocks = blocks)
    (hlife : t.life = s.life) : Queued t := by
  refine ⟨fun hmem => ?_, fun hclosing => ?_, fun hdrained => ?_⟩
  · rw [hlife]
    exact h.waiting (by rw [hs]; rw [hblocks] at hmem; exact List.mem_cons_of_mem _ hmem)
  · rw [hlife] at hclosing
    obtain ⟨before, heq, hbefore⟩ := h.last hclosing
    rw [hs] at heq
    cases before with
    | nil =>
      obtain ⟨rfl, -⟩ := List.cons.inj heq
      exact absurd rfl hblock
    | cons first rest =>
      obtain ⟨-, rfl⟩ := List.cons.inj heq
      exact ⟨rest, hblocks, fun hmem => hbefore (List.mem_cons_of_mem _ hmem)⟩
  · rw [hlife] at hdrained
    have hnil := (h.drained hdrained).1
    rw [hs] at hnil
    cases hnil

theorem move (h : Queued s) (hguarded : Guarded s) (hmoved : Moved s t) : Queued t := by
  cases hmoved with
  | asked n hn => exact h.same rfl rfl rfl
  | answered n ok hn => exact h.same rfl rfl rfl
  | workerLocked n ok hn hfree => exact h.same rfl rfl rfl
  | workerAlive n ok hn halive => exact h.same rfl rfl rfl
  | discarded n ok hn halive => exact h.same rfl rfl rfl
  | posted n ok hn =>
    obtain ⟨-, -, hlife⟩ := hguarded.standing (hguarded.worker n ok hn)
    exact h.submit hlife (by simp) rfl hlife
  | workerLeft n hn => exact h.same rfl rfl rfl
  | dropped n ok blocks hloop hblocks => exact h.take hblocks (by simp) rfl rfl
  | entered n ok blocks hloop hblocks => exact h.take hblocks (by simp) rfl rfl
  | quiesced blocks hloop hblocks => exact h.take hblocks (by simp) rfl rfl
  | tornDown blocks hloop hblocks =>
    have hclosing : s.life = .closing := h.waiting (by simp [hblocks])
    obtain ⟨before, heq, hbefore⟩ := h.last hclosing
    have hnil : blocks = [] := by
      rw [hblocks] at heq
      cases before with
      | nil => simpa using heq
      | cons first rest =>
        obtain ⟨rfl, -⟩ := List.cons.inj heq
        exact absurd List.mem_cons_self hbefore
    exact ⟨by simp [hnil], by simp, fun _ => ⟨hnil, hloop⟩⟩
  | loopLocked n ok hloop hfree => exact h.running hloop rfl rfl
  | loopAlive n ok hloop halive => exact h.running hloop rfl rfl
  | discardedOnLoop n ok hloop halive => exact h.running hloop rfl rfl
  | erased n ok hloop => exact h.running hloop rfl rfl
  | finished n ok hloop => exact h.running hloop rfl rfl
  | loopLeft n ok hloop => exact h.running hloop rfl rfl
  | quiesceCalled hlife => exact h.submit hlife (by simp) rfl hlife
  | destructorCalled hd => exact h.same rfl rfl rfl
  | destructorLocked hd hfree => exact h.same rfl rfl rfl
  | marked hd => exact h.same rfl rfl rfl
  | frontendGone hd => exact h.same rfl rfl rfl
  | transportCalled hd hlife =>
    have hnone : .teardown ∉ s.blocks := fun hmem => by
      have hclosing := h.waiting hmem
      rw [hlife] at hclosing
      cases hclosing
    exact ⟨fun _ => rfl, fun _ => ⟨s.blocks, rfl, hnone⟩, by simp⟩
  | transportGone hlife =>
    obtain ⟨hnil, hloop⟩ := h.drained (.inl hlife)
    exact ⟨by simp [AnswerState.mark, hnil], by simp [AnswerState.mark], fun _ => ⟨hnil, hloop⟩⟩

end Queued

/-! What is logged. -/

/-- Why an entry of the log is right: a post and a block that is taken find
the transport, and what the continuation does finds the frontend too. -/
def AnswerMark.Right (before : List AnswerMark) : AnswerMark → Prop
  | .posted _ _ | .taken _ => .transportGone ∉ before
  | .erased _ | .replied _ | .applied _ => .frontendGone ∉ before ∧ .transportGone ∉ before
  | _ => True

theorem right_move {s t : AnswerState} (hguarded : Guarded s) (hqueued : Queued s)
    (hlog : Accounted AnswerMark.Right s.trace) (hmoved : Moved s t) :
    Accounted AnswerMark.Right t.trace := by
  have hpresent : s.blocks ≠ [] → .transportGone ∉ s.trace := fun hne hmem =>
    hne (hqueued.drained (.inr (hguarded.transport hmem))).1
  have hstanding : ∀ n ok, s.loop = some ⟨n, ok, .sawAlive⟩ ∨ s.loop = some ⟨n, ok, .erased⟩ →
      .frontendGone ∉ s.trace ∧ .transportGone ∉ s.trace := fun n ok hr => by
    obtain ⟨hfrontend, htransport, -⟩ := hguarded.standing (hguarded.loop n ok hr)
    exact ⟨hfrontend, htransport⟩
  cases hmoved with
  | discarded n ok hn halive => exact hlog.snoc trivial
  | posted n ok hn =>
    obtain ⟨-, htransport, -⟩ := hguarded.standing (hguarded.worker n ok hn)
    exact hlog.snoc htransport
  | dropped n ok blocks hloop hblocks =>
    exact (hlog.snoc (y := .taken n) (hpresent (by simp [hblocks]))).snoc trivial
  | entered n ok blocks hloop hblocks => exact hlog.snoc (hpresent (by simp [hblocks]))
  | discardedOnLoop n ok hloop halive => exact hlog.snoc trivial
  | erased n ok hloop => exact hlog.snoc (hstanding n ok (.inl hloop))
  | finished n ok hloop =>
    have hboth := hstanding n ok (.inr hloop)
    cases ok with
    | true => exact hlog.snoc hboth
    | false => exact hlog.snoc hboth
  | frontendGone hd => exact hlog.snoc trivial
  | transportGone hlife => exact hlog.snoc trivial
  | _ => exact hlog

/-! What becomes of one answer. -/

/-- **How an answer ends**: discarded by the worker; posted, and dropped,
discarded or acted on by the loop. -/
inductive Story (n : ConfirmId) : List AnswerMark → Prop
  | discarded : Story n [.discarded n]
  | dropped (ok : Bool) : Story n [.posted n ok, .taken n, .dropped n]
  | tooLate (ok : Bool) : Story n [.posted n ok, .taken n, .discardedOnLoop n]
  | declined : Story n [.posted n false, .taken n, .erased n, .replied n]
  | confirmed : Story n [.posted n true, .taken n, .erased n, .applied n]

namespace AnswerState

/-- The part of the log that is about a confirmation. -/
def part (s : AnswerState) (n : ConfirmId) : List AnswerMark :=
  s.trace.filter fun m => m.confirm? = some n

/-- Its blocks in the queue. -/
def queued (s : AnswerState) (n : ConfirmId) : List Bool :=
  s.blocks.filterMap fun
    | .continuation m ok => if m = n then some ok else none
    | _ => none

/-- Its block, if the loop is running it. -/
def running (s : AnswerState) (n : ConfirmId) : Option (Bool × Stage) :=
  s.loop.bind fun r => if r.confirm = n then some (r.ok, r.stage) else none

section Queued

variable {s t : AnswerState} {n m : ConfirmId} {ok : Bool}

theorem queued_submit (n : ConfirmId) (ok : Bool)
    (h : t.blocks = s.blocks ++ [.continuation n ok]) :
    t.queued n = s.queued n ++ [ok] := by
  simp [queued, h]

theorem queued_submit_of_ne (h : t.blocks = s.blocks ++ [.continuation m ok]) (hne : n ≠ m) :
    t.queued n = s.queued n := by
  simp [queued, h, Ne.symm hne]

theorem queued_take {blocks : List AnswerBlock} (h : s.blocks = .continuation n ok :: blocks)
    (ht : t.blocks = blocks) : s.queued n = ok :: t.queued n := by
  simp [queued, h, ht]

theorem queued_take_of_ne {blocks : List AnswerBlock} (h : s.blocks = .continuation m ok :: blocks)
    (ht : t.blocks = blocks) (hne : n ≠ m) : t.queued n = s.queued n := by
  simp [queued, h, ht, Ne.symm hne]

end Queued

end AnswerState

/-- The worker is past its check. -/
def WorkerPc.Left : WorkerPc → Prop
  | .leaving | .done => True
  | _ => False

/-- **Where an answer is, and what was logged of it so far.** -/
inductive Told (n : ConfirmId) (w : WorkerPc) :
    List Bool → Option (Bool × Stage) → List AnswerMark → Prop
  | waiting (hw : ¬ w.Left) : Told n w [] none []
  | queued (hw : w.Left) (ok : Bool) : Told n w [ok] none [.posted n ok]
  | taken (hw : w.Left) (ok : Bool) (stage : Stage) (hstage : stage ≠ .erased)
      (hstage' : stage ≠ .leaving) : Told n w [] (some (ok, stage)) [.posted n ok, .taken n]
  | erased (hw : w.Left) (ok : Bool) :
    Told n w [] (some (ok, .erased)) [.posted n ok, .taken n, .erased n]
  | ended (hw : w.Left) (r : Option (Bool × Stage)) (hr : ∀ ok stage, r = some (ok, stage) →
      stage = .leaving) {story : List AnswerMark} (hstory : Story n story) : Told n w [] r story

namespace Told

variable {n : ConfirmId} {w w' : WorkerPc} {q : List Bool} {r : Option (Bool × Stage)}
  {p : List AnswerMark}

/-- Before the worker's check nothing was logged. -/
theorem of_not_left (h : Told n w q r p) (hw : ¬ w.Left) : q = [] ∧ r = none ∧ p = [] := by
  cases h with
  | waiting _ => exact ⟨rfl, rfl, rfl⟩
  | queued hleft | taken hleft | erased hleft | ended hleft => exact absurd hleft hw

/-- A worker that goes on before its check, or unlocks after it. -/
theorem goto (h : Told n w q r p) (hw : w'.Left ↔ w.Left) : Told n w' q r p := by
  cases h with
  | waiting hleft => exact .waiting fun h => hleft (hw.1 h)
  | queued hleft ok => exact .queued (hw.2 hleft) ok
  | taken hleft ok stage hs hs' => exact .taken (hw.2 hleft) ok stage hs hs'
  | erased hleft ok => exact .erased (hw.2 hleft) ok
  | ended hleft r hr hstory => exact .ended (hw.2 hleft) r hr hstory

/-- A block in the queue is the only one, and was not taken. -/
theorem of_queued {ok : Bool} {rest : List Bool} (h : Told n w (ok :: rest) r p) :
    w.Left ∧ rest = [] ∧ r = none ∧ p = [.posted n ok] := by
  cases h with
  | queued hleft => exact ⟨hleft, rfl, rfl, rfl⟩

/-- A block the loop is running, up to what it does. -/
theorem of_running {ok : Bool} {stage : Stage} (h : Told n w q (some (ok, stage)) p)
    (hstage : stage ≠ .leaving) :
    w.Left ∧ q = [] ∧
      p = [.posted n ok, .taken n] ++ if stage = .erased then [.erased n] else [] := by
  cases h with
  | taken hleft _ _ hs => exact ⟨hleft, rfl, by simp [hs]⟩
  | erased hleft => exact ⟨hleft, rfl, rfl⟩
  | ended hleft _ hr => exact absurd (hr ok stage rfl) hstage

/-- And once it has done it. -/
theorem of_leaving {ok : Bool} (h : Told n w q (some (ok, .leaving)) p) :
    w.Left ∧ q = [] ∧ Story n p := by
  cases h with
  | taken hleft _ _ _ hs => exact absurd rfl hs
  | ended hleft _ hr hstory => exact ⟨hleft, rfl, hstory⟩

/-- What was logged is the beginning of a story. -/
theorem begins (h : Told n w q r p) : ∃ story, Story n story ∧ p <+: story := by
  cases h with
  | waiting _ => exact ⟨_, .discarded, List.nil_prefix⟩
  | queued _ ok => exact ⟨_, .dropped ok, _, rfl⟩
  | taken _ ok => exact ⟨_, .dropped ok, _, rfl⟩
  | erased _ ok =>
    cases ok with
    | true => exact ⟨_, .confirmed, _, rfl⟩
    | false => exact ⟨_, .declined, _, rfl⟩
  | ended _ _ _ hstory => exact ⟨_, hstory, List.prefix_refl _⟩

/-- And the whole of it, when nothing is left to come. -/
theorem ends (h : Told n w [] none p) (hw : w.Left) : Story n p := by
  cases h with
  | waiting hleft => exact absurd hw hleft
  | ended _ _ _ hstory => exact hstory

end Told

/-- Where confirmation `n` is in `s`. -/
def ToldOf (n : ConfirmId) (s : AnswerState) : Prop :=
  Told n (s.worker n) (s.queued n) (s.running n) (s.part n)

namespace ToldOf

variable {n : ConfirmId} {s t : AnswerState}

/-- A step that is not about `n`. -/
theorem same (h : ToldOf n s) (hworker : t.worker n = s.worker n) (hqueued : t.queued n = s.queued n)
    (hrunning : t.running n = s.running n) (hpart : t.part n = s.part n) : ToldOf n t := by
  unfold ToldOf
  rw [hworker, hqueued, hrunning, hpart]
  exact h

theorem fresh (n : ConfirmId) : ToldOf n .fresh := .waiting id

/-- A worker goes on, and stays on its side of the check. -/
theorem goto (h : ToldOf n s) {m : ConfirmId} {pc : WorkerPc}
    (hworker : t.worker = update s.worker m pc) (hblocks : t.blocks = s.blocks)
    (hloop : t.loop = s.loop) (htrace : t.trace = s.trace) (hpc : pc.Left ↔ (s.worker m).Left) :
    ToldOf n t := by
  have hqueued : t.queued n = s.queued n := by simp only [AnswerState.queued, hblocks]
  have hrunning : t.running n = s.running n := by simp only [AnswerState.running, hloop]
  have hpart : t.part n = s.part n := by simp only [AnswerState.part, htrace]
  unfold ToldOf
  rw [hqueued, hrunning, hpart]
  by_cases hm : n = m
  · subst hm
    rw [hworker, update_self]
    exact Told.goto h hpc
  · rw [hworker, update_of_ne hm]
    exact h

/-- A step about `m`, which logs what it did. -/
theorem about (h : ToldOf n s) (m : ConfirmId) {l : List AnswerMark}
    (htrace : t.trace = s.trace ++ l) (hms : ∀ mark ∈ l, mark.confirm? = some m)
    (hother : n ≠ m → t.worker n = s.worker n ∧ t.queued n = s.queued n ∧
      t.running n = s.running n)
    (hthis : n = m → Told n (t.worker n) (t.queued n) (t.running n) (s.part n ++ l)) :
    ToldOf n t := by
  by_cases hm : n = m
  · have hpart : t.part n = s.part n ++ l := by
      simp only [AnswerState.part, htrace, List.filter_append]
      congr 1
      exact List.filter_eq_self.2 fun mark hmark => by simp [hms mark hmark, hm]
    unfold ToldOf
    rw [hpart]
    exact hthis hm
  · have hpart : t.part n = s.part n := by
      simp only [AnswerState.part, htrace, List.filter_append, List.append_right_eq_self]
      exact List.filter_eq_nil_iff.2 fun mark hmark => by simp [hms mark hmark, Ne.symm hm]
    obtain ⟨hworker, hqueued, hrunning⟩ := hother hm
    exact h.same hworker hqueued hrunning hpart

/-- The loop goes on with the block it is running. -/
theorem onLoop (h : ToldOf n s) {m : ConfirmId} {ok : Bool} {stage : Stage}
    (loop : Option Running) (hloop : s.loop = some ⟨m, ok, stage⟩) (hloop' : t.loop = loop)
    (hafter : ∀ r ∈ loop, r.confirm = m) {l : List AnswerMark}
    (htrace : t.trace = s.trace ++ l) (hms : ∀ mark ∈ l, mark.confirm? = some m)
    (hworker : t.worker = s.worker) (hblocks : t.blocks = s.blocks)
    (hthis : ∀ {p}, Told m (s.worker m) (s.queued m) (some (ok, stage)) p →
      Told m (s.worker m) (s.queued m) (loop.map fun r => (r.ok, r.stage)) (p ++ l)) :
    ToldOf n t := by
  have hqueued : t.queued = s.queued := by
    funext k
    simp only [AnswerState.queued, hblocks]
  refine h.about m htrace hms (fun hne => ?_) fun heq => ?_
  · refine ⟨by rw [hworker], by rw [hqueued], ?_⟩
    have hthere : s.running n = none := by simp [AnswerState.running, hloop, Ne.symm hne]
    have hhere : t.running n = none := by
      unfold AnswerState.running
      rw [hloop']
      cases loop with
      | none => rfl
      | some r => simp [hafter r rfl, Ne.symm hne]
    rw [hthere, hhere]
  · subst heq
    have hthere : s.running n = some (ok, stage) := by simp [AnswerState.running, hloop]
    have hhere : t.running n = loop.map fun r => (r.ok, r.stage) := by
      unfold AnswerState.running
      rw [hloop']
      cases loop with
      | none => rfl
      | some r => simp [hafter r rfl]
    rw [hworker, hqueued, hhere]
    refine hthis ?_
    rw [← hthere]
    exact h

theorem move (h : ToldOf n s) (hmoved : Moved s t) : ToldOf n t := by
  cases hmoved with
  | asked m hm => exact h.goto rfl rfl rfl rfl (by simp [hm, WorkerPc.Left])
  | answered m ok hm => exact h.goto rfl rfl rfl rfl (by simp [hm, WorkerPc.Left])
  | workerLocked m ok hm hfree => exact h.goto rfl rfl rfl rfl (by simp [hm, WorkerPc.Left])
  | workerAlive m ok hm halive => exact h.goto rfl rfl rfl rfl (by simp [hm, WorkerPc.Left])
  | discarded m ok hm halive =>
    refine h.about m rfl (by simp [AnswerMark.confirm?]) (fun hne => ?_) fun heq => ?_
    · exact ⟨update_of_ne hne _ _, rfl, rfl⟩
    · subst heq
      obtain ⟨hq, hr, hp⟩ := Told.of_not_left h (by simp [hm, WorkerPc.Left])
      have hleft : (update s.worker n .leaving n).Left := by simp [WorkerPc.Left]
      have hqueued : ((s.goto n .leaving).mark (.discarded n)).queued n = [] := hq
      rw [hqueued, hp]
      refine .ended hleft _ (fun ok stage hsome => ?_) .discarded
      have hrunning : ((s.goto n .leaving).mark (.discarded n)).running n = none := hr
      rw [hrunning] at hsome
      cases hsome
  | posted m ok hm =>
    refine h.about m rfl (by simp [AnswerMark.confirm?]) (fun hne => ?_) fun heq => ?_
    · exact ⟨update_of_ne hne _ _, AnswerState.queued_submit_of_ne rfl hne, rfl⟩
    · subst heq
      obtain ⟨hq, hr, hp⟩ := Told.of_not_left h (by simp [hm, WorkerPc.Left])
      have hleft : (update s.worker n .leaving n).Left := by simp [WorkerPc.Left]
      rw [AnswerState.queued_submit n ok (s := s) rfl, hq, hp]
      have htold : Told n (update s.worker n .leaving n) [ok] (s.running n) [.posted n ok] := by
        rw [hr]
        exact .queued hleft ok
      exact htold
  | workerLeft m hm => exact h.goto rfl rfl rfl rfl (by simp [hm, WorkerPc.Left])
  | dropped m ok blocks hloop hblocks =>
    refine h.about m (l := [.taken m, .dropped m]) (by simp [AnswerState.mark])
      (by simp [AnswerMark.confirm?]) (fun hne => ?_) fun heq => ?_
    · exact ⟨rfl, AnswerState.queued_take_of_ne hblocks rfl hne, rfl⟩
    · subst heq
      unfold ToldOf at h
      rw [AnswerState.queued_take (t := { s with blocks := blocks }) hblocks rfl] at h
      obtain ⟨hleft, hrest, hr, hp⟩ := h.of_queued
      have htold : Told n (s.worker n) (({ s with blocks := blocks } : AnswerState).queued n)
          (s.running n) (s.part n ++ [.taken n, .dropped n]) := by
        rw [hrest, hr, hp]
        exact .ended hleft none (by simp) (.dropped ok)
      exact htold
  | entered m ok blocks hloop hblocks =>
    refine h.about m rfl (by simp [AnswerMark.confirm?]) (fun hne => ?_) fun heq => ?_
    · refine ⟨rfl, AnswerState.queued_take_of_ne hblocks rfl hne, ?_⟩
      simp [AnswerState.running, AnswerState.mark, hloop, Ne.symm hne]
    · subst heq
      unfold ToldOf at h
      rw [AnswerState.queued_take (t := { s with blocks := blocks }) hblocks rfl] at h
      obtain ⟨hleft, hrest, -, hp⟩ := h.of_queued
      have htold : Told n (s.worker n) (({ s with blocks := blocks } : AnswerState).queued n)
          (some (ok, .entered)) (s.part n ++ [.taken n]) := by
        rw [hrest, hp]
        exact .taken hleft ok .entered (by simp) (by simp)
      have hrunning :
          (({ s with blocks := blocks, loop := some ⟨n, ok, .entered⟩ } : AnswerState).mark
            (.taken n)).running n = some (ok, .entered) := by
        simp [AnswerState.running, AnswerState.mark]
      rw [hrunning]
      exact htold
  | quiesced blocks hloop hblocks =>
    exact h.same rfl (by simp [AnswerState.queued, hblocks]) rfl rfl
  | tornDown blocks hloop hblocks =>
    exact h.same rfl (by simp [AnswerState.queued, hblocks]) rfl rfl
  | loopLocked m ok hloop hfree =>
    refine h.onLoop (some ⟨m, ok, .locked⟩) hloop rfl (by simp) (List.append_nil _).symm (by simp) rfl rfl fun htold => ?_
    obtain ⟨hleft, hq, hp⟩ := htold.of_running (by simp)
    rw [hq, hp]
    exact .taken hleft ok .locked (by simp) (by simp)
  | loopAlive m ok hloop halive =>
    refine h.onLoop (some ⟨m, ok, .sawAlive⟩) hloop rfl (by simp) (List.append_nil _).symm (by simp) rfl rfl fun htold => ?_
    obtain ⟨hleft, hq, hp⟩ := htold.of_running (by simp)
    rw [hq, hp]
    exact .taken hleft ok .sawAlive (by simp) (by simp)
  | discardedOnLoop m ok hloop halive =>
    refine h.onLoop (some ⟨m, ok, .leaving⟩) hloop rfl (by simp) rfl (by simp [AnswerMark.confirm?]) rfl rfl fun htold => ?_
    obtain ⟨hleft, hq, hp⟩ := htold.of_running (by simp)
    rw [hq, hp]
    exact .ended hleft _ (by simp) (.tooLate ok)
  | erased m ok hloop =>
    refine h.onLoop (some ⟨m, ok, .erased⟩) hloop rfl (by simp) rfl (by simp [AnswerMark.confirm?]) rfl rfl fun htold => ?_
    obtain ⟨hleft, hq, hp⟩ := htold.of_running (by simp)
    rw [hq, hp]
    exact .erased hleft ok
  | finished m ok hloop =>
    refine h.onLoop (some ⟨m, ok, .leaving⟩) hloop rfl (by simp) rfl (by cases ok <;> simp [AnswerMark.confirm?]) rfl rfl
      fun htold => ?_
    obtain ⟨hleft, hq, hp⟩ := htold.of_running (by simp)
    rw [hq, hp]
    cases ok with
    | true => exact .ended hleft _ (by simp) .confirmed
    | false => exact .ended hleft _ (by simp) .declined
  | loopLeft m ok hloop =>
    refine h.onLoop none hloop rfl (by simp) (List.append_nil _).symm (by simp) rfl rfl fun htold => ?_
    obtain ⟨hleft, hq, hstory⟩ := htold.of_leaving
    rw [hq, List.append_nil]
    exact .ended hleft _ (by simp) hstory
  | quiesceCalled hlife => exact h.same rfl (by simp [AnswerState.queued]) rfl rfl
  | destructorCalled hd => exact h.same rfl rfl rfl rfl
  | destructorLocked hd hfree => exact h.same rfl rfl rfl rfl
  | marked hd => exact h.same rfl rfl rfl rfl
  | frontendGone hd =>
    exact h.same rfl rfl rfl (by simp [AnswerState.part, AnswerState.mark, AnswerMark.confirm?])
  | transportCalled hd hlife => exact h.same rfl (by simp [AnswerState.queued]) rfl rfl
  | transportGone hlife =>
    exact h.same rfl rfl rfl (by simp [AnswerState.part, AnswerState.mark, AnswerMark.confirm?])

end ToldOf

/-- **What every step keeps.** -/
structure Settled (s : AnswerState) : Prop where
  guarded : Guarded s
  queued : Queued s
  log : Accounted AnswerMark.Right s.trace
  told : ∀ n, ToldOf n s

theorem Settled.step {s t : AnswerState} {i : AnswerInput} (h : Settled s)
    (hstep : s.step i = some t) : Settled t := by
  have hmoved := moved_of_step hstep
  exact ⟨h.guarded.move h.queued hmoved, h.queued.move h.guarded hmoved,
    right_move h.guarded h.queued h.log hmoved, fun n => (h.told n).move hmoved⟩

theorem reachable_settled {s : AnswerState} (h : answers.Reachable s) : Settled s := by
  refine h.invariant (I := Settled) ?_ fun _ _ _ hs hstep => hs.step hstep
  rintro t rfl
  exact ⟨.fresh, ⟨by simp [AnswerState.fresh], by simp [AnswerState.fresh],
    by simp [AnswerState.fresh]⟩, .nil, .fresh⟩

/-- **A late answer is harmless.** However the workers, the loop and the
two destructors interleave: a worker posts only to a transport that is
there; the posted block is taken while the transport is there; what its
continuation does, it does to a frontend that is there; and of every answer
the log tells the beginning of one of the stories, the whole of it once the
worker and the loop are done with it. -/
theorem late_answers {s : AnswerState} (h : answers.Reachable s) :
    (∀ before n ok after, s.trace = before ++ .posted n ok :: after → .transportGone ∉ before) ∧
    (∀ before n after, s.trace = before ++ .taken n :: after → .transportGone ∉ before) ∧
    (∀ before n after, s.trace = before ++ .erased n :: after ∨
      s.trace = before ++ .replied n :: after ∨ s.trace = before ++ .applied n :: after →
      .frontendGone ∉ before ∧ .transportGone ∉ before) ∧
    (∀ n, ∃ story, Story n story ∧ s.part n <+: story) ∧
    ∀ n, s.worker n = .done → s.queued n = [] → s.running n = none → Story n (s.part n) := by
  have hsettled := reachable_settled h
  have hlog := hsettled.log
  refine ⟨fun before n ok after heq => hlog before _ after heq,
    fun before n after heq => hlog before _ after heq, ?_, fun n => (hsettled.told n).begins, ?_⟩
  · rintro before n after (heq | heq | heq) <;> exact hlog before _ after heq
  · intro n hdone hqueued hrunning
    have htold := hsettled.told n
    unfold ToldOf at htold
    rw [hqueued, hrunning] at htold
    exact htold.ends (by simp [hdone, WorkerPc.Left])

/-- Three answers: one in time, one posted and overtaken by the frontend's
destructor, one for which the worker finds the frontend gone. -/
def threeAnswers : List AnswerInput :=
  [.ask 0, .ask 1, .ask 2, .answer 0 true, .workerLock 0, .workerCheck 0, .workerPost 0,
   .workerUnlock 0, .answer 1 true, .workerLock 1, .workerCheck 1, .workerPost 1, .workerUnlock 1,
   .runNext, .loopLock, .destroyFrontend, .loopCheck, .loopErase, .loopFinish, .loopUnlock,
   .destructorLock, .destructorMark, .destructorUnlock, .destroyTransport, .runNext, .loopLock,
   .loopCheck, .loopUnlock, .answer 2 true, .runNext, .transportReturns, .workerLock 2,
   .workerCheck 2, .workerUnlock 2]

theorem late_answers_three :
    ∃ s, answers.run .fresh threeAnswers = some s ∧
      s.trace = [.posted 0 true, .posted 1 true, .taken 0, .erased 0, .applied 0, .frontendGone,
        .taken 1, .discardedOnLoop 1, .transportGone, .discarded 2] ∧
      .transportGone ∉ s.trace.take 6 ∧ Story 2 (s.part 2) := by
  have hreach : ∀ s, answers.run .fresh threeAnswers = some s → answers.Reachable s :=
    fun s hrun => ⟨_, _, rfl, hrun⟩
  refine ⟨_, rfl, rfl, ?_, ?_⟩
  · exact (late_answers (hreach _ rfl)).2.1 [_, _, _, _, _, _] 1 [_, _, _] rfl
  · exact (late_answers (hreach _ rfl)).2.2.2.2 2 rfl rfl rfl

end Frontend

end LibreDarwin
