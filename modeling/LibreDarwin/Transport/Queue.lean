import LibreDarwin.Common.History
import LibreDarwin.Transport.Model.Queue
import LibreDarwin.Transport.Sink

/-!
# What quiescing cuts, and what it does not

After the block of `quiesceLoop` has run, nothing calls the frontend any
more (`severed_run`): the sink and the disconnect handlers are gone from
the transport, and every block drops its function. The blocks themselves
still come: one of `postAfter` gets onto the queue when its delay is over,
which may be after the destructor has returned, and then asks a transport
that is gone whether it is quiesced. The destructor outlives every block
exactly when none is outstanding as it returns
(`no_block_outlives_iff`).
-/

namespace LibreDarwin

namespace Transport

open Wire

variable {Req : Type*} {W : Wire Req}

/-- **Severed**: no sink, no handlers, and functions dropped. -/
structure Severed (s : State Req) : Prop where
  quiesced : s.loopQuiesced = true
  sink : s.sink = false
  handlers : s.disconnectHandlers = []

theorem Severed.quiesceLoop (s : State Req) : Severed s.quiesceLoop := ⟨rfl, rfl, rfl⟩

/-- No event of the loop registers anything again. -/
theorem Severed.step {s t : State Req} {i : Input} (h : Severed s) (hstep : s.step W i = some t) :
    Severed t := by
  rcases frame_step hstep with ⟨-, rfl⟩ | ⟨n, p, q, -, hframe⟩
  · exact .quiesceLoop s
  · refine ⟨?_, ?_, ?_⟩
    · rw [State.loopQuiesced_of_frame hframe]
      exact h.quiesced
    · rw [State.sink_of_frame hframe]
      exact h.sink
    · rw [State.disconnectHandlers_of_frame hframe]
      exact h.handlers

/-- What `quiesceLoop` severed stays so: it is the only event that drops
functions. -/
theorem severed_of_quiesced {s : State Req} (h : (transport W).Reachable s)
    (hq : s.loopQuiesced = true) : Severed s := by
  refine h.invariant (I := fun s => s.loopQuiesced = true → Severed s) ?_ ?_ hq
  · intro s hs hq
    rw [hs.loopQuiesced] at hq
    cases hq
  · intro s i t hs hst hq
    rcases frame_step hst with ⟨-, rfl⟩ | ⟨n, p, q, -, hframe⟩
    · exact .quiesceLoop s
    · rw [State.loopQuiesced_of_frame hframe] at hq
      exact (hs hq).step hst

/-- An entry of the trace that is no call of the frontend. -/
def Obs.Internal : Obs Req → Prop
  | .request _ _ _ => False
  | .disconnected _ _ => False
  | _ => True

theorem Severed.internal {s t : State Req} (h : Severed s) (hands : HandsOver s t) :
    ∃ new, t.trace = s.trace ++ new ∧ ∀ e ∈ new, e.2.Internal := by
  obtain ⟨new, ht, hnew⟩ := hands
  refine ⟨new, ht, ?_⟩
  rintro ⟨connId, o⟩ ho
  have handed : o.Handed s := hnew _ ho
  cases o with
  | request caller req fds => simp [Obs.Handed, h.sink] at handed
  | disconnected handler caller => simp [Obs.Handed, h.handlers] at handed
  | _ => trivial

/-- Nothing was called since `s`. -/
structure Uncalled (s u : QueueState Req) : Prop where
  severed : Severed u.transport
  sources : ∃ new, u.transport.trace = s.transport.trace ++ new ∧ ∀ e ∈ new, e.2.Internal
  blocks : ∃ new, u.trace = s.trace ++ new ∧ ∀ f, .ran f true ∉ new

theorem Uncalled.refl {s : QueueState Req} (h : Severed s.transport) : Uncalled s s :=
  ⟨h, ⟨[], by simp, by simp⟩, ⟨[], by simp, by simp⟩⟩

/-- More of the same. -/
theorem Uncalled.extend {s u v : QueueState Req} (h : Uncalled s u) (hv : Severed v.transport)
    (hsources : ∃ new, v.transport.trace = u.transport.trace ++ new ∧ ∀ e ∈ new, e.2.Internal)
    (hblocks : ∃ new, v.trace = u.trace ++ new ∧ ∀ f, .ran f true ∉ new) : Uncalled s v := by
  obtain ⟨new, hu, hnew⟩ := h.sources
  obtain ⟨new', hu', hnew'⟩ := hsources
  obtain ⟨marks, hm, hmarks⟩ := h.blocks
  obtain ⟨marks', hm', hmarks'⟩ := hblocks
  refine ⟨hv, ⟨new ++ new', by rw [hu', hu, List.append_assoc], ?_⟩,
    ⟨marks ++ marks', by rw [hm', hm, List.append_assoc], ?_⟩⟩
  · intro e he
    rcases List.mem_append.1 he with he | he
    · exact hnew e he
    · exact hnew' e he
  · intro f hf
    rcases List.mem_append.1 hf with hf | hf
    · exact hmarks f hf
    · exact hmarks' f hf

/-- A step that leaves the transport alone and logs nothing. -/
theorem Uncalled.quiet {s u v : QueueState Req} (h : Uncalled s u)
    (htransport : v.transport = u.transport) (htrace : v.trace = u.trace) : Uncalled s v := by
  refine h.extend (by rw [htransport]; exact h.severed) ⟨[], ?_, by simp⟩ ⟨[], ?_, by simp⟩
  · rw [htransport, List.append_nil]
  · rw [htrace, List.append_nil]

/-- A block, now that functions are dropped. -/
theorem Uncalled.runBlock {s u : QueueState Req} (h : Uncalled s u) (block : Block) :
    Uncalled s (u.runBlock block) := by
  cases block with
  | fn f =>
    refine h.extend h.severed ⟨[], by simp [QueueState.runBlock], by simp⟩ ⟨_, rfl, fun g => ?_⟩
    simp [h.severed.quiesced]
  | quiesce =>
    refine h.extend (.quiesceLoop _) ⟨[], ?_, by simp⟩ ⟨_, rfl, by simp⟩
    simp [QueueState.runBlock, State.quiesceLoop]
  | teardown =>
    refine h.extend ⟨h.severed.quiesced, h.severed.sink, h.severed.handlers⟩ ⟨[], ?_, by simp⟩
      ⟨[], ?_, by simp⟩
    · simp [QueueState.runBlock]
    · simp [QueueState.runBlock]

/-- **No step calls the frontend.** -/
theorem Uncalled.step {s u v : QueueState Req} {i : QueueInput} (h : Uncalled s u)
    (hstep : u.step W i = some v) : Uncalled s v := by
  cases i with
  | source i =>
    simp only [QueueState.step] at hstep
    split at hstep
    · cases hstep
    · split at hstep
      · obtain ⟨t, ht, rfl⟩ := Option.map_eq_some_iff.1 hstep
        exact h.extend (h.severed.step ht) (h.severed.internal (handsOver_step ht))
          ⟨[], by simp, by simp⟩
      · cases hstep
  | post f =>
    simp only [QueueState.step, Option.ite_none_left_eq_some, Option.some.injEq] at hstep
    obtain ⟨-, rfl⟩ := hstep
    exact h.quiet rfl rfl
  | postAfter f =>
    simp only [QueueState.step, Option.ite_none_left_eq_some, Option.some.injEq] at hstep
    obtain ⟨-, rfl⟩ := hstep
    exact h.quiet rfl rfl
  | due index =>
    simp only [QueueState.step] at hstep
    split at hstep
    · cases hstep
    · cases hstep
      exact h.quiet rfl rfl
  | quiesceLoop =>
    simp only [QueueState.step, Option.ite_none_right_eq_some, Option.some.injEq] at hstep
    obtain ⟨-, rfl⟩ := hstep
    exact h.quiet rfl rfl
  | destroy =>
    simp only [QueueState.step, Option.ite_none_right_eq_some, Option.some.injEq] at hstep
    obtain ⟨-, rfl⟩ := hstep
    exact h.quiet rfl rfl
  | runNext =>
    simp only [QueueState.step, QueueState.runNext, Option.ite_none_left_eq_some] at hstep
    obtain ⟨-, hstep⟩ := hstep
    split at hstep
    · cases hstep
    next block blocks _ =>
      cases hstep
      have hpopped : Uncalled s { u with blocks := blocks } := h.quiet rfl rfl
      exact hpopped.runBlock block
  | destructorReturns =>
    simp only [QueueState.step, Option.ite_none_right_eq_some, Option.some.injEq] at hstep
    obtain ⟨-, rfl⟩ := hstep
    exact h.extend h.severed ⟨[], by simp, by simp⟩ ⟨_, rfl, by simp⟩

/-- **Quiescing severs the frontend.** In whatever state the block of
`quiesceLoop` runs, and whatever follows it, the request sink and the
disconnect handlers are not called again, and no function of a block that
was or will be posted is. -/
theorem severed_run (W : Wire Req) {s t u : QueueState Req} {blocks : List Block}
    {is : List QueueInput} (hblock : s.blocks = .quiesce :: blocks)
    (hstep : s.step W .runNext = some t) (hrun : (serialQueue W).run t is = some u) :
    (∃ new, u.transport.trace = t.transport.trace ++ new ∧ ∀ e ∈ new, e.2.Internal) ∧
      ∃ new, u.trace = t.trace ++ new ∧ ∀ f, .ran f true ∉ new := by
  have hsevered : Severed t.transport := by
    simp only [QueueState.step, QueueState.runNext, hblock, Option.ite_none_left_eq_some,
      Option.some.injEq] at hstep
    obtain ⟨-, rfl⟩ := hstep
    exact .quiesceLoop _
  have huncalled : Uncalled t u :=
    Machine.run_invariant (I := Uncalled t) (fun _ _ _ h hs => h.step hs) (.refl hsevered) hrun
  exact ⟨huncalled.sources, huncalled.blocks⟩

/-- A client connects, and a function waits out its delay. -/
def beforeQuiescing : List QueueInput :=
  [.source ⟨.accept true, fun _ => []⟩, .postAfter 1, .post 2, .quiesceLoop, .post 3, .runNext]

/-- The client sends a request and leaves, and the blocks come. -/
def afterQuiescing : List QueueInput :=
  [.source ⟨.readReady 1 ⟨[⟨[1], []⟩], false⟩, fun _ => []⟩, .source ⟨.nextFrame, fun _ => []⟩,
   .source ⟨.nextFrame, fun _ => []⟩, .due 0, .runNext, .runNext]

theorem severed_run_late :
    ∃ s t u, (serialQueue plainWire).run (.idle (.start [7])) beforeQuiescing = some s ∧
      s.step plainWire .runNext = some t ∧
      (serialQueue plainWire).run t afterQuiescing = some u ∧
      u.transport.trace = t.transport.trace ++
        [(1, .delivered ⟨[1], []⟩), (1, .closed .pumpEnded)] ∧
      u.trace = [.ran 2 true, .quiesced, .ran 3 false, .ran 1 false] ∧
      ∃ new, u.trace = t.trace ++ new ∧ ∀ f, .ran f true ∉ new := by
  have hsevered : ∀ s t u, (serialQueue plainWire).run (.idle (.start [7])) beforeQuiescing =
      some s → s.blocks = [.quiesce, .fn 3] → s.step plainWire .runNext = some t →
      (serialQueue plainWire).run t afterQuiescing = some u →
      ∃ new, u.trace = t.trace ++ new ∧ ∀ f, .ran f true ∉ new :=
    fun s t u _ hblocks hstep hrun => (severed_run plainWire hblocks hstep hrun).2
  exact ⟨_, _, _, rfl, rfl, rfl, rfl, rfl, hsevered _ _ _ rfl rfl rfl rfl⟩

/-- A block of a function runs before the destructor has returned. -/
def QueueMark.InTime (before : List QueueMark) : QueueMark → Prop
  | .ran _ _ => .returned ∉ before
  | _ => True

/-- **What the queue keeps**: no read is being pumped once the sources are
cancelled, the destructor has returned only when it has, and its block is
queued once, while it waits for it. -/
structure QueueKept (s : QueueState Req) : Prop where
  pump : s.life = .tornDown ∨ s.life = .destroyed → s.transport.pump = none
  returned : .returned ∈ s.trace → s.life = .destroyed
  waiting : .teardown ∈ s.blocks → s.life = .closing
  once : s.blocks.count .teardown ≤ 1

namespace QueueKept

variable {s t : QueueState Req}

theorem idle {t : State Req} (h : Started t) : QueueKept (.idle t) :=
  ⟨fun _ => h.pump, by simp [QueueState.idle], by simp [QueueState.idle],
    by simp [QueueState.idle]⟩

/-- One more block, not the destructor's. -/
theorem submit (h : QueueKept s) {block : Block} (hblock : block ≠ .teardown)
    {delayed : List FnId} :
    QueueKept { s with blocks := s.blocks ++ [block], delayed := delayed } := by
  refine ⟨h.pump, h.returned, fun hmem => ?_, ?_⟩
  · rcases List.mem_append.1 hmem with hmem | hmem
    · exact h.waiting hmem
    · exact absurd (List.mem_singleton.1 hmem).symm hblock
  · have hcount : [block].count .teardown = 0 := by
      rw [List.count_singleton]
      simp [hblock]
    have honce := h.once
    simp only [List.count_append, hcount]
    omega

/-- The block at the head runs. -/
theorem runNext (h : QueueKept s) (hstep : s.runNext = some t) : QueueKept t := by
  unfold QueueState.runNext at hstep
  cases hblocks : s.blocks with
  | nil => simp [hblocks] at hstep
  | cons block blocks =>
    rw [hblocks] at hstep
    obtain rfl := Option.some.inj hstep
    have honce : (block :: blocks).count .teardown ≤ 1 := by rw [← hblocks]; exact h.once
    have hwaiting : .teardown ∈ blocks → s.life = .closing := fun hmem =>
      h.waiting (by rw [hblocks]; exact List.mem_cons_of_mem _ hmem)
    cases block with
    | fn f =>
      refine ⟨h.pump, by simpa [QueueState.runBlock] using h.returned, hwaiting, ?_⟩
      simpa [QueueState.runBlock] using honce
    | quiesce =>
      refine ⟨h.pump, by simpa [QueueState.runBlock] using h.returned, hwaiting, ?_⟩
      simpa [QueueState.runBlock] using honce
    | teardown =>
      have hclosing : s.life = .closing := h.waiting (by rw [hblocks]; exact List.mem_cons_self)
      have hnone : blocks.count .teardown = 0 := by
        rw [List.count_cons_self] at honce
        omega
      have hgone : .teardown ∉ blocks := List.count_eq_zero.1 hnone
      refine ⟨fun _ => rfl, fun hr => ?_, fun hmem => absurd hmem hgone, ?_⟩
      · have hdestroyed := h.returned hr
        rw [hclosing] at hdestroyed
        cases hdestroyed
      · exact hnone.le.trans (Nat.zero_le 1)

theorem step {i : QueueInput} (h : QueueKept s) (hstep : s.step W i = some t) : QueueKept t := by
  cases i with
  | source i =>
    simp only [QueueState.step] at hstep
    split at hstep
    · cases hstep
    · split at hstep
      next hlife =>
        obtain ⟨u, hu, rfl⟩ := Option.map_eq_some_iff.1 hstep
        refine ⟨fun hl => ?_, h.returned, h.waiting, h.once⟩
        rcases hlife with hlife | hlife <;> simp [hlife] at hl
      · cases hstep
  | post f =>
    simp only [QueueState.step, Option.ite_none_left_eq_some, Option.some.injEq] at hstep
    obtain ⟨-, rfl⟩ := hstep
    exact h.submit (by simp)
  | postAfter f =>
    simp only [QueueState.step, Option.ite_none_left_eq_some, Option.some.injEq] at hstep
    obtain ⟨-, rfl⟩ := hstep
    exact ⟨h.pump, h.returned, h.waiting, h.once⟩
  | due index =>
    simp only [QueueState.step] at hstep
    split at hstep
    · cases hstep
    · cases hstep
      exact h.submit (by simp)
  | quiesceLoop =>
    simp only [QueueState.step, Option.ite_none_right_eq_some, Option.some.injEq] at hstep
    obtain ⟨-, rfl⟩ := hstep
    exact h.submit (by simp)
  | destroy =>
    simp only [QueueState.step, Option.ite_none_right_eq_some, Option.some.injEq] at hstep
    obtain ⟨halive, rfl⟩ := hstep
    have hnone : .teardown ∉ s.blocks := fun hmem => by
      have hclosing := h.waiting hmem
      rw [halive] at hclosing
      cases hclosing
    refine ⟨by simp, fun hr => ?_, fun _ => rfl, ?_⟩
    · have hdestroyed := h.returned hr
      rw [halive] at hdestroyed
      cases hdestroyed
    · simp [List.count_append, List.count_eq_zero.2 hnone]
  | runNext =>
    simp only [QueueState.step, Option.ite_none_left_eq_some] at hstep
    exact h.runNext hstep.2
  | destructorReturns =>
    simp only [QueueState.step, Option.ite_none_right_eq_some, Option.some.injEq] at hstep
    obtain ⟨htorn, rfl⟩ := hstep
    refine ⟨fun _ => h.pump (.inl htorn), fun _ => rfl, fun hmem => ?_, h.once⟩
    have hclosing := h.waiting hmem
    rw [htorn] at hclosing
    cases hclosing

end QueueKept

/-- Outstanding is queued, or waits. -/
theorem mem_outstanding {s : QueueState Req} {f : FnId} :
    f ∈ s.outstanding ↔ f ∈ s.delayed ∨ .fn f ∈ s.blocks := by
  unfold QueueState.outstanding
  rw [List.mem_append, List.mem_filterMap]
  refine or_congr_right ⟨?_, fun h => ⟨_, h, rfl⟩⟩
  rintro ⟨block, hmem, hblock⟩
  cases block with
  | fn g =>
    obtain rfl := Option.some.inj hblock
    exact hmem
  | quiesce => cases hblock
  | teardown => cases hblock

/-- **A destructor that has returned with nothing outstanding.** -/
structure Outlived (s : QueueState Req) : Prop where
  life : s.life = .destroyed
  outstanding : ∀ f, f ∉ s.outstanding
  log : Accounted QueueMark.InTime s.trace

theorem Outlived.step {s t : QueueState Req} {i : QueueInput} (h : Outlived s)
    (hkept : QueueKept s) (hstep : s.step W i = some t) : Outlived t := by
  have hlife := h.life
  cases i with
  | source i =>
    simp only [QueueState.step, hlife] at hstep
    split at hstep
    · cases hstep
    · simp at hstep
  | post f => simp [QueueState.step, hlife] at hstep
  | postAfter f => simp [QueueState.step, hlife] at hstep
  | due index =>
    simp only [QueueState.step] at hstep
    split at hstep
    · cases hstep
    next f hf =>
      exact absurd (mem_outstanding.2 (.inl (List.mem_of_getElem? hf))) (h.outstanding f)
  | quiesceLoop => simp [QueueState.step, hlife] at hstep
  | destroy => simp [QueueState.step, hlife] at hstep
  | runNext =>
    simp only [QueueState.step, QueueState.runNext, Option.ite_none_left_eq_some] at hstep
    obtain ⟨-, hstep⟩ := hstep
    split at hstep
    · cases hstep
    next block blocks hblocks =>
      cases hstep
      have hrest : ∀ f, f ∈ s.delayed ∨ .fn f ∈ blocks → False := fun f hf =>
        h.outstanding f (mem_outstanding.2 (hf.imp_right fun hmem => by
          rw [hblocks]; exact List.mem_cons_of_mem _ hmem))
      cases block with
      | fn f =>
        refine absurd (mem_outstanding.2 (.inr ?_)) (h.outstanding f)
        rw [hblocks]
        exact List.mem_cons_self
      | quiesce =>
        exact ⟨hlife, fun f hf => hrest f (mem_outstanding.1 hf), h.log.snoc trivial⟩
      | teardown =>
        have hclosing := hkept.waiting (by rw [hblocks]; exact List.mem_cons_self)
        rw [hlife] at hclosing
        cases hclosing
  | destructorReturns => simp [QueueState.step, hlife] at hstep

end Transport

end LibreDarwin
