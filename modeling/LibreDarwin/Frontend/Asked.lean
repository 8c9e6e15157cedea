import LibreDarwin.Frontend.Owned

/-!
# What a step asks and hears

A question comes up when its request is dispatched, with the sentence of
its change and the caller's label of that moment, and an answer is written
down when it comes. Nothing else does either.
-/

namespace LibreDarwin

namespace Frontend

open Wire Transport OperationChannel Script

variable {V Trust : Type*} {A : Agent V Trust} {o : Outside} {s t : FrontendState V}

/-! ## What a handler's script writes -/

section Life

variable {C : AgentCore V Trust} {i : Inbound} {n : ℕ} {φ φ' : Phase}

/-- A request that can still be refused always could. -/
theorem refuses_of_next {d : Deed} (h : φ.next C i d = some φ') (hφ' : φ'.Refuses) : φ.Refuses := by
  have hphase := next_phase h
  cases d with
  | authorized m action outcome =>
    obtain ⟨rfl, -⟩ := next_authorized.1 h
    trivial
  | allowed m ok =>
    obtain ⟨action, rfl, -⟩ := next_allowed.1 h
    trivial
  | readFd m fd outcome =>
    obtain ⟨action, reads, rfl, -⟩ := next_readFd.1 h
    trivial
  | cancel m op called =>
    obtain ⟨rfl, -⟩ := hphase
    trivial
  | fetched m op fits =>
    obtain ⟨rfl, -⟩ := hphase
    trivial
  | launched m op target spec => exact (hphase ▸ hφ' : (Phase.launched op).Refuses).elim
  | asked m connId req key => exact (hphase ▸ hφ' : Phase.asked.Refuses).elim
  | answered m verdict => exact (hphase ▸ hφ' : (Phase.answered verdict).Refuses).elim
  | applied m connId req confirmed effects => exact (hphase ▸ hφ' : Phase.applied.Refuses).elim
  | brokered m verb => exact (hphase ▸ hφ' : Phase.brokered.Refuses).elim
  | replied m connId reply carries sent => exact (hphase ▸ hφ' : Phase.over.Refuses).elim
  | _ => exact hphase.elim

/-- **What is done for a request that can still be refused** leads to a
phase where it can be. -/
theorem refuses_of_mem {deeds : List Deed} (h : (life C i n).run φ deeds = some φ')
    (hφ' : φ'.Refuses) {d : Deed} (hd : d ∈ deeds) :
    ∃ φ₁ φ₂ : Phase, φ₁.next C i d = some φ₂ ∧ φ₂.Refuses := by
  have hback : ∀ {deeds : List Deed} {φ : Phase}, (life C i n).run φ deeds = some φ' →
      φ.Refuses := by
    intro deeds
    induction deeds with
    | nil =>
      intro φ h
      obtain rfl := Option.some.inj h
      exact hφ'
    | cons d deeds ih =>
      intro φ h
      obtain ⟨φ₁, hstep, hrun⟩ := Machine.run_cons_eq_some.1 h
      exact refuses_of_next (life_step.1 hstep).2 (ih hrun)
  obtain ⟨before, after, rfl⟩ := List.append_of_mem hd
  rw [Machine.run_append_eq, Option.bind_eq_some_iff] at h
  obtain ⟨φ₁, -, hrun⟩ := h
  obtain ⟨φ₂, hstep, hrun⟩ := Machine.run_cons_eq_some.1 hrun
  exact ⟨φ₁, φ₂, (life_step.1 hstep).2, hback hrun⟩

/-- A handler hears no answer. -/
theorem not_answered_handle (m : ℕ) (verdict : PromptReplyStatus) :
    .answered m verdict ∉ (handle A o s n i).log := by
  intro hmem
  obtain ⟨φ, hrun, hφ⟩ := handle_refuses (A := A) (o := o) (s := s) (n := n) (i := i)
  obtain ⟨φ₁, φ₂, hnext, hφ₂⟩ := refuses_of_mem hrun hφ hmem
  obtain ⟨-, rfl⟩ := next_answered.1 hnext
  exact hφ₂

end Life

/-! ## What a step asks -/

/-- **A question as its dispatch raises it**: the sentence of the request's
own change, and the label its caller has. -/
def RaisedAt (o : Outside) (requests : List Inbound) (n : ℕ) (action : ConfirmAction) : Prop :=
  ∃ i x copy, requests[n]? = some i ∧ i.change? = some x ∧
    describeTrustChange x.key x.what = some copy ∧
      action = confirmAction copy (o.requesterLabel i.caller) x.key

theorem RaisedAt.mono {requests requests' : List Inbound} {n : ℕ} {action : ConfirmAction}
    (h : RaisedAt o requests n action) (hpre : requests <+: requests') :
    RaisedAt o requests' n action := by
  obtain ⟨i, x, copy, hi, hx⟩ := h
  obtain ⟨later, rfl⟩ := hpre
  exact ⟨i, x, copy, List.getElem?_append_left (List.getElem?_eq_some_iff.1 hi).1 ▸ hi, hx⟩

/-- **What a turn does about the questions.** -/
structure Hears (s t : FrontendState V) (input : FrontendInput) : Prop where
  requests : s.requests <+: t.requests
  asks : ∀ ask ∈ t.asks, ask ∈ s.asks ∨
    ∃ event o, input = .loop event o ∧ ask.n = s.requests.length ∧ RaisedAt o t.requests ask.n ask.action
  answered : ∀ n verdict, .answered n verdict ∈ t.log → .answered n verdict ∈ s.log ∨
    ∃ idx ask, input = .answer idx verdict ∧ s.asks[idx]? = some ask ∧ ask.n = n

namespace Hears

variable {input : FrontendInput}

theorem quiet (hrequests : s.requests <+: t.requests) (hasks : t.asks ⊆ s.asks)
    {deeds : List Deed} (hlog : t.log = s.log ++ deeds)
    (hdeeds : ∀ n verdict, .answered n verdict ∉ deeds) : Hears s t input where
  requests := hrequests
  asks ask hask := .inl (hasks hask)
  answered n verdict hmem := by
    rw [hlog] at hmem
    exact .inl ((List.mem_append.1 hmem).resolve_right (hdeeds n verdict))

/-- A dispatch that raises no question. -/
theorem handled {i : Inbound} (hrequests : t.requests = s.requests ++ [i]) (hasks : t.asks = s.asks)
    {deeds : List Deed} (hlog : t.log = (s.handled A o i).log ++ deeds)
    (hdeeds : ∀ n verdict, .answered n verdict ∉ deeds) : Hears s t input := by
  refine quiet ?_ ?_ (hlog.trans (List.append_assoc _ _ _)) fun n verdict hmem => ?_
  · rw [hrequests]
    exact List.prefix_append _ _
  · rw [hasks]
    exact List.Subset.refl _
  · rcases List.mem_append.1 hmem with hmem | hmem
    · exact not_answered_handle n verdict hmem
    · exact hdeeds n verdict hmem

theorem not_answered_emittedDeeds {op : OpId} {blocks : List Block} (n : ℕ)
    (verdict : PromptReplyStatus) : .answered n verdict ∉ emittedDeeds op blocks := by
  intro hmem
  obtain ⟨block, -, hblock⟩ := List.mem_filterMap.1 hmem
  cases block <;> simp at hblock

theorem turn (hturn : FrontendTurn A s input t) : Hears s t input := by
  cases hturn with
  | idle => exact quiet List.prefix_rfl (List.Subset.refl _) (List.append_nil _).symm (by simp)
  | replied hi hsaying => exact handled rfl rfl rfl (by simp)
  | changed hi hok => exact handled rfl rfl rfl (by simp)
  | @launched event o i hi target spec onSignArtifact hok op early hlaunched hfresh =>
    have hlog : ∀ (u : FrontendState V) (out : List Block × Operation) (d d' : Deed),
        (((u.did [d]).emitted op out).did [d']).log = u.log ++ (d :: emittedDeeds op out.1 ++ [d']) :=
      fun u out d d' => by simp [FrontendState.emitted, FrontendState.did]
    exact handled rfl rfl (hlog _ _ _ _) (by simp [not_answered_emittedDeeds])
  | @asked event o i hi x hok copy hcopy hfree =>
    obtain ⟨φ, -, -, hchange⟩ := permitted_of_ok hok
    refine ⟨List.prefix_append _ _, fun ask hask => ?_, fun n verdict hmem => .inl ?_⟩
    · rcases List.mem_append.1 hask with hold | hnew
      · exact .inl hold
      · obtain rfl := List.mem_singleton.1 hnew
        exact .inr ⟨event, o, rfl, rfl, i, x, copy, List.getElem?_concat_length, hchange, hcopy, rfl⟩
    · rcases List.mem_append.1 hmem with hmem | hmem
      · exact (List.mem_append.1 hmem).resolve_right (not_answered_handle n verdict)
      · simp at hmem
  | brokered hi hok => exact handled rfl rfl rfl (by simp)
  | @answer idx verdict ask hask =>
    refine ⟨List.prefix_rfl, fun a ha => .inl ((List.eraseIdx_sublist _ _).subset ha),
      fun n v hmem => ?_⟩
    rcases List.mem_append.1 hmem with hmem | hmem
    · exact .inl hmem
    · obtain ⟨rfl, rfl⟩ := Deed.answered.inj (List.mem_singleton.1 hmem)
      exact .inr ⟨idx, ask, rfl, hask, rfl⟩
  | emit hx e anonFdFromBytes =>
    exact quiet List.prefix_rfl (List.Subset.refl _) rfl (by simp [not_answered_emittedDeeds])
  | broker hcall => exact quiet List.prefix_rfl (List.Subset.refl _) (List.append_nil _).symm (by simp)
  | due hop => exact quiet List.prefix_rfl (List.Subset.refl _) (List.append_nil _).symm (by simp)
  | dropped hposted hwhy =>
    exact quiet List.prefix_rfl (List.Subset.refl _) (List.append_nil _).symm (by simp)
  | reply hposted hcan => exact quiet List.prefix_rfl (List.Subset.refl _) rfl (by simp)
  | event hposted hcan => exact quiet List.prefix_rfl (List.Subset.refl _) rfl (by simp)
  | confirmed hposted hcan halive => exact quiet List.prefix_rfl (List.Subset.refl _) rfl (by simp)
  | declined hposted hcan halive hverdict =>
    exact quiet List.prefix_rfl (List.Subset.refl _) rfl (by simp)
  | stashed hposted hcan halive => exact quiet List.prefix_rfl (List.Subset.refl _) rfl (by simp)
  | pruned hposted hcan halive => exact quiet List.prefix_rfl (List.Subset.refl _) rfl (by simp)
  | expired hposted hcan halive => exact quiet List.prefix_rfl (List.Subset.refl _) rfl (by simp)
  | evicted hposted hcan halive => exact quiet List.prefix_rfl (List.Subset.refl _) rfl (by simp)
  | destroy => exact quiet List.prefix_rfl (List.Subset.refl _) (List.append_nil _).symm (by simp)

/-- The moves of the transport before a turn and after it ask and hear
nothing. -/
theorem shifted {s₀ s' : FrontendState V} (hbefore : Shifted A s s₀) (h : Hears s₀ s' input)
    (hafter : Shifted A s' t) : Hears s t input where
  requests := by
    rw [hafter.requests, ← hbefore.requests]
    exact h.requests
  asks := by
    rw [hafter.asks, hafter.requests, ← hbefore.asks, ← hbefore.requests]
    exact h.asks
  answered := by
    rw [hafter.log, ← hbefore.log, ← hbefore.asks]
    exact h.answered

end Hears

/-- **What a step does about the questions.** -/
theorem hears_step (hs : (frontend A).Reachable s) {input : FrontendInput}
    (h : s.step A input = some t) : Hears s t input := by
  obtain ⟨s₀, s', hbefore, -, hturn, hends⟩ := step_turn (reachable_transport hs) h
  exact .shifted hbefore (.turn hturn) hends.moved

end Frontend

end LibreDarwin
