import LibreDarwin.Frontend.Asked

/-!
# Back to the dispatch

What the gates of a request said, and what was launched for it, is written
down while the request is dispatched, by its handler's script or at the
script's end. So whatever the log has of these is found again at one step
of the loop, with the frontend the handler looked at and the answers the
rest of the agent gave it. The calls the broker is given are traced back
in the same way.
-/

namespace LibreDarwin

namespace Frontend

open Wire Transport OperationChannel Script

variable {V Trust : Type*} {A : Agent V Trust} {o : Outside} {s t u : FrontendState V}

/-- What is only written down while a request is dispatched. -/
def Deed.AtDispatch : Deed → Bool
  | .authorized _ _ _ | .allowed _ _ | .readFd _ _ _ | .launched _ _ _ _ => true
  | _ => false

/-- **What the dispatch of a request writes down**: what its handler does,
and the launch the handler ends with. -/
inductive Deed.Served (A : Agent V Trust) (o : Outside) (u : FrontendState V) (i : Inbound) :
    Deed → Prop
  | script {d : Deed} (h : d ∈ (handle A o u u.requests.length i).log) : Served A o u i d
  | launched {target : OperationTarget} {spec : LaunchSpec} {onSignArtifact : Bool} {op : OpId}
      {early : List Emission}
      (h : (handle A o u u.requests.length i).result = .ok (.launch target spec onSignArtifact))
      (hlaunched : o.launched = .ok (op, early)) :
      Served A o u i (.launched u.requests.length op target spec)

/-- A call the broker is given as a request is dispatched. -/
structure BrokerCall.Served (A : Agent V Trust) (o : Outside) (u : FrontendState V) (i : Inbound)
    (call : BrokerCall) : Prop where
  n : call.n = u.requests.length
  caller : call.caller = i.caller
  requester : call.requester = o.requesterLabel i.caller
  verb : (handle A o u u.requests.length i).result = .ok (.broker call.reader call.verb)

/-- A question a person is asked as a request is dispatched. -/
structure Ask.Served (o : Outside) (u : FrontendState V) (i : Inbound) (ask : Ask) : Prop where
  n : ask.n = u.requests.length
  caller : ask.caller = i.caller
  requester : ask.action.requester = o.requesterLabel i.caller

/-! ## What a turn adds -/

/-- **What a turn adds, a dispatch adds.** -/
structure Adds (A : Agent V Trust) (s t : FrontendState V) (input : FrontendInput) : Prop where
  deeds : ∀ d ∈ t.log, d.AtDispatch = true → d ∈ s.log ∨ ∃ event o i, input = .loop event o ∧
    Arrives s i ∧ t.requests = s.requests ++ [i] ∧ d.Served A o s i
  calls : ∀ call ∈ t.brokerCalls, call ∈ s.brokerCalls ∨ ∃ event o i, input = .loop event o ∧
    Arrives s i ∧ t.requests = s.requests ++ [i] ∧ call.Served A o s i
  asks : ∀ ask ∈ t.asks, ask ∈ s.asks ∨ ∃ event o i, input = .loop event o ∧
    Arrives s i ∧ t.requests = s.requests ++ [i] ∧ ask.Served o s i

namespace Adds

variable {input : FrontendInput}

theorem quiet {deeds : List Deed} (hlog : t.log = s.log ++ deeds)
    (hdeeds : ∀ d ∈ deeds, d.AtDispatch = false) (hcalls : t.brokerCalls ⊆ s.brokerCalls)
    (hasks : t.asks ⊆ s.asks) : Adds A s t input where
  deeds d hd hat := by
    rw [hlog] at hd
    refine .inl ((List.mem_append.1 hd).resolve_right fun hmem => ?_)
    rw [hdeeds d hmem] at hat
    cases hat
  calls call hcall := .inl (hcalls hcall)
  asks ask hask := .inl (hasks hask)

/-- A dispatch whose handler the rest only follows. -/
theorem handled {event : Input} {i : Inbound} (hi : Arrives s i)
    (hrequests : t.requests = s.requests ++ [i]) {deeds : List Deed}
    (hlog : t.log = (s.handled A o i).log ++ deeds)
    (hdeeds : ∀ d ∈ deeds, d.AtDispatch = true → d.Served A o s i)
    (hcalls : ∀ call ∈ t.brokerCalls, call ∈ s.brokerCalls ∨ call.Served A o s i)
    (hasks : ∀ ask ∈ t.asks, ask ∈ s.asks ∨ ask.Served o s i) :
    Adds A s t (.loop event o) where
  deeds d hd hat := by
    rw [hlog] at hd
    rcases List.mem_append.1 hd with hd | hd
    · rcases List.mem_append.1 hd with hd | hd
      · exact .inl hd
      · exact .inr ⟨event, o, i, rfl, hi, hrequests, .script hd⟩
    · exact .inr ⟨event, o, i, rfl, hi, hrequests, hdeeds d hd hat⟩
  calls call hcall :=
    (hcalls call hcall).imp_right fun hserved => ⟨event, o, i, rfl, hi, hrequests, hserved⟩
  asks ask hask :=
    (hasks ask hask).imp_right fun hserved => ⟨event, o, i, rfl, hi, hrequests, hserved⟩

theorem atDispatch_emittedDeeds {op : OpId} {blocks : List Block} :
    ∀ d ∈ emittedDeeds op blocks, d.AtDispatch = false := by
  intro d hd
  obtain ⟨block, -, hblock⟩ := List.mem_filterMap.1 hd
  cases block <;> simp at hblock
  subst hblock
  rfl

/-- **Turn by turn.** -/
theorem turn (hturn : FrontendTurn A s input t) : Adds A s t input := by
  have hsame : ∀ {α : Type} {as bs : List α}, as = bs → as ⊆ bs := by
    rintro α as bs rfl
    exact List.Subset.refl _
  cases hturn with
  | idle => exact quiet (List.append_nil _).symm (by simp) (hsame rfl) (hsame rfl)
  | replied hi hsaying =>
    exact handled hi rfl rfl (by simp [Deed.AtDispatch]) (fun _ => .inl) fun _ => .inl
  | changed hi hok =>
    exact handled hi rfl rfl (by simp [Deed.AtDispatch]) (fun _ => .inl) fun _ => .inl
  | @launched event o i hi target spec onSignArtifact hok op early hlaunched hfresh =>
    have hlog : ∀ (u : FrontendState V) (out : List Block × Operation) (d d' : Deed),
        (((u.did [d]).emitted op out).did [d']).log = u.log ++ (d :: emittedDeeds op out.1 ++ [d']) :=
      fun u out d d' => by simp [FrontendState.emitted, FrontendState.did]
    refine handled hi rfl (hlog _ _ _ _) (fun d hd hat => ?_) (fun _ => .inl) fun _ => .inl
    rcases List.mem_append.1 hd with hd | hd
    · rcases List.mem_cons.1 hd with rfl | hd
      · exact .launched hok hlaunched
      · rw [atDispatch_emittedDeeds d hd] at hat
        cases hat
    · rw [List.mem_singleton] at hd
      subst hd
      cases hat
  | asked hi hok hcopy hfree =>
    refine handled hi rfl rfl (by simp [Deed.AtDispatch]) (fun _ => .inl) fun ask hask => ?_
    rcases List.mem_append.1 hask with hask | hask
    · exact .inl hask
    · rw [List.mem_singleton] at hask
      subst hask
      exact .inr ⟨rfl, rfl, rfl⟩
  | brokered hi hok =>
    refine handled hi rfl rfl (by simp [Deed.AtDispatch]) (fun call hcall => ?_) fun _ => .inl
    rcases List.mem_append.1 hcall with hcall | hcall
    · exact .inl hcall
    · rw [List.mem_singleton] at hcall
      subst hcall
      exact .inr ⟨rfl, rfl, rfl, hok⟩
  | answer hask =>
    exact quiet rfl (by simp [Deed.AtDispatch]) (hsame rfl) (List.eraseIdx_sublist _ _).subset
  | broker hcall =>
    exact quiet (List.append_nil _).symm (by simp) (List.eraseIdx_sublist _ _).subset (hsame rfl)
  | emit hx e anonFdFromBytes => exact quiet rfl atDispatch_emittedDeeds (hsame rfl) (hsame rfl)
  | due hop => exact quiet (List.append_nil _).symm (by simp) (hsame rfl) (hsame rfl)
  | dropped hposted hwhy =>
    exact quiet (List.append_nil _).symm (by simp) (hsame rfl) (hsame rfl)
  | destroy => exact quiet (List.append_nil _).symm (by simp) (hsame rfl) (hsame rfl)
  | _ => exact quiet rfl (by simp [Deed.AtDispatch]) (hsame rfl) (hsame rfl)

end Adds

/-! ## A step of the loop -/

/-- **A step that dispatches a request.** The frontend as the handler finds
it is `u`: the transport has made its step, and nothing else has
happened. -/
structure Dispatches (A : Agent V Trust) (s t : FrontendState V) (input : FrontendInput)
    (o : Outside) (u : FrontendState V) (i : Inbound) : Prop where
  loop : ∃ event, input = .loop event o ∧
    ∃ t', s.transport.step A.wire event = some t' ∧ u = s.absorb t'
  arrives : Arrives u i
  requests : t.requests = s.requests ++ [i]

theorem Dispatches.number {input : FrontendInput} {i : Inbound}
    (h : Dispatches A s t input o u i) : u.requests.length = s.requests.length := by
  obtain ⟨event, -, t', -, rfl⟩ := h.loop
  rfl

/-- The request has the number it was handled under. -/
theorem Dispatches.request {input : FrontendInput} {i : Inbound}
    (h : Dispatches A s t input o u i) : t.requests[u.requests.length]? = some i := by
  rw [h.number, h.requests]
  exact List.getElem?_concat_length

/-- **What a step adds, a dispatch adds.** -/
structure Answers (A : Agent V Trust) (s t : FrontendState V) (input : FrontendInput) : Prop where
  deeds : ∀ d ∈ t.log, d.AtDispatch = true → d ∈ s.log ∨
    ∃ o u i, Dispatches A s t input o u i ∧ d.Served A o u i
  calls : ∀ call ∈ t.brokerCalls, call ∈ s.brokerCalls ∨
    ∃ o u i, Dispatches A s t input o u i ∧ call.Served A o u i
  asks : ∀ ask ∈ t.asks, ask ∈ s.asks ∨
    ∃ o u i, Dispatches A s t input o u i ∧ ask.Served o u i

theorem served_step (hs : (frontend A).Reachable s) {input : FrontendInput}
    (h : s.step A input = some t) : Answers A s t input := by
  have htransport := reachable_transport hs
  by_cases hloop : ∃ event o, input = .loop event o
  · obtain ⟨event, o, rfl⟩ := hloop
    obtain ⟨-, hfresh, t', ht', rfl | ⟨x, hx, rfl⟩⟩ := loop_cases htransport h
    · exact ⟨fun d hd _ => .inl hd, fun call hcall => .inl hcall, fun ask hask => .inl hask⟩
    · obtain ⟨s', hturn, hends⟩ := dispatch_turn (A := A) (o := o) hx hfresh event
      have hadds := Adds.turn hturn
      -- what the turn tells of its dispatch, the step has
      have hat : ∀ {P : Outside → FrontendState V → Inbound → Prop},
          (∃ event' o' i, FrontendInput.loop event o = .loop event' o' ∧
            Arrives (s.absorb t') i ∧ s'.requests = (s.absorb t').requests ++ [i] ∧
              P o' (s.absorb t') i) →
          ∃ o' u i, Dispatches A s ((s.absorb t').dispatch A o x) (.loop event o) o' u i ∧
            P o' u i := by
        rintro P ⟨event', o', i, heq, hi, hrequests, hserved⟩
        obtain ⟨rfl, rfl⟩ := FrontendInput.loop.inj heq
        exact ⟨o, _, i, ⟨⟨event, rfl, t', ht', rfl⟩, hi, hends.moved.requests.trans hrequests⟩,
          hserved⟩
      refine ⟨fun d hd hdispatch => ?_, fun call hcall => ?_, fun ask hask => ?_⟩
      · rw [hends.moved.log] at hd
        exact (hadds.deeds d hd hdispatch).imp_right (hat (P := fun o u i => d.Served A o u i))
      · rw [hends.moved.brokerCalls] at hcall
        exact (hadds.calls call hcall).imp_right (hat (P := fun o u i => call.Served A o u i))
      · rw [hends.moved.asks] at hask
        exact (hadds.asks ask hask).imp_right (hat (P := fun o u i => ask.Served o u i))
  · -- no other input dispatches
    obtain ⟨s₀, s', hbefore, -, hturn, hends⟩ := step_turn htransport h
    have hadds := Adds.turn hturn
    have hnone : ∀ {P : Outside → Inbound → Prop},
        ¬ ∃ event o i, input = .loop event o ∧ Arrives s₀ i ∧ s'.requests = s₀.requests ++ [i] ∧
          P o i := by
      rintro P ⟨event, o, i, heq, -⟩
      exact hloop ⟨event, o, heq⟩
    refine ⟨fun d hd hdispatch => .inl ?_, fun call hcall => .inl ?_, fun ask hask => .inl ?_⟩
    · rw [hends.moved.log] at hd
      rw [← hbefore.log]
      exact (hadds.deeds d hd hdispatch).resolve_right (hnone (P := fun o i => d.Served A o s₀ i))
    · rw [hends.moved.brokerCalls] at hcall
      rw [← hbefore.brokerCalls]
      exact (hadds.calls call hcall).resolve_right (hnone (P := fun o i => call.Served A o s₀ i))
    · rw [hends.moved.asks] at hask
      rw [← hbefore.asks]
      exact (hadds.asks ask hask).resolve_right (hnone (P := fun o i => ask.Served o s₀ i))

/-! ## The dispatch in a run -/

/-- **A dispatch in a run**, by the last step of its part `upto`. -/
def DispatchedIn (A : Agent V Trust) (s₀ : FrontendState V) (is upto : List FrontendInput)
    (n : ℕ) (o : Outside) (u : FrontendState V) (i : Inbound) : Prop :=
  upto <+: is ∧ ∃ before event v t', upto = before ++ [.loop event o] ∧
    (frontend A).run s₀ before = some v ∧ v.transport.step A.wire event = some t' ∧
    u = v.absorb t' ∧ Arrives u i ∧ u.requests.length = n

/-- A longer run has it too. -/
theorem DispatchedIn.snoc {s₀ : FrontendState V} {is upto : List FrontendInput} {n : ℕ}
    {i : Inbound} (h : DispatchedIn A s₀ is upto n o u i) (input : FrontendInput) :
    DispatchedIn A s₀ (is ++ [input]) upto n o u i :=
  ⟨h.1.trans (List.prefix_append _ _), h.2⟩

theorem DispatchedIn.number {s₀ : FrontendState V} {is upto : List FrontendInput} {n : ℕ}
    {i : Inbound} (h : DispatchedIn A s₀ is upto n o u i) : u.requests.length = n := by
  obtain ⟨-, before, event, v, t', -, -, -, -, -, hlength⟩ := h
  exact hlength

end Frontend

end LibreDarwin
