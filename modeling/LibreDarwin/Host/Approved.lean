import LibreDarwin.Frontend.Asked
import LibreDarwin.Frontend.Confirm
import LibreDarwin.Host.Dialogs

/-!
# Trust changes are the device owner's

A change of what is trusted is made for a request of a client, by way of a
question, a call, a connection, a dialog and an answer, all the way there
and back. No two of these paths meet, so what the device owner approved is
what is done, and it is done once.
-/

namespace LibreDarwin

namespace Host

open Frontend Wire
open Prompter (AgentLibrary ClientCall Evaluation Exchange ExchangeInput Line Outcome Peer.Name Mark)

variable {V Trust : Type*} {A : Agent V Trust} {L : AgentLibrary} {s₀ s t : HostState V}
variable {is : List HostInput}

/-- **A question as it comes up** in a run: when the loop comes to its
request, with the label the caller has then. -/
def Raised (A : Agent V Trust) (L : AgentLibrary) (s₀ : HostState V) (is : List HostInput)
    (requests : List Inbound) (n : ℕ) (action : Frontend.ConfirmAction) : Prop :=
  ∃ before event o after u, is = before ++ .frontend (.loop event o) :: after ∧
    (host A L).run s₀ before = some u ∧ u.frontend.requests.length = n ∧
    RaisedAt o requests n action

theorem Raised.mono {requests requests' : List Inbound} {n : ℕ} {action : Frontend.ConfirmAction}
    (h : Raised A L s₀ is requests n action) (i : HostInput) (hpre : requests <+: requests') :
    Raised A L s₀ (is ++ [i]) requests' n action := by
  obtain ⟨before, event, o, after, u, rfl, hrun, hlength, hraised⟩ := h
  exact ⟨before, event, o, after ++ [i], u, by simp, hrun, hlength, hraised.mono hpre⟩

namespace HostState

/-- The worker of a question has a yes, from a call that is over. -/
def Answered (L : AgentLibrary) (s : HostState V) (n : ℕ) : Prop :=
  ∃ k line met, (n, k) ∈ s.calls ∧ s.exchange.lines[k]? = some line ∧ line.met = some met ∧
    outcomeVerdict (line.call.run L met) = .ok

/-- **What the three keep**, over a run. -/
structure Kept (A : Agent V Trust) (L : AgentLibrary) (s₀ : HostState V) (is : List HostInput)
    (s : HostState V) : Prop where
  frontend : (Frontend.frontend A).Reachable s.frontend
  exchange : (Prompter.exchange L).Reachable s.exchange
  askers : (s.calls.map Prod.fst).Nodup
  placed : (s.calls.map Prod.snd).Nodup
  put : ∀ n k, (n, k) ∈ s.calls → ∃ line action, s.exchange.lines[k]? = some line ∧
    line.call = .requestConfirmation (wireAction action) ∧
      Raised A L s₀ is s.frontend.requests n action
  asks : ∀ ask ∈ s.frontend.asks, Raised A L s₀ is s.frontend.requests ask.n ask.action
  returned : s.dialogs.map (fun d => (Peer.Name.conn d.conn,
    Prompter.confirmWithDeviceOwner d.evaluation)) = s.exchange.prompter.server.confirmed
  called : ∀ d ∈ s.dialogs,
    (Peer.Name.conn d.conn, Mark.called (.confirmProvider d.action)) ∈
      s.exchange.prompter.server.trace
  once : (s.dialogs.map Dialog.conn).Nodup
  answered : ∀ n, .answered n .ok ∈ s.frontend.log → s.Answered L n

theorem Kept.init (store : V) : Kept A L (.start store) [] (.start store) where
  frontend := .of_init ⟨store, rfl⟩
  exchange := .of_init rfl
  askers := List.nodup_nil
  placed := List.nodup_nil
  put := by rintro n k ⟨⟩
  asks := by rintro ask ⟨⟩
  returned := rfl
  called := by rintro d ⟨⟩
  once := List.nodup_nil
  answered := by rintro n ⟨⟩

namespace Kept

/-- The frontend takes a step. A yes it hears is one its worker has. -/
theorem frontendStep (hk : Kept A L s₀ is s) (hrun : (host A L).run s₀ is = some s)
    {i : HostInput} {j : FrontendInput} {f : FrontendState V} (h : s.frontend.step A j = some f)
    (hloop : ∀ event o, j = .loop event o → i = .frontend j)
    (hanswer : ∀ idx ask, j = .answer idx .ok → s.frontend.asks[idx]? = some ask →
      s.Answered L ask.n) :
    Kept A L s₀ (is ++ [i]) { s with frontend := f } := by
  have hhears := hears_step hk.frontend h
  refine ⟨hk.frontend.step h, hk.exchange, hk.askers, hk.placed, fun n k hmem => ?_,
    fun ask hask => ?_, hk.returned, hk.called, hk.once, fun n hmem => ?_⟩
  · obtain ⟨line, action, hline, hcall, hraised⟩ := hk.put n k hmem
    exact ⟨line, action, hline, hcall, hraised.mono i hhears.requests⟩
  · rcases hhears.asks ask hask with hold | ⟨event, o, rfl, hn, hraised⟩
    · exact (hk.asks ask hold).mono i hhears.requests
    · obtain rfl := hloop event o rfl
      exact ⟨is, event, o, [], s, rfl, hrun, hn.symm, hraised⟩
  · rcases hhears.answered n .ok hmem with hold | ⟨idx, ask, rfl, hask, rfl⟩
    · exact hk.answered n hold
    · exact hanswer idx ask rfl hask

/-- The exchange takes a step: what there is of calls stays. -/
theorem exchangeStep (hk : Kept A L s₀ is s) {i : HostInput} {j : ExchangeInput} {e : Exchange}
    (h : s.exchange.step L j = some e) {calls : List (ℕ × ℕ)} {dialogs : List Dialog}
    (hcalls : s.calls <+: calls) (haskers : (calls.map Prod.fst).Nodup)
    (hplaced : (calls.map Prod.snd).Nodup)
    (hput : ∀ n k, (n, k) ∈ calls → (n, k) ∈ s.calls ∨ ∃ line action, e.lines[k]? = some line ∧
      line.call = .requestConfirmation (wireAction action) ∧
        Raised A L s₀ is s.frontend.requests n action)
    (hreturned : dialogs.map (fun d => (Peer.Name.conn d.conn,
      Prompter.confirmWithDeviceOwner d.evaluation)) = e.prompter.server.confirmed)
    (hcalled : ∀ d ∈ dialogs, (Peer.Name.conn d.conn, Mark.called (.confirmProvider d.action)) ∈
      e.prompter.server.trace)
    (honce : (dialogs.map Dialog.conn).Nodup) :
    Kept A L s₀ (is ++ [i]) { s with exchange := e, calls := calls, dialogs := dialogs } := by
  have hlater := Exchange.later_step (Prompter.exchange_kept hk.exchange) h
  refine ⟨hk.frontend, hk.exchange.step h, haskers, hplaced, fun n k hmem => ?_,
    fun ask hask => (hk.asks ask hask).mono i List.prefix_rfl, hreturned, hcalled, honce,
    fun n hmem => ?_⟩
  · rcases hput n k hmem with hold | ⟨line, action, hline, hcall, hraised⟩
    · obtain ⟨line, action, hline, hcall, hraised⟩ := hk.put n k hold
      obtain ⟨line', hline', -, hcall', -⟩ := hlater.line hline
      exact ⟨line', action, hline', hcall'.trans hcall, hraised.mono i List.prefix_rfl⟩
    · exact ⟨line, action, hline, hcall, hraised.mono i List.prefix_rfl⟩
  · obtain ⟨k, line, met, hmem, hline, hmet, hok⟩ := hk.answered n hmem
    obtain ⟨line', hline', -, -, hsame⟩ := hlater.line hline
    obtain rfl := hsame (by rw [hmet]; rfl)
    exact ⟨k, line', met, hcalls.subset hmem, hline', hmet, hok⟩

/-- The worker of a question connects. -/
theorem confirm (hk : Kept A L s₀ is s) {idx : ℕ} {authorized : Bool}
    (h : s.confirm L idx authorized = some t) :
    Kept A L s₀ (is ++ [.confirm idx authorized]) t := by
  rw [HostState.confirm] at h
  split at h
  · cases h
  rename_i ask hask
  split at h
  · cases h
  rename_i hnew
  obtain ⟨e, hstep, rfl⟩ := Option.map_eq_some_iff.1 h
  have hlast : ∃ line, e.lines[s.exchange.lines.length]? = some line ∧
      line.call = .requestConfirmation (wireAction ask.action) := by
    obtain ⟨p, -, rfl⟩ := Option.map_eq_some_iff.1 hstep
    exact ⟨_, List.getElem?_concat_length, rfl⟩
  have hfar : s.exchange.lines.length ∉ s.calls.map Prod.snd := by
    intro hmem
    obtain ⟨⟨n, k⟩, hnk, rfl⟩ := List.mem_map.1 hmem
    obtain ⟨line, action, hline, -⟩ := hk.put n _ hnk
    exact absurd (List.getElem?_eq_some_iff.1 hline).1 (lt_irrefl _)
  refine hk.exchangeStep hstep (List.prefix_append _ _) ?_ ?_ (fun n k hmem => ?_) ?_ ?_ hk.once
  · rw [List.map_append]
    exact List.nodup_append_comm.1 (List.nodup_cons.2 ⟨hnew, hk.askers⟩)
  · rw [List.map_append]
    exact List.nodup_append_comm.1 (List.nodup_cons.2 ⟨hfar, hk.placed⟩)
  · rcases List.mem_append.1 hmem with hold | hmem
    · exact .inl hold
    · obtain ⟨rfl, rfl⟩ := Prod.mk.inj (List.mem_singleton.1 hmem)
      obtain ⟨line, hline, hcall⟩ := hlast
      exact .inr ⟨line, ask.action, hline, hcall, hk.asks ask (List.mem_of_getElem? hask)⟩
  · rw [Exchange.confirmed_step hstep (by simp)]
    exact hk.returned
  · have hlater := Exchange.later_step (Prompter.exchange_kept hk.exchange) hstep
    exact fun d hd => hlater.trace.subset (hk.called d hd)

/-- The device owner is done with a dialog. -/
theorem owner (hk : Kept A L s₀ is s) {j : ℕ} {evaluation : Evaluation}
    (h : s.owner L j evaluation = some t) : Kept A L s₀ (is ++ [.owner j evaluation]) t := by
  rw [HostState.owner] at h
  split at h
  swap
  · cases h
  rename_i conn action called hj
  obtain ⟨e, hstep, rfl⟩ := Option.map_eq_some_iff.1 h
  have hserved := (Prompter.exchange_kept hk.exchange).prompter.served
  have hlater := Exchange.later_step (Prompter.exchange_kept hk.exchange) hstep
  have hserver : s.exchange.prompter.server.providerReturns j
      (.confirm (Prompter.confirmWithDeviceOwner evaluation)) = some e.prompter.server := by
    rw [Exchange.step, Exchange.stepPrompter] at hstep
    split at hstep
    · obtain ⟨p, hp, rfl⟩ := Option.map_eq_some_iff.1 hstep
      exact (Prompter.System.step_server hp).2 _ rfl
    · cases hstep
  obtain ⟨c, call, hj', htrace⟩ := Prompter.Server.trace_providerReturns hserver
  obtain ⟨rfl, hcall, rfl⟩ := Prompter.Block.mk.inj (Option.some.inj (hj.symm.trans hj'))
  obtain rfl := Prompter.Task.call.inj hcall
  obtain ⟨hasked, hnone⟩ := hserved.running hj'
  refine hk.exchangeStep hstep List.prefix_rfl hk.askers hk.placed (fun n k hmem => .inl hmem)
    ?_ (fun d hd => ?_) ?_
  · rw [List.map_append, hk.returned, Prompter.Server.confirmed, Prompter.Server.confirmed, htrace,
      List.filterMap_append]
    rfl
  · rcases List.mem_append.1 hd with hold | hd
    · exact hlater.trace.subset (hk.called d hold)
    · obtain rfl := List.mem_singleton.1 hd
      exact hlater.trace.subset hasked
  · rw [List.map_append]
    refine List.nodup_append_comm.1 (List.nodup_cons.2 ⟨fun hmem => ?_, hk.once⟩)
    -- a dialog of this connection has returned already
    obtain ⟨d, hd, hconn⟩ := List.mem_map.1 hmem
    have hreturned : (Peer.Name.conn d.conn, Prompter.confirmWithDeviceOwner d.evaluation) ∈
        s.exchange.prompter.server.confirmed := by
      rw [← hk.returned]
      exact List.mem_map_of_mem hd
    rw [hconn] at hreturned
    exact hnone _ (Prompter.Server.mem_confirmed.1 hreturned)

/-- **The step lemma.** -/
theorem step (hk : Kept A L s₀ is s) (hrun : (host A L).run s₀ is = some s) {i : HostInput}
    (h : s.step A L i = some t) : Kept A L s₀ (is ++ [i]) t := by
  cases i with
  | frontend j =>
    rw [HostState.step] at h
    split at h
    swap
    · cases h
    rename_i hown
    obtain ⟨f, hstep, rfl⟩ := Option.map_eq_some_iff.1 h
    refine hk.frontendStep hrun hstep (fun _ _ _ => rfl) ?_
    rintro idx ask rfl
    cases hown
  | exchange j =>
    rw [HostState.step] at h
    split at h
    swap
    · cases h
    rename_i hown
    obtain ⟨e, hstep, rfl⟩ := Option.map_eq_some_iff.1 h
    have hlater := Exchange.later_step (Prompter.exchange_kept hk.exchange) hstep
    refine hk.exchangeStep hstep List.prefix_rfl hk.askers hk.placed (fun n k hmem => .inl hmem)
      ?_ (fun d hd => hlater.trace.subset (hk.called d hd)) hk.once
    rw [Exchange.confirmed_step hstep (by rintro k r rfl; cases hown)]
    exact hk.returned
  | confirm idx authorized => exact hk.confirm h
  | unreachable idx peer =>
    rw [HostState.step, HostState.unreachable] at h
    split at h
    · cases h
    rename_i ask hask
    split at h
    · cases h
    rename_i hgone
    obtain ⟨f, hstep, rfl⟩ := Option.map_eq_some_iff.1 h
    rw [not_or, Bool.not_eq_true] at hgone
    refine hk.frontendStep hrun hstep (by rintro event o ⟨⟩) fun idx' ask' heq => ?_
    -- nobody answered, and that is no yes
    have hno : verdict (Prompter.requestConfirmation L peer (wireAction ask.action)).1.status =
        .ok := (FrontendInput.answer.inj heq).2
    simp [Prompter.requestConfirmation, hgone.2, Prompter.refuse, verdict] at hno
  | answer idx =>
    rw [HostState.step, HostState.answer] at h
    split at h
    · cases h
    rename_i ask hask
    split at h
    · cases h
    rename_i k hcall
    split at h
    swap
    · cases h
    rename_i peer call sent met hline
    obtain ⟨f, hstep, rfl⟩ := Option.map_eq_some_iff.1 h
    refine hk.frontendStep hrun hstep (by rintro event o ⟨⟩) fun idx' ask' heq hask' => ?_
    obtain ⟨rfl, hok⟩ := FrontendInput.answer.inj heq
    obtain rfl := Option.some.inj (hask.symm.trans hask')
    obtain ⟨before, after, hcalls, -⟩ := List.lookup_eq_some_iff.1 hcall
    exact ⟨k, _, met, hcalls ▸ List.mem_append_right _ List.mem_cons_self, hline, rfl, hok⟩
  | owner j evaluation => exact hk.owner h

end Kept

end HostState

/-- **What a run of the three has kept.** -/
theorem host_kept {store : V} (h : (host A L).run (.start store) is = some s) :
    HostState.Kept A L (.start store) is s := by
  suffices hboth : (host A L).run (.start store) is = some s ∧
    HostState.Kept A L (.start store) is s from hboth.2
  refine Machine.run_history (I := fun s is => (host A L).run (.start store) is = some s ∧
    HostState.Kept A L (.start store) is s) ⟨rfl, .init store⟩ ?_ h
  rintro t is i t' ⟨hrun, hk⟩ hstep
  exact ⟨Machine.run_snoc_eq_some.2 ⟨t, hrun, hstep⟩, hk.step hrun hstep⟩

/-! ## From the change back to the dialog -/

/-- What is written in the exchange is read as it was written. -/
structure Reads (L : AgentLibrary) (s : Exchange) : Prop where
  asked : ∀ line ∈ s.lines, L.decode (line.call.body L) =
    some (Prompter.toCbor ((line.call.message L).fields L))
  replied : ∀ line ∈ s.lines, ∀ reply ∈ s.prompter.repliesTo line.peer,
    L.decode (reply.body L) = some (Prompter.toCbor (reply.fields L))

/-- A dialog was raised for the question of a request. -/
def HostState.RaisedFor (s : HostState V) (n : ℕ) (d : Dialog) : Prop :=
  ∃ k line, (n, k) ∈ s.calls ∧ s.exchange.lines[k]? = some line ∧ line.peer = .conn d.conn

/-- **What a dialog tells the device owner**: the sentence of this effect's
change, in the catalogue's words where there are any, and who is asking,
by the label its client had when the loop came to the request. -/
def TellsOf (A : Agent V Trust) (L : AgentLibrary) (s₀ : HostState V) (is : List HostInput)
    (requests : List Inbound) (n : ℕ) (e : Effect) (d : Dialog) : Prop :=
  ∃ before event o after u i x copy, is = before ++ .frontend (.loop event o) :: after ∧
    (host A L).run s₀ before = some u ∧ u.frontend.requests.length = n ∧
    requests[n]? = some i ∧ i.change? = some x ∧ describeTrustChange e.key x.what = some copy ∧
    ∀ F, Prompter.localizedReason F d.action = Prompter.localized F copy.key copy.text ++
      0x20 :: Prompter.attribution F (o.requesterLabel i.caller)

namespace HostState.Kept

/-- **A yes is the device owner's**, on a dialog of its own question. -/
theorem approved (hk : Kept A L s₀ is s) (hL : L.Agrees) (hreads : Reads L s.exchange) {n : ℕ}
    (h : s.Answered L n) : ∃ d ∈ s.dialogs, d.evaluation = .success ∧ s.RaisedFor n d ∧
      ∃ action, d.action = wireAction action ∧
        Raised A L s₀ is s.frontend.requests n action := by
  obtain ⟨k, line, met, hmem, hline, hmet, hok⟩ := h
  obtain ⟨line', action, hline', hcall, hraised⟩ := hk.put n k hmem
  obtain rfl := Option.some.inj (hline.symm.trans hline')
  have hin : line ∈ s.exchange.lines := List.mem_of_getElem? hline
  have hek := Prompter.exchange_kept hk.exchange
  obtain ⟨rs, hshown⟩ := Prompter.exchange_shown hk.exchange
  have hgives : s.exchange.prompter.Gives L line.peer line.call (line.call.run L met) := by
    refine hek.gives hshown hL hin hmet (hreads.asked line hin) (hreads.replied line hin) ?_
    by_contra hno
    -- a call that heard nothing has no yes
    have hvoid := hek.void hin hmet hno
    rw [hcall] at hvoid hok
    simp only [ClientCall.run, outcomeVerdict, Outcome.Void] at hvoid hok
    cases hstatus : (Prompter.requestConfirmation L met.toPeer (wireAction action)).1.status <;>
      simp [hstatus, verdict] at hvoid hok
  generalize line.call.run L met = outcome at hgives hok
  rw [hcall] at hgives
  have hserved := hek.prompter.served
  cases hpeer : line.peer with
  | refused m =>
    rw [hpeer] at hgives
    cases hgives with
    | rejected => simp [ClientCall.rejected, outcomeVerdict, verdict] at hok
  | conn c =>
    rw [hpeer] at hgives
    cases hgives with
    | secret hsecret => cases hsecret
    | unconfirmed hkind => simp [outcomeVerdict, Prompter.unsupportedConfirmation, verdict] at hok
    | @confirmed _ _ r hkind hcalled hreturned =>
      have hmem' := Prompter.Server.mem_confirmed.2 hreturned
      rw [← hk.returned] at hmem'
      obtain ⟨d, hd, heq⟩ := List.mem_map.1 hmem'
      obtain ⟨hconn, rfl⟩ := Prod.mk.inj heq
      obtain rfl := Peer.Name.conn.inj hconn
      have haction := hserved.one_call (hk.called d hd) hcalled
      refine ⟨d, hd, ?_, ⟨k, line, hmem, hline, hpeer⟩, action, ?_, hraised⟩
      · cases hevaluation : d.evaluation with
        | success => rfl
        | unavailable description =>
          simp [outcomeVerdict, hevaluation, Prompter.confirmWithDeviceOwner, verdict] at hok
        | failure code description =>
          by_cases hcode : code = Prompter.kUserCancel <;>
            simp [outcomeVerdict, hevaluation, Prompter.confirmWithDeviceOwner, hcode, verdict]
              at hok
      · exact Prompter.Call.confirmProvider.inj haction

/-- A dialog is one question's. -/
theorem raisedFor_inj (hk : Kept A L s₀ is s) {d : Dialog} {n n' : ℕ} (h : s.RaisedFor n d)
    (h' : s.RaisedFor n' d) : n = n' := by
  obtain ⟨k, line, hmem, hline, hpeer⟩ := h
  obtain ⟨k', line', hmem', hline', hpeer'⟩ := h'
  have honce := (Prompter.exchange_kept hk.exchange).once
  have hsame : k = k' := by
    have hlt : k < (s.exchange.lines.map Line.peer).length := by
      simpa using (List.getElem?_eq_some_iff.1 hline).1
    refine (List.getElem?_inj hlt honce).1 ?_
    simp [hline, hline', hpeer, hpeer']
  subst hsame
  exact (Prod.mk.inj (List.inj_on_of_nodup_map hk.placed hmem hmem' rfl)).1

/-- And a question has one dialog. -/
theorem eq_of_raisedFor (hk : Kept A L s₀ is s) {d d' : Dialog} {n : ℕ} (hd : d ∈ s.dialogs)
    (hd' : d' ∈ s.dialogs) (h : s.RaisedFor n d) (h' : s.RaisedFor n d') : d = d' := by
  obtain ⟨k, line, hmem, hline, hpeer⟩ := h
  obtain ⟨k', line', hmem', hline', hpeer'⟩ := h'
  obtain ⟨-, rfl⟩ := Prod.mk.inj (List.inj_on_of_nodup_map hk.askers hmem hmem' rfl)
  obtain rfl := Option.some.inj (hline.symm.trans hline')
  exact List.inj_on_of_nodup_map hk.once hd hd' (Peer.Name.conn.inj (hpeer.symm.trans hpeer'))

end HostState.Kept

/-- **A trust change is one the device owner approved**, on a dialog that
told of it; no dialog answers for two requests, and no request has two. -/
theorem trust_is_the_owners (hC : A.core.Lawful) (hL : L.Agrees) {store : V}
    (h : (host A L).run (.start store) is = some s) (hreads : Reads L s.exchange) :
    (∀ before n connId req confirmed effects after,
      s.frontend.log = before ++ .applied n connId req confirmed effects :: after →
      ∀ e ∈ effects, e.IsTrust A.core → ∃ d ∈ s.dialogs, d.evaluation = .success ∧
        s.RaisedFor n d ∧ TellsOf A L (.start store) is s.frontend.requests n e d) ∧
    (∀ d ∈ s.dialogs, ∀ n n', s.RaisedFor n d → s.RaisedFor n' d → n = n') ∧
    ∀ d ∈ s.dialogs, ∀ d' ∈ s.dialogs, ∀ n, s.RaisedFor n d → s.RaisedFor n d' → d = d' := by
  have hk := host_kept h
  refine ⟨fun before n connId req confirmed effects after hlog e he htrust => ?_,
    fun d _ n n' => hk.raisedFor_inj, fun d hd d' hd' n => hk.eq_of_raisedFor hd hd'⟩
  have hlives := closed_lives.reachable hk.frontend
  obtain ⟨hconfirmed, hbefore⟩ := (confirmedBy_of_lives hC hlives hlog).person e he htrust
  have hyes : .answered n .ok ∈ s.frontend.log := by
    rw [hlog]
    exact List.mem_append_left _ (hbefore.subset (by simp))
  obtain ⟨d, hd, hsuccess, hfor, action, haction, before', event, o, after', u, his, hrun, hlength,
    i, x, copy, hi, hx, hcopy, rfl⟩ := hk.approved hL hreads (hk.answered n hyes)
  -- the effect is about the key of the request's own change
  obtain ⟨i', φ, φ', hi', -, hstep, -⟩ := Ledger.Kept.step_at hlives hlog rfl
  obtain ⟨-, -, -, ⟨x', hx', hdoes⟩, -⟩ := next_applied.1 (life_step.1 hstep).2
  obtain rfl := Option.some.inj (hi.symm.trans hi')
  obtain rfl := Option.some.inj (hx.symm.trans hx')
  have hkey : e.key = x.key := hdoes.effects.1 e he
  refine ⟨d, hd, hsuccess, hfor, before', event, o, after', u, i, x, copy, his, hrun, hlength, hi,
    hx, hkey ▸ hcopy, fun F => ?_⟩
  rw [haction]
  rfl

/-! ## A change and its dialog -/

/-- What the client of the run asks for, as its worker puts it. -/
def asksTsa : ClientCall :=
  .requestConfirmation (wireAction (confirmAction
    ⟨"prompter_trust_tsa", "Change the timestamping authorities this computer will use."⟩
    "client" "TsaUrls"))

/-- What the call meets, once the device owner has approved. -/
def metApproval : Prompter.ResetPeer :=
  Prompter.metReply (.confirm (Prompter.confirmWithDeviceOwner .success))

/-- A client asks for a trust change, the device owner approves it, and
the loop comes to the answer. -/
def ownerApproves : List HostInput :=
  ([connects] ++ sendsRequest 1 [2, 7] [] quietOutside).map .frontend ++
    [.confirm 0 true, .exchange (.send 0),
      .exchange (.prompter (.serial (.readReady 1 [asksTsa.body Prompter.plainLibrary] true))),
      .exchange (.prompter (.runBlock 0)), .owner 0 .success, .exchange (.returns 0 metApproval),
      .answer 0, .frontend (.run quietOutside)]

/-- The change of the run. -/
def Deed.isTheChange : Deed → Bool
  | .applied 0 1 7 true [.set (.setTsaUrls [])] => true
  | _ => false

theorem trust_is_the_owners_run :
    ∃ s, (host plainAgent Prompter.plainLibrary).run (.start 0) ownerApproves = some s ∧
      ∃ d ∈ s.dialogs, d.evaluation = .success ∧ s.RaisedFor 0 d := by
  have hrun : ((host plainAgent Prompter.plainLibrary).run (.start 0) ownerApproves).any (fun s =>
      s.frontend.log.any Deed.isTheChange ∧
        s.exchange.lines = [⟨.conn 1, asksTsa, true, some metApproval⟩] ∧
        s.exchange.prompter.repliesTo (.conn 1) =
          [.confirm (Prompter.confirmWithDeviceOwner .success)]) = true := by
    decide +kernel
  obtain ⟨s, hs, hend⟩ := (Option.any_eq_true _ _).1 hrun
  obtain ⟨hlog, hlines, hreplies⟩ := of_decide_eq_true hend
  refine ⟨s, hs, ?_⟩
  obtain ⟨deed, hdeed, hchange⟩ := List.any_eq_true.1 hlog
  have hreads : Reads Prompter.plainLibrary s.exchange := by
    refine ⟨fun line hline => ?_, fun line hline reply hmem => ?_⟩
    · rw [hlines, List.mem_singleton] at hline
      subst hline
      decide +kernel
    · rw [hlines, List.mem_singleton] at hline
      subst hline
      rw [hreplies, List.mem_singleton] at hmem
      subst hmem
      decide +kernel
  obtain rfl : deed = .applied 0 1 7 true [.set (.setTsaUrls [])] := by
    unfold Deed.isTheChange at hchange
    split at hchange
    · rfl
    · cases hchange
  obtain ⟨before, after, hsplit⟩ := List.append_of_mem hdeed
  obtain ⟨d, hd, hsuccess, hfor, -⟩ := (trust_is_the_owners plainCore_lawful
    Prompter.plainLibrary_agrees hs hreads).1 _ _ _ _ _ _ _ hsplit _ List.mem_cons_self trivial
  exact ⟨d, hd, hsuccess, hfor⟩

end Host

end LibreDarwin
