import LibreDarwin.Host.Model.Host
import LibreDarwin.Prompter.Heard

/-!
# The dialogs and their calls

A dialog belongs to the connection it was raised on: the one call of a
handler there asks what it asks, and what comes of it is the one return
there. A call of the client's, once made, stays with its connection.
-/

namespace LibreDarwin

namespace Prompter

open Wire

variable {L : AgentLibrary}

namespace Server

variable {s s' : Server}

/-- The returns of the device owner's confirmations, in order. -/
def confirmed (s : Server) : List (Peer.Name × ConfirmReply) :=
  s.trace.filterMap fun
    | (peer, .returned (.confirm r)) => some (peer, r)
    | _ => none

theorem mem_confirmed {peer : Peer.Name} {r : ConfirmReply} :
    (peer, r) ∈ s.confirmed ↔ (peer, .returned (.confirm r)) ∈ s.trace := by
  rw [confirmed, List.mem_filterMap]
  constructor
  · rintro ⟨⟨peer', m⟩, hmem, hsome⟩
    cases m with
    | returned result =>
      cases result with
      | confirm r' =>
        obtain ⟨rfl, rfl⟩ := Prod.mk.inj (Option.some.inj hsome)
        exact hmem
      | _ => cases hsome
    | _ => cases hsome
  · exact fun hmem => ⟨_, hmem, rfl⟩

/-- **A connection's handler is called once.** -/
theorem Served.one_call {c : ConnId} {call call' : Call} (hs : s.Served L)
    (h : (Peer.Name.conn c, Mark.called call) ∈ s.trace)
    (h' : (Peer.Name.conn c, Mark.called call') ∈ s.trace) : call = call' := by
  have hlife := hs.life c
  rw [← mem_marksOf] at h h'
  rw [show s.marksOf (.conn c) = (s.account c).marks from rfl] at h h'
  generalize s.account c = a at hlife h h'
  cases hlife with
  | served n frames ok hserving =>
    cases hserving <;> simp [heard] at h h'
    all_goals exact h.trans h'.symm
  | _ => simp [heard] at h

/-- A handler that has not returned was called, and its connection has
heard of no return. -/
theorem Served.running {j : ℕ} {c : ConnId} {call : Call} (hs : s.Served L)
    (hj : s.blocks[j]? = some ⟨c, .call call, true⟩) :
    (Peer.Name.conn c, Mark.called call) ∈ s.trace ∧
      ∀ result, (Peer.Name.conn c, Mark.returned result) ∉ s.trace := by
  obtain ⟨n, frame, frames, ok, marks, haccount, hserving⟩ := hs.of_block hj
  have hmarks : s.marksOf (.conn c) = heard n ++ .arrived (frame :: frames) ok :: marks :=
    congrArg Account.marks haccount
  simp only [← mem_marksOf, hmarks]
  cases hserving with
  | running hd => simp [heard]

/-- What a provider that returns writes down. -/
theorem trace_providerReturns {j : ℕ} {result : Result} (h : s.providerReturns j result = some s') :
    ∃ c call, s.blocks[j]? = some ⟨c, .call call, true⟩ ∧
      s'.trace = s.trace ++ [(.conn c, .returned result), (.conn c, .replied result.reply)] := by
  rw [Server.providerReturns] at h
  cases hj : s.blocks[j]? with
  | none => simp [hj] at h
  | some block =>
    obtain ⟨c, task, called⟩ := block
    cases task with
    | refuse reply => simp [hj] at h
    | call call =>
      simp only [hj] at h
      split at h
      · rename_i hcalled
        obtain ⟨rfl, -⟩ := hcalled
        obtain rfl := Option.some.inj h
        exact ⟨c, call, rfl, by simp [log]⟩
      · cases h

end Server

/-- **No step but its own returns a confirmation.** -/
theorem System.confirmed_step {s s' : System} {i : SystemInput} (h : s.step L i = some s')
    (hi : ∀ j r, i ≠ .providerReturns j (.confirm r)) :
    s'.server.confirmed = s.server.confirmed := by
  obtain ⟨hsame, -⟩ := System.step_server h
  obtain ⟨new, htrace, hw⟩ := System.step_writes h
  cases hserver : i.server with
  | none => rw [hsame hserver]
  | some j =>
    have hnone : ∀ e ∈ new, ∀ r, e.2 ≠ .returned (.confirm r) := by
      rintro ⟨peer, m⟩ hmem r rfl
      obtain ⟨k, block, rfl, -⟩ := (hw j hserver).returned peer _ hmem
      cases i with
      | serial i =>
        obtain rfl := Option.some.inj hserver
        rw [System.step, System.serial] at h
        simp [ServerInput.onSerialQueue] at h
      | providerReturns k' result =>
        obtain ⟨rfl, rfl⟩ := ServerInput.providerReturns.inj (Option.some.inj hserver)
        exact hi _ _ rfl
      | _ => cases hserver
    rw [Server.confirmed, htrace, List.filterMap_append, Server.confirmed]
    convert List.append_nil _
    refine List.filterMap_eq_nil_iff.2 fun e he => ?_
    have hne := hnone e he
    obtain ⟨peer, m⟩ := e
    cases m with
    | returned result =>
      cases result with
      | confirm r => exact absurd rfl (hne r)
      | _ => rfl
    | _ => rfl

namespace Exchange

variable {s s' : Exchange}

/-- **What a step leaves of the calls there are**: their connections, what
they are, and what they have met once they are over. -/
structure Later (s s' : Exchange) : Prop where
  line : ∀ {k : ℕ} {line : Line}, s.lines[k]? = some line → ∃ line' : Line,
    s'.lines[k]? = some line' ∧ line'.peer = line.peer ∧ line'.call = line.call ∧
      (line.met.isSome = true → line' = line)
  trace : s.prompter.server.trace <+: s'.prompter.server.trace

theorem Later.set {i : ℕ} {line line' : Line} (hi : s.lines[i]? = some line)
    (hpeer : line'.peer = line.peer) (hcall : line'.call = line.call) (hmet : line.met = none) :
    Later s { s with lines := s.lines.set i line' } where
  line {k l} hk := by
    rcases eq_or_ne i k with rfl | hne
    · obtain rfl := Option.some.inj (hi.symm.trans hk)
      refine ⟨line', ?_, hpeer, hcall, fun hsome => ?_⟩
      · exact List.getElem?_set_self (List.getElem?_eq_some_iff.1 hk).1
      · rw [hmet] at hsome
        cases hsome
    · exact ⟨l, (List.getElem?_set_ne hne).trans hk, rfl, rfl, fun _ => rfl⟩
  trace := List.prefix_rfl

theorem later_step {i : ExchangeInput} (hk : s.Kept L) (h : s.step L i = some s') : Later s s' := by
  cases i with
  | connect call authorized =>
    obtain ⟨p, hstep, rfl⟩ := Option.map_eq_some_iff.1 h
    refine ⟨fun {k line} hline => ⟨line, ?_, rfl, rfl, fun _ => rfl⟩,
      (System.grows_step hk.prompter hstep).trace⟩
    exact (List.getElem?_append_left (List.getElem?_eq_some_iff.1 hline).1).trans hline
  | send i =>
    rw [Exchange.step, Exchange.send] at h
    split at h
    · cases h
    rename_i line hi
    split at h
    · cases h
    rename_i hnew
    obtain rfl := Option.some.inj h
    rw [not_or, Option.not_isSome_iff_eq_none] at hnew
    exact .set hi rfl rfl hnew.2
  | returns i met =>
    rw [Exchange.step, Exchange.returns] at h
    split at h
    · cases h
    rename_i line hi
    split at h
    swap
    · cases h
    rename_i hmeets
    obtain rfl := Option.some.inj h
    exact .set hi rfl rfl (Option.isNone_iff_eq_none.1 hmeets.1)
  | prompter i =>
    rw [Exchange.step, Exchange.stepPrompter] at h
    split at h
    swap
    · cases h
    obtain ⟨p, hstep, rfl⟩ := Option.map_eq_some_iff.1 h
    exact ⟨fun {k line} hline => ⟨line, hline, rfl, rfl, fun _ => rfl⟩,
      (System.grows_step hk.prompter hstep).trace⟩

/-- No step but its own returns a confirmation. -/
theorem confirmed_step {i : ExchangeInput} (h : s.step L i = some s')
    (hi : ∀ j r, i ≠ .prompter (.providerReturns j (.confirm r))) :
    s'.prompter.server.confirmed = s.prompter.server.confirmed := by
  cases i with
  | connect call authorized =>
    obtain ⟨p, hstep, rfl⟩ := Option.map_eq_some_iff.1 h
    exact System.confirmed_step hstep (by simp)
  | send i =>
    rw [Exchange.step, Exchange.send] at h
    split at h
    · cases h
    split at h
    · cases h
    obtain rfl := Option.some.inj h
    rfl
  | returns i met =>
    rw [Exchange.step, Exchange.returns] at h
    split at h
    · cases h
    split at h
    · obtain rfl := Option.some.inj h
      rfl
    · cases h
  | prompter i =>
    rw [Exchange.step, Exchange.stepPrompter] at h
    split at h
    · obtain ⟨p, hstep, rfl⟩ := Option.map_eq_some_iff.1 h
      exact System.confirmed_step hstep fun j r heq => hi j r (congrArg ExchangeInput.prompter heq)
    · cases h

end Exchange

end Prompter

end LibreDarwin
