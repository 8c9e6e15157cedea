import LibreDarwin.Prompter.Dismissal
import LibreDarwin.Prompter.Model.Exchange
import LibreDarwin.Prompter.OkGate
import LibreDarwin.Prompter.RoundTrip

/-!
# A call and its connection

What holds of the calls and their connections in every run of the two
sides: a connection belongs to one call at most, what is written on it is
counted against that call's one frame, and a call that heard a reply heard
one the prompter wrote there.
-/

namespace LibreDarwin

namespace Prompter

open Wire

variable {L : AgentLibrary}

/-! ## What the prompter adds -/

/-- **What a step of the server writes down**: an arrival where it read,
and a return where a provider returned. -/
structure Server.Writes (s s' : Server) (i : ServerInput) (new : List (Peer.Name × Mark)) :
    Prop where
  trace : s'.trace = s.trace ++ new
  arrived : ∀ peer frames ok, (peer, .arrived frames ok) ∈ new →
    ∃ id, peer = .conn id ∧ i = .readReady id frames ok
  returned : ∀ peer result, (peer, .returned result) ∈ new →
    ∃ j block, i = .providerReturns j result ∧ s.blocks[j]? = some block ∧ peer = .conn block.conn

namespace Server

variable {s s' : Server}

theorem mem_marksOf {peer : Peer.Name} {m : Mark} : m ∈ s.marksOf peer ↔ (peer, m) ∈ s.trace := by
  simp [marksOf]

theorem Writes.nil {i : ServerInput} (h : s'.trace = s.trace) : s.Writes s' i [] where
  trace := h.trans (List.append_nil _).symm
  arrived := by simp
  returned := by simp

/-- A reading logs its arrival, and the cancellation it may bring. -/
theorem writes_arrival {id : ConnId} {frames : List Bytes} {ok : Bool} (calls : List Call)
    (h : s'.trace = s.trace ++ (.conn id, .arrived frames ok) ::
      calls.map fun call => (.conn id, .called call)) :
    ∃ new, s.Writes s' (.readReady id frames ok) new := by
  refine ⟨_, h, ?_, ?_⟩
  · intro peer frames' ok' hmem
    rcases List.mem_cons.1 hmem with heq | hmem
    · cases heq
      exact ⟨id, rfl, rfl⟩
    · simp at hmem
  · intro peer result hmem
    simp at hmem

theorem step_writes {i : ServerInput} (h : s.step L i = some s') : ∃ new, s.Writes s' i new := by
  cases i with
  | accept authorized =>
    rw [Server.step] at h
    split at h
    · obtain rfl := Option.some.inj h
      cases authorized with
      | true => exact ⟨_, rfl, by simp, by simp⟩
      | false => exact ⟨_, rfl, by simp, by simp⟩
    · cases h
  | readReady id frames ok =>
    obtain rfl := Option.some.inj h
    rw [onReadReady]
    split
    · exact ⟨[], .nil rfl⟩
    cases frames with
    | nil =>
      dsimp only
      split
      · exact writes_arrival [] rfl
      · exact writes_arrival [] rfl
    | cons frame frames =>
      dsimp only
      cases dispatch L frame with
      | drop => exact writes_arrival [] rfl
      | handle call =>
        refine writes_arrival [call] ?_
        simp [carryOut, log, closeConnection]
      | post task => exact writes_arrival [] rfl
  | runBlock i =>
    rw [Server.step, runBlock] at h
    split at h
    · cases h
    split at h
    · cases h
    split at h
    · obtain rfl := Option.some.inj h
      exact ⟨_, rfl, by simp, by simp⟩
    · obtain rfl := Option.some.inj h
      exact ⟨_, rfl, by simp, by simp⟩
  | providerReturns i result =>
    rw [Server.step, providerReturns] at h
    split at h
    · cases h
    rename_i block hi
    split at h
    · cases h
    split at h
    · obtain rfl := Option.some.inj h
      refine ⟨_, rfl, by simp, ?_⟩
      rintro peer r hmem
      simp only [List.map_cons, List.map_nil, List.mem_cons, Prod.mk.injEq, Mark.returned.injEq,
        reduceCtorEq, and_false, List.not_mem_nil, or_false] at hmem
      obtain ⟨rfl, rfl⟩ := hmem
      exact ⟨i, block, rfl, hi, rfl⟩
    · cases h
  | stop =>
    obtain rfl := Option.some.inj h
    exact ⟨[], .nil rfl⟩
  | start =>
    obtain rfl := Option.some.inj h
    exact ⟨[], .nil rfl⟩

end Server

/-- The input of the server that an input of the prompter is. -/
def SystemInput.server : SystemInput → Option ServerInput
  | .serial i => some i
  | .runBlock i => some (.runBlock i)
  | .providerReturns i result => some (.providerReturns i result)
  | .mainTurn | .resetGoesOn _ | .user _ => none

/-- **One prompter's history goes on from another's.** -/
structure System.Grows (s s' : System) : Prop where
  trace : s.server.trace <+: s'.server.trace
  raisers : s.raisers <+: s'.raisers
  raised : s.window.raised <+: s'.window.raised
  answers : s.window.answers <+: s'.window.answers
  closed : s.closed <+: s'.closed

namespace System

variable {s s' : System}

/-- What only moves work about adds nothing. -/
theorem Grows.of_eq (hserver : s'.server = s.server) (hwindow : s'.window = s.window)
    (hraisers : s'.raisers = s.raisers) (hclosed : s'.closed = s.closed) : s.Grows s' := by
  refine ⟨?_, ?_, ?_, ?_, ?_⟩
  · rw [hserver]
  · rw [hraisers]
  · rw [hwindow]
  · rw [hwindow]
  · rw [hclosed]

/-- A step of the server adds to the trace only. -/
theorem Grows.of_server {server : Server} {i : ServerInput}
    (h : s.server.step L i = some server) (hserver : s'.server = server)
    (hwindow : s'.window = s.window) (hraisers : s'.raisers = s.raisers)
    (hclosed : s'.closed = s.closed) : s.Grows s' := by
  obtain ⟨new, hw⟩ := Server.step_writes h
  refine ⟨⟨new, ?_⟩, ?_, ?_, ?_, ?_⟩
  · rw [hserver, hw.trace]
  · rw [hraisers]
  · rw [hwindow]
  · rw [hwindow]
  · rw [hclosed]

theorem grows_mainTurn (hk : Kept L s) (h : s.mainTurn = some s') : s.Grows s' := by
  rw [System.mainTurn] at h
  cases hqueue : s.mainQueue with
  | nil => simp [hqueue] at h
  | cons block queue =>
    simp only [hqueue, Option.some.injEq] at h
    subst h
    cases block with
    | showPrompt conn req =>
      exact ⟨List.prefix_rfl, List.prefix_append _ _, List.prefix_append _ _, List.prefix_rfl,
        List.prefix_rfl⟩
    | showChangePrompt conn req =>
      exact ⟨List.prefix_rfl, List.prefix_append _ _, List.prefix_append _ _, List.prefix_rfl,
        List.prefix_rfl⟩
    | liveIds conn => exact .of_eq rfl rfl rfl rfl
    | dismiss conn promptId =>
      obtain ⟨ids, hanswers, -⟩ := hk.window.step_answers (L := L) (.dismiss promptId) id
      obtain ⟨new, hnew, -, -⟩ := hanswers.answers
      exact ⟨List.prefix_rfl, List.prefix_rfl, hanswers.raised ▸ List.prefix_rfl, ⟨new, hnew.symm⟩,
        List.prefix_rfl⟩
    | dismissAll conn =>
      obtain ⟨ids, hanswers, -⟩ := hk.window.step_answers (L := L) .dismissAll id
      obtain ⟨new, hnew, -, -⟩ := hanswers.answers
      exact ⟨List.prefix_rfl, List.prefix_rfl, hanswers.raised ▸ List.prefix_rfl, ⟨new, hnew.symm⟩,
        List.prefix_append _ _⟩

/-- **Nothing that has happened is taken back.** -/
theorem grows_step {i : SystemInput} (hk : Kept L s) (h : s.step L i = some s') : s.Grows s' := by
  cases i with
  | serial i =>
    obtain ⟨server, hstep, ⟨-, rfl⟩ | ⟨c, d, -, rfl⟩⟩ := serial_cases h
    · exact .of_server hstep rfl rfl rfl rfl
    · exact .of_server hstep rfl rfl rfl rfl
  | runBlock i =>
    obtain ⟨block, server, pre, post, -, -, hstep, -, -, -, rfl⟩ := runBlock_cases h
    exact .of_server hstep rfl rfl rfl rfl
  | providerReturns i result =>
    obtain ⟨block, server, pre, post, -, -, hstep, -, -, -, rfl⟩ := providerReturns_cases h
    exact .of_server hstep rfl rfl rfl rfl
  | mainTurn => exact grows_mainTurn hk h
  | resetGoesOn conn =>
    rw [System.step, System.resetGoesOn] at h
    split at h
    · obtain rfl := Option.some.inj h
      exact .of_eq rfl rfl rfl rfl
    · cases h
  | user i =>
    rw [System.step] at h
    split at h
    · rename_i hi
      obtain rfl := Option.some.inj h
      obtain ⟨hraised, hanswers⟩ := hk.window.step_user (L := L) hi
      exact ⟨List.prefix_rfl, List.prefix_rfl, hraised ▸ List.prefix_rfl, hanswers, List.prefix_rfl⟩
    · cases h

/-- What a provider may return it may return later, too. -/
theorem Returns.mono {c : ConnId} {call : Call} {result : Result} (hg : s.Grows s')
    (h : s.Returns L c call result) : s'.Returns L c call result := by
  have hanswer : ∀ {P : PanelId × PanelAnswer → Prop},
      (∃ e ∈ s.window.answers, s.raisers[e.1]? = some c ∧ P e) →
      ∃ e ∈ s'.window.answers, s'.raisers[e.1]? = some c ∧ P e := by
    rintro P ⟨e, he, hraiser, hp⟩
    exact ⟨e, hg.answers.subset he, getElem?_of_prefix hg.raisers hraiser, hp⟩
  cases call with
  | provider r =>
    cases result with
    | secret p => exact hanswer h
    | _ => exact h
  | multiProvider r =>
    cases result with
    | secrets p =>
      by_cases hkind : r.kind = L.kKindChangePin
      · simp only [Returns, if_pos hkind] at h ⊢
        exact hanswer h
      · simp only [Returns, if_neg hkind] at h ⊢
        exact h
    | _ => exact h
  | reset =>
    cases result with
    | closed count => exact hg.closed.subset h
    | _ => exact h
  | cancel promptId => exact h
  | confirmProvider r => cases result <;> exact h

/-- **Every return was due**: its provider was called on the same
connection, and may return that. -/
def Paid (L : AgentLibrary) (s : System) : Prop :=
  ∀ c result, (Peer.Name.conn c, Mark.returned result) ∈ s.server.trace →
    ∃ call, (Peer.Name.conn c, Mark.called call) ∈ s.server.trace ∧ s.Returns L c call result

/-- **The server's part of a step.** -/
theorem step_server {i : SystemInput} (h : s.step L i = some s') :
    (i.server = none → s'.server = s.server) ∧
      ∀ j, i.server = some j → s.server.step L j = some s'.server := by
  cases i with
  | serial i =>
    refine ⟨by rintro ⟨⟩, ?_⟩
    rintro j ⟨⟩
    rw [System.step, System.serial] at h
    split at h
    · obtain ⟨server, hstep, rfl⟩ := Option.map_eq_some_iff.1 h
      split <;> exact hstep
    · cases h
  | runBlock i =>
    refine ⟨by rintro ⟨⟩, ?_⟩
    rintro j ⟨⟩
    obtain ⟨block, server, pre, post, -, -, hstep, -, -, -, rfl⟩ := runBlock_cases h
    exact hstep
  | providerReturns i result =>
    refine ⟨by rintro ⟨⟩, ?_⟩
    rintro j ⟨⟩
    obtain ⟨block, server, pre, post, -, -, hstep, -, -, -, rfl⟩ := providerReturns_cases h
    exact hstep
  | mainTurn =>
    refine ⟨fun _ => ?_, by rintro j ⟨⟩⟩
    rw [System.step, System.mainTurn] at h
    cases hqueue : s.mainQueue with
    | nil => simp [hqueue] at h
    | cons block queue =>
      simp only [hqueue, Option.some.injEq] at h
      subst h
      cases block <;> rfl
  | resetGoesOn conn =>
    refine ⟨fun _ => ?_, by rintro j ⟨⟩⟩
    rw [System.step, System.resetGoesOn] at h
    split at h
    · obtain rfl := Option.some.inj h
      rfl
    · cases h
  | user i =>
    refine ⟨fun _ => ?_, by rintro j ⟨⟩⟩
    rw [System.step] at h
    split at h
    · obtain rfl := Option.some.inj h
      rfl
    · cases h

/-- **What a step adds to the trace.** -/
theorem step_writes {i : SystemInput} (h : s.step L i = some s') :
    ∃ new, s'.server.trace = s.server.trace ++ new ∧
      ∀ j, i.server = some j → s.server.Writes s'.server j new := by
  obtain ⟨hsame, hstep⟩ := step_server h
  cases hi : i.server with
  | none =>
    refine ⟨[], ?_, nofun⟩
    rw [hsame hi, List.append_nil]
  | some j =>
    obtain ⟨new, hw⟩ := Server.step_writes (hstep j hi)
    refine ⟨new, hw.trace, ?_⟩
    rintro k ⟨⟩
    exact hw

/-- A provider that returns is inside its call, and its result was due. -/
theorem providerReturns_due {i : ℕ} {result : Result} {block : Block} (hk : Kept L s)
    (h : s.providerReturns L i result = some s') (hi : s.server.blocks[i]? = some block) :
    ∃ call, (Peer.Name.conn block.conn, Mark.called call) ∈ s.server.trace ∧
      s.Returns L block.conn call result := by
  rw [System.providerReturns, hi] at h
  obtain ⟨conn, task, called⟩ := block
  cases task with
  | refuse reply => cases h
  | call call =>
    simp only at h
    split at h
    swap
    · cases h
    rename_i hreturns
    refine ⟨call, ?_, hreturns⟩
    obtain ⟨server, hstep, -⟩ := Option.map_eq_some_iff.1 h
    obtain ⟨n, frame, frames, ok, marks, haccount, hserving⟩ := hk.served.of_block hi
    have hcalled : called = true := by
      rw [Server.providerReturns, hi] at hstep
      simp only at hstep
      split at hstep
      · rename_i hcalled
        exact hcalled.1
      · cases hstep
    subst hcalled
    rw [← Server.mem_marksOf, show s.server.marksOf (.conn conn) = _ from
      congrArg Account.marks haccount]
    cases hserving with
    | running hd => simp

theorem Paid.step {i : SystemInput} (hk : Kept L s) (hp : Paid L s) (h : s.step L i = some s') :
    Paid L s' := by
  have hg := grows_step hk h
  obtain ⟨new, htrace, hw⟩ := step_writes h
  intro c result hmem
  suffices hdue : ∃ call, (Peer.Name.conn c, Mark.called call) ∈ s.server.trace ∧
      s.Returns L c call result by
    obtain ⟨call, hcall, hreturns⟩ := hdue
    exact ⟨call, hg.trace.subset hcall, hreturns.mono hg⟩
  rw [htrace] at hmem
  rcases List.mem_append.1 hmem with hmem | hmem
  · exact hp c result hmem
  -- a return that is new is that of this step
  cases hi : i.server with
  | none =>
    rw [(step_server h).1 hi] at htrace
    rw [List.self_eq_append_right.1 htrace] at hmem
    cases hmem
  | some j =>
    obtain ⟨k, block, rfl, hblock, hconn⟩ := (hw j hi).returned _ _ hmem
    obtain rfl := Peer.Name.conn.inj hconn
    cases i with
    | providerReturns i result =>
      cases hi
      exact providerReturns_due hk h hblock
    | serial i =>
      cases hi
      cases h
    | _ => cases hi

end System

/-! ## What the two sides keep -/

/-- A peer that has connected. -/
def Server.Met (s : Server) : Peer.Name → Prop
  | .conn id => id < s.nextConnId
  | .refused n => n < s.refused

namespace Server

variable {s s' : Server}

theorem carryOut_counts (s : Server) (id : ConnId) (d : Dispatch) :
    (s.carryOut id d).nextConnId = s.nextConnId ∧ (s.carryOut id d).refused = s.refused := by
  cases d <;> exact ⟨rfl, rfl⟩

theorem step_counts {i : ServerInput} (h : s.step L i = some s') :
    s.nextConnId ≤ s'.nextConnId ∧ s.refused ≤ s'.refused := by
  cases i with
  | accept authorized =>
    rw [Server.step] at h
    split at h
    · obtain rfl := Option.some.inj h
      cases authorized with
      | true => exact ⟨Nat.le_succ _, le_refl _⟩
      | false => exact ⟨le_refl _, Nat.le_succ _⟩
    · cases h
  | readReady id frames ok =>
    obtain rfl := Option.some.inj h
    rw [onReadReady]
    split
    · exact ⟨le_refl _, le_refl _⟩
    cases frames with
    | nil =>
      dsimp only
      split <;> exact ⟨le_refl _, le_refl _⟩
    | cons frame frames =>
      obtain ⟨hnext, hrefused⟩ := carryOut_counts
        ((s.log (.conn id) [.arrived (frame :: frames) ok]).closeConnection id) id
        (dispatch L frame)
      exact ⟨hnext.ge, hrefused.ge⟩
  | runBlock i =>
    rw [Server.step, runBlock] at h
    split at h
    · cases h
    split at h
    · cases h
    split at h
    · obtain rfl := Option.some.inj h
      exact ⟨le_refl _, le_refl _⟩
    · obtain rfl := Option.some.inj h
      exact ⟨le_refl _, le_refl _⟩
  | providerReturns i result =>
    rw [Server.step, providerReturns] at h
    split at h
    · cases h
    split at h
    · cases h
    split at h
    · obtain rfl := Option.some.inj h
      exact ⟨le_refl _, le_refl _⟩
    · cases h
  | stop =>
    obtain rfl := Option.some.inj h
    exact ⟨le_refl _, le_refl _⟩
  | start =>
    obtain rfl := Option.some.inj h
    exact ⟨le_refl _, le_refl _⟩

theorem Met.step {i : ServerInput} {peer : Peer.Name} (hm : s.Met peer)
    (h : s.step L i = some s') : s'.Met peer := by
  obtain ⟨hnext, hrefused⟩ := step_counts h
  cases peer with
  | conn id => exact lt_of_lt_of_le hm hnext
  | refused n => exact lt_of_lt_of_le hm hrefused

/-- Nothing has happened on the account of a peer that has not connected. -/
theorem Served.met_of_mem {peer : Peer.Name} {m : Mark} (hs : s.Served L)
    (h : (peer, m) ∈ s.trace) : s.Met peer := by
  have hmarks := mem_marksOf.2 h
  cases peer with
  | conn id => exact ((hs.born id).1 (List.ne_nil_of_mem hmarks)).2
  | refused n =>
    rw [hs.refused] at hmarks
    by_contra hn
    rw [if_neg (show ¬n < s.refused from hn)] at hmarks
    cases hmarks

end Server

namespace Exchange

variable {s s' : Exchange}

/-- **What the two sides keep.** -/
structure Kept (L : AgentLibrary) (s : Exchange) : Prop where
  prompter : s.prompter.Kept L
  paid : s.prompter.Paid L
  once : (s.lines.map Line.peer).Nodup
  met : ∀ line ∈ s.lines, s.prompter.server.Met line.peer
  read : ∀ line ∈ s.lines, ∀ frames ok, (line.peer, .arrived frames ok) ∈ s.prompter.server.trace →
    frames = [] ∨ line.sent = true ∧ frames = [line.call.body L]
  ended : ∀ line ∈ s.lines, ∀ met, line.met = some met → s.CanMeet L line met

theorem CanMeet.mono {line : Line} {met : ResetPeer} (h : s.CanMeet L line met)
    (htrace : s.prompter.server.trace <+: s'.prompter.server.trace) : s'.CanMeet L line met := by
  obtain ⟨hconnects, hsent, hheard, hended⟩ := h
  refine ⟨hconnects, hsent, fun frame hframe => ?_, hended⟩
  exact List.map_subset _ (htrace.sublist.filterMap _).subset (hheard frame hframe)

theorem Kept.init : Kept L {} where
  prompter := .init
  paid := by rintro c result ⟨⟩
  once := List.nodup_nil
  met := by simp
  read := by simp
  ended := by simp

/-- The prompter takes a step the calls know nothing of: what it reads on
a call's connection is the call's own. -/
theorem Kept.prompterStep {i : SystemInput} {p : System} (hk : Kept L s)
    (h : s.prompter.step L i = some p)
    (hread : ∀ line ∈ s.lines, ∀ id frames ok, line.peer = .conn id →
      i = .serial (.readReady id frames ok) →
      frames = [] ∨ line.sent = true ∧ frames = [line.call.body L]) :
    Kept L { s with prompter := p } := by
  have hg := System.grows_step hk.prompter h
  obtain ⟨new, htrace, hw⟩ := System.step_writes h
  refine ⟨hk.prompter.step h, hk.paid.step hk.prompter h, hk.once, ?_, ?_, ?_⟩
  · intro line hline
    cases hi : i.server with
    | none =>
      rw [show ({ s with prompter := p } : Exchange).prompter.server = s.prompter.server from
        (System.step_server h).1 hi]
      exact hk.met line hline
    | some j => exact (hk.met line hline).step ((System.step_server h).2 j hi)
  · intro line hline frames ok hmem
    rw [show ({ s with prompter := p } : Exchange).prompter.server.trace = _ from htrace] at hmem
    rcases List.mem_append.1 hmem with hmem | hmem
    · exact hk.read line hline frames ok hmem
    · cases hi : i.server with
      | none =>
        rw [(System.step_server h).1 hi] at htrace
        rw [List.self_eq_append_right.1 htrace] at hmem
        cases hmem
      | some j =>
        obtain ⟨id, hpeer, rfl⟩ := (hw j hi).arrived _ _ _ hmem
        cases i with
        | serial i =>
          cases hi
          exact hread line hline id frames ok hpeer rfl
        | _ => cases hi
  · intro line hline met hmet
    exact (hk.ended line hline met hmet).mono hg.trace

theorem Kept.connect {call : ClientCall} {authorized : Bool} (hk : Kept L s)
    (h : s.connect L call authorized = some s') : Kept L s' := by
  obtain ⟨p, hstep, rfl⟩ := Option.map_eq_some_iff.1 h
  have hkp := hk.prompterStep hstep (by rintro line - id frames ok - ⟨⟩)
  have hserver : s.prompter.server.step L (.accept authorized) = some p.server :=
    (System.step_server hstep).2 _ rfl
  -- the new peer is one the server has not met before, and has met now
  have hnew : ¬s.prompter.server.Met (s.nextPeer authorized) ∧
      p.server.Met (s.nextPeer authorized) := by
    rw [Server.step] at hserver
    split at hserver
    swap
    · cases hserver
    rw [← Option.some.inj hserver]
    cases authorized with
    | true => exact ⟨lt_irrefl _, Nat.lt_succ_self _⟩
    | false => exact ⟨lt_irrefl _, Nat.lt_succ_self _⟩
  have hquiet : ∀ frames ok,
      (s.nextPeer authorized, Mark.arrived frames ok) ∉ p.server.trace := by
    intro frames ok hmem
    obtain ⟨new, hw⟩ := Server.step_writes hserver
    rw [hw.trace] at hmem
    rcases List.mem_append.1 hmem with hmem | hmem
    · exact hnew.1 (hk.prompter.served.met_of_mem hmem)
    · obtain ⟨id, -, heq⟩ := hw.arrived _ _ _ hmem
      cases heq
  refine ⟨hkp.prompter, hkp.paid, ?_, ?_, ?_, ?_⟩
  · rw [List.map_append, List.map_singleton]
    refine List.nodup_append.2 ⟨hk.once, List.nodup_singleton _, ?_⟩
    rintro peer hpeer peer' hpeer' rfl
    obtain ⟨line, hline, rfl⟩ := List.mem_map.1 hpeer
    exact hnew.1 ((List.mem_singleton.1 hpeer').subst (motive := s.prompter.server.Met)
      (hk.met line hline))
  · intro line hline
    rcases List.mem_append.1 hline with hline | hline
    · exact hkp.met line hline
    · rw [List.mem_singleton.1 hline]
      exact hnew.2
  · intro line hline frames ok hmem
    rcases List.mem_append.1 hline with hline | hline
    · exact hkp.read line hline frames ok hmem
    · rw [List.mem_singleton.1 hline] at hmem
      exact absurd hmem (hquiet frames ok)
  · intro line hline met hmet
    rcases List.mem_append.1 hline with hline | hline
    · exact (hkp.ended line hline met hmet).mono List.prefix_rfl
    · rw [List.mem_singleton.1 hline] at hmet
      cases hmet

/-- A call that goes on, with everything it is to the prompter. -/
theorem Kept.set {i : ℕ} {line line' : Line} (hk : Kept L s) (hi : s.lines[i]? = some line)
    (hpeer : line'.peer = line.peer) (hcall : line'.call = line.call)
    (hsent : line.sent = true → line'.sent = true)
    (hended : ∀ met, line'.met = some met → s.CanMeet L line' met) :
    Kept L { s with lines := s.lines.set i line' } := by
  have hmem : line ∈ s.lines := List.mem_of_getElem? hi
  have hset : ∀ {P : Line → Prop}, (∀ l ∈ s.lines, P l) → P line' →
      ∀ l ∈ s.lines.set i line', P l := by
    intro P hold hnew l hl
    rcases List.mem_or_eq_of_mem_set hl with hl | rfl
    · exact hold l hl
    · exact hnew
  refine ⟨hk.prompter, hk.paid, ?_, ?_, ?_, ?_⟩
  · have hsame : (s.lines.set i line').map Line.peer = s.lines.map Line.peer := by
      obtain ⟨hlt, hline⟩ := List.getElem?_eq_some_iff.1 hi
      rw [List.map_set, hpeer, ← hline, ← List.getElem_map Line.peer (h := by simpa using hlt),
        List.set_getElem_self]
    rw [hsame]
    exact hk.once
  · refine hset hk.met ?_
    rw [hpeer]
    exact hk.met line hmem
  · refine hset hk.read fun frames ok harrived => ?_
    rw [hpeer] at harrived
    rw [hcall]
    exact (hk.read line hmem frames ok harrived).imp_right fun h => ⟨hsent h.1, h.2⟩
  · intro l hl met hmet
    refine CanMeet.mono (s := s) ?_ List.prefix_rfl
    rcases List.mem_or_eq_of_mem_set hl with hl | rfl
    · exact hk.ended l hl met hmet
    · exact hended met hmet

/-- **The step lemma.** -/
theorem Kept.step {i : ExchangeInput} (hk : Kept L s) (h : s.step L i = some s') : Kept L s' := by
  cases i with
  | connect call authorized => exact hk.connect h
  | send i =>
    rw [Exchange.step, Exchange.send] at h
    split at h
    · cases h
    rename_i line hi
    split at h
    · cases h
    rename_i hnew
    obtain rfl := Option.some.inj h
    refine hk.set hi rfl rfl (fun _ => rfl) fun met hmet => ?_
    rw [not_or] at hnew
    rw [show line.met = some met from hmet] at hnew
    exact absurd rfl hnew.2
  | returns i met =>
    rw [Exchange.step, Exchange.returns] at h
    split at h
    · cases h
    rename_i line hi
    split at h
    swap
    · cases h
    rename_i hmeets
    obtain rfl := Option.some.inj h
    refine hk.set hi rfl rfl id fun met' hmet' => ?_
    obtain rfl := Option.some.inj hmet'
    exact hmeets.2
  | prompter i =>
    rw [Exchange.step, Exchange.stepPrompter] at h
    split at h
    swap
    · cases h
    rename_i hadmits
    obtain ⟨p, hstep, rfl⟩ := Option.map_eq_some_iff.1 h
    refine hk.prompterStep hstep ?_
    rintro line hline id frames ok hpeer rfl
    exact hadmits line hline hpeer

end Exchange

theorem exchange_kept {s : Exchange} (h : (exchange L).Reachable s) : s.Kept L := by
  refine h.invariant ?_ ?_
  · rintro s rfl
    exact Exchange.Kept.init
  · intro s i s' hk hstep
    exact hk.step hstep

end Prompter

end LibreDarwin
