import LibreDarwin.Transport.Table

/-!
# The last frame of a connection

`sendThenClose` promises that its message is the last a connection gets:
the read source goes, the broadcasts leave the connection out, and the
next drain closes it. `sendTo` does not look at any of this, so a message
sent to the connection while the last frame waits behind a blocked write
is queued behind it and goes out with it (`last_frame_overtaken`). Where
no such call is made the promise holds (`last_frame`).
-/

namespace LibreDarwin

namespace Transport

open Wire Carriage
open Std (ExtTreeMap)

variable {Req : Type*} {W : Wire Req}

/-- The events that send to one connection by name. -/
inductive LoopEvent.SendsTo (c : ConnId) : LoopEvent → Prop
  | sendTo (m : Message) (fds : List Fd) : SendsTo c (.act (.sendTo c m fds))
  | sendThenClose (m : Message) : SendsTo c (.act (.sendThenClose c m))
  | replyState (req : ℕ) : SendsTo c (.act (.replyState c req))

/-- **Nothing is sent to a connection on its way out.** -/
def Spares (c : ConnId) (s : State Req) (i : Input) : Prop :=
  i.event.SendsTo c → ∀ conn, s.connections[c]? = some conn → conn.closeWhenDrained = false

/-- A connection that had its last frame, of which `sent` was enqueued and
`requests` served by then. -/
structure Leaving (sent : List Chunk) (requests : List (Heard Req)) (σ : Slot Req) :
    Prop where
  closing : ∀ conn, σ.conn = some conn → conn.closeWhenDrained = true
  known : σ.seen ≠ []
  sent : σ.sent = sent
  requests : requestsIn σ.seen = requests

namespace Leaving

variable {σ : Slot Req} {sent : List Chunk} {requests : List (Heard Req)}
  {handlers : List HandlerId} {kernel : List IoResult}

/-- Entries that enqueue and serve nothing. -/
theorem log (h : Leaving sent requests σ) {obs : List (Obs Req)} (hsent : sentIn obs = [])
    (hrequests : requestsIn obs = []) : Leaving sent requests (σ.log obs) where
  closing := h.closing
  known := by simp [h.known]
  sent := by have := h.sent; simpa [Slot.sent, hsent] using this
  requests := by simpa [hrequests] using h.requests

theorem gone (h : Leaving sent requests σ) (frames : List WireFrame) :
    Leaving sent requests { σ with conn := none, inbound := frames } where
  closing := by rintro conn ⟨⟩
  known := h.known
  sent := h.sent
  requests := h.requests

/-- A send path's outcome, when what it was given had `sent` enqueued
already. -/
theorem settle (h : Leaving sent requests { σ with conn := none }) {conn : Connection}
    (hconn : σ.conn = some conn) {out : Outcome}
    (hout : ∀ conn', out.conn = .ok conn' → conn'.closeWhenDrained = true) :
    Leaving sent requests (σ.settle handlers out) := by
  have hlog := h.log (sentIn_io out.io) (requestsIn_io out.io)
  unfold Slot.settle
  rcases ho : out.conn with why | conn'
  · dsimp only
    unfold Slot.close
    rw [Slot.conn_log, hconn]
    exact hlog.log (by simp) (by simp)
  · refine ⟨fun conn₁ h₁ => ?_, hlog.known, hlog.sent, hlog.requests⟩
    obtain rfl := Option.some.inj h₁
    exact hout conn' ho

/-- **A step that spares the connection sends and serves nothing.** -/
theorem move {s : State Req} {c : ConnId} {i : Input} (h : Leaving sent requests (s.slot c))
    (hs : Orderly s) (hspares : Spares c s i) {t : State Req} (hst : s.step W i = some t) :
    Leaving sent requests (t.slot c) := by
  obtain ⟨m, horigin, hlegal, heffect⟩ := step_at hs hst c
  generalize t.slot c = τ at heffect
  -- a send finds the connection on its way out, which the guard excludes
  have hsends : ∀ conn, (s.slot c).conn = some conn → ¬ i.event.SendsTo c := by
    intro conn hconn hsends
    have hfalse := hspares hsends conn hconn
    rw [h.closing conn hconn] at hfalse
    cases hfalse
  cases heffect with
  | same => exact h
  | accepted id =>
    have hblank := hlegal.2
    exact absurd (congrArg Slot.seen hblank) h.known
  | sent hconn m fds =>
    refine absurd ?_ (hsends _ hconn)
    generalize i.event = event at horigin
    cases horigin with
    | send => exact .sendTo m fds
    | replyState req => exact .replyState req
  | broadcast hconn e kind htakes =>
    have hfalse := htakes.1
    rw [h.closing _ hconn] at hfalse
    cases hfalse
  | sentLast hconn m =>
    refine absurd ?_ (hsends _ hconn)
    generalize i.event = event at horigin
    cases horigin with
    | sendThenClose => exact .sendThenClose m
  | wants hconn b =>
    have hclosing := h.closing _ hconn
    refine ⟨fun conn' hconn' => ?_, h.known, h.sent, h.requests⟩
    obtain rfl := Option.some.inj hconn'
    exact hclosing
  | flushed hconn hwrite =>
    have hclosing := h.closing _ hconn
    refine (h.gone _).settle hconn fun conn' hconn' => ?_
    have hcore := (Connection.flushWrites_ok hconn').1
    rw [Connection.closeWhenDrained_of_core hcore, hclosing]
  | read hconn hread frames =>
    have hclosing := h.closing _ hconn
    refine Leaving.log (σ := { s.slot c with conn := some _, inbound := frames })
      ⟨fun conn' hconn' => ?_, h.known, h.sent, h.requests⟩ (sentIn_delivered frames)
      (requestsIn_delivered frames)
    obtain rfl := Option.some.inj hconn'
    split
    · exact hclosing
    · exact hclosing
  | served hconn hopen caller frame req heard =>
    rw [h.closing _ hconn] at hopen
    cases hopen
  | stopped => exact ⟨h.closing, h.known, h.sent, h.requests⟩
  | skipped hclosing caller frame req heard => exact ⟨h.closing, h.known, h.sent, h.requests⟩
  | gone hconn why => exact ⟨h.closing, h.known, h.sent, h.requests⟩
  | closed hconn why => exact (h.gone []).log (by simp) (by simp)
  | timedOut hconn hsaw => exact (h.gone _).log (by simp) (by simp)

end Leaving

/-- `sendThenClose` on a live connection leaves it on its way out, or
closed. -/
theorem leaving_of_sendThenClose {s t : State Req} {c : ConnId} {m : Message}
    {kernel : ConnId → List IoResult} (hc : c ∈ s.connections)
    (h : s.step W ⟨.act (.sendThenClose c m), kernel⟩ = some t) :
    Leaving (t.slot c).sent (requestsIn (t.slot c).seen) (t.slot c) := by
  obtain ⟨conn, hconn⟩ := Option.isSome_iff_exists.1 (ExtTreeMap.mem_iff_isSome_getElem?.1 hc)
  have hmove := slot_step h c
  simp only [State.moveOn, State.called, if_true, Slot.move, Slot.sendThenClose, Slot.send,
    State.slot_conn, hconn, Slot.conn_log] at hmove
  have hqueued : Leaving _ _ (⟨none, s.inbound c,
      s.seen c ++ [.lastFrame] ++ [.enqueued m (frameOf W m [])]⟩ : Slot Req) :=
    ⟨by rintro conn ⟨⟩, by simp, rfl, rfl⟩
  have hout : ∀ conn', (conn.closing.enqueueSend W.kMaxFrameFds (frameOf W m []).data []
      (kernel c)).conn = .ok conn' → conn'.closeWhenDrained = true := fun conn' hconn' =>
    Connection.closeWhenDrained_of_core (Slot.core_of_enqueueSend hconn')
  obtain ⟨hclosing, hknown, -, -⟩ := hqueued.settle (σ :=
    ({ s.slot c with conn := some conn.closing }.log [.lastFrame]).log
      [.enqueued m (frameOf W m [])]) rfl hout
  rw [hmove]
  exact ⟨hclosing, hknown, rfl, rfl⟩

/-- **The last frame is the last, where nothing is sent behind it.** After
`sendThenClose` on a live connection, in every run in which no event sends
to the connection while it is on its way out: what the kernel accepted is
of the frames enqueued up to the last frame, and no request of the
connection has been served since. -/
theorem last_frame (hW : ∀ m n, W.encodeFrame m n ≠ []) {s t u : State Req} {c : ConnId}
    {m : Message} {kernel : ConnId → List IoResult} {is : List Input}
    (hs : (transport W).Reachable s) (hc : c ∈ s.connections)
    (h : (transport W).step s ⟨.act (.sendThenClose c m), kernel⟩ = some t)
    (hrun : (transport W).RunWhere (Spares c) t is u) :
    content (u.slot c).accepted <+: content (t.slot c).sent ∧
      requestsIn (u.seen c) = requestsIn (t.seen c) := by
  have ht : (transport W).Reachable t := hs.step h
  have hu : (transport W).Reachable u := ht.run hrun.run
  obtain ⟨-, hleaving⟩ := hrun.invariant
    (I := fun u => Orderly u ∧ Leaving (t.slot c).sent (requestsIn (t.slot c).seen) (u.slot c))
    (fun s i s' hI hok hst => ⟨orderly_step hI.1 hst, hI.2.move hI.1 hok hst⟩)
    ⟨reachable_orderly ht, leaving_of_sendThenClose hc h⟩
  refine ⟨?_, hleaving.requests⟩
  rw [← hleaving.sent]
  exact (reachable_carrying hW hu c).faithful.content_prefix

/-- A client that is slow to read, refused while a reply is still
queued. -/
def refused : List Input :=
  [⟨.accept true, fun _ => []⟩,
   ⟨.act (.sendTo 1 (.ack 1) []), fun _ => [.wrote 2]⟩,
   ⟨.act (.sendThenClose 1 (.error 2 .unsupportedProtocol "")), fun _ => []⟩]

/-- An event of an operation for the same client, and the client
reading. -/
def behindTheLast : List Input :=
  [⟨.act (.sendTo 1 (.other [7]) []), fun _ => []⟩,
   ⟨.writeReady 1, fun _ => [.wrote 9, .wrote 9, .wrote 9]⟩]

/-- **A frame overtakes the close.** The event is queued behind the last
frame and goes out with it. -/
theorem last_frame_overtaken :
    ∃ t u, (transport plainWire).run (.start []) refused = some t ∧
      (transport plainWire).run t behindTheLast = some u ∧
      content (t.slot 1).sent = [1, 0, 3, 1, 0, 4] ∧
      content (u.slot 1).accepted = [1, 0, 3, 1, 0, 4, 2, 0, 0, 7] ∧
      ¬ content (u.slot 1).accepted <+: content (t.slot 1).sent := by
  refine ⟨_, _, rfl, rfl, rfl, rfl, ?_⟩
  decide

/-- The client reads, and nothing was sent behind the last frame. -/
theorem last_frame_refused :
    ∃ t u, (transport plainWire).run (.start []) refused = some t ∧
      (transport plainWire).run t [⟨.writeReady 1, fun _ => [.wrote 9, .wrote 9]⟩] = some u ∧
      content (u.slot 1).accepted <+: content (t.slot 1).sent := by
  have hreach : ∀ s, (transport plainWire).run (.start []) (refused.take 2) = some s →
      (transport plainWire).Reachable s := fun s hrun => ⟨_, _, State.started_start [], hrun⟩
  have hspares : ∀ s : State Bytes, Spares 1 s ⟨.writeReady 1, fun _ => [.wrote 9, .wrote 9]⟩ := by
    rintro s ⟨⟩
  refine ⟨_, _, rfl, rfl, ?_⟩
  exact (last_frame plainWire_encodeFrame_ne_nil (hreach _ rfl) (c := 1) (by decide) rfl
    (.cons (hspares _) rfl (.nil _))).1

end Transport

end LibreDarwin
