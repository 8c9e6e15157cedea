import LibreDarwin.Transport.Run

/-!
# The outbound stream

What the kernel accepted from a connection is a faithful carriage of what
was enqueued for it (`outbound_integrity`), whatever the kernel answers
and however sends, broadcasts and write-readiness follow each other.
-/

namespace LibreDarwin

namespace Transport

open Wire Carriage

variable {Req : Type*} {W : Wire Req}

namespace Slot

/-- The frames enqueued for the connection. -/
def sent (σ : Slot Req) : List Chunk := sentIn σ.seen

/-- The pieces the kernel accepted from it. -/
def accepted (σ : Slot Req) : List Chunk := pieces (ioIn σ.seen)

variable {σ : Slot Req} {handlers : List HandlerId} {kernel : List IoResult}

/-- **A connection's account of its stream**, live or gone. -/
structure Carrying (σ : Slot Req) : Prop where
  faithful : Faithful σ.sent σ.accepted
  live : ∀ conn, σ.conn = some conn → conn.Carrying σ.sent σ.accepted
  nonempty : ∀ p ∈ σ.sent, p.data ≠ []

/-- An entry about neither, and a connection with the same queue, or
none. -/
theorem Carrying.quiet {τ : Slot Req} (h : σ.Carrying) (hsent : τ.sent = σ.sent)
    (haccepted : τ.accepted = σ.accepted)
    (hconn : ∀ conn', τ.conn = some conn' → ∃ conn, σ.conn = some conn ∧
      conn'.outQueue = conn.outQueue ∧ conn'.queuedBytes = conn.queuedBytes) : τ.Carrying where
  faithful := by rw [hsent, haccepted]; exact h.faithful
  live := by
    intro conn' hconn'
    obtain ⟨conn, hc, hq, hb⟩ := hconn conn' hconn'
    obtain ⟨hpend, hqb⟩ := h.live conn hc
    rw [hsent, haccepted]
    exact ⟨by rw [hq]; exact hpend, by rw [hb, hqb, hq]⟩
  nonempty := by rw [hsent]; exact h.nonempty

theorem sent_close (why : CloseReason) : (σ.close handlers why).sent = σ.sent := by
  unfold close
  cases hc : σ.conn with
  | none => rfl
  | some conn => simp [sent]

theorem accepted_close (why : CloseReason) : (σ.close handlers why).accepted = σ.accepted := by
  unfold close
  cases hc : σ.conn with
  | none => rfl
  | some conn => simp [accepted]

theorem sent_settle (out : Outcome) : (σ.settle handlers out).sent = σ.sent := by
  unfold settle
  cases out.conn with
  | ok conn => simp [sent]
  | error why => rw [sent_close]; simp [sent]

theorem accepted_settle (out : Outcome) :
    (σ.settle handlers out).accepted = σ.accepted ++ pieces out.io := by
  unfold settle
  cases out.conn with
  | ok conn => simp [accepted]
  | error why => rw [accepted_close]; simp [accepted]

/-- Taking a send path's outcome back keeps the account it kept. -/
theorem Carrying.settle {out : Outcome} (hfaithful : Faithful σ.sent (σ.accepted ++ pieces out.io))
    (hlive : ∀ conn', out.conn = .ok conn' → conn'.Carrying σ.sent (σ.accepted ++ pieces out.io))
    (hne : ∀ p ∈ σ.sent, p.data ≠ []) : (σ.settle handlers out).Carrying where
  faithful := by rw [sent_settle, accepted_settle]; exact hfaithful
  live := by
    intro conn' hconn'
    rw [sent_settle, accepted_settle]
    exact hlive conn' (conn_settle.1 hconn')
  nonempty := by rw [sent_settle]; exact hne

/-- **A send keeps the account**, of one frame more. -/
theorem Carrying.send (hW : ∀ m n, W.encodeFrame m n ≠ []) (h : σ.Carrying) {conn : Connection}
    (hconn : σ.conn = some conn) (m : Message) (fds : List Fd) :
    ((σ.log [.enqueued m (frameOf W m fds)]).settle handlers
      (conn.enqueueSend W.kMaxFrameFds (frameOf W m fds).data fds kernel)).Carrying := by
  have hne : ∀ p ∈ σ.sent ++ [⟨(frameOf W m fds).data, fds⟩], p.data ≠ [] := by
    intro p hp
    obtain hp | hp := List.mem_append.1 hp
    · exact h.nonempty p hp
    · rw [List.mem_singleton.1 hp]
      exact hW m fds.length
  have hsent : (σ.log [.enqueued m (frameOf W m fds)]).sent =
      σ.sent ++ [⟨(frameOf W m fds).data, fds⟩] := by simp [sent, frameOf]
  have haccepted : (σ.log [.enqueued m (frameOf W m fds)]).accepted = σ.accepted := by
    simp [accepted]
  obtain ⟨hfaithful, hlive⟩ := Connection.enqueueSend_spec (h.live conn hconn) hne
    W.kMaxFrameFds kernel
  refine Carrying.settle ?_ ?_ ?_
  · rw [hsent, haccepted]; exact hfaithful
  · rw [hsent, haccepted]; exact hlive
  · rw [hsent]; exact hne

/-- **Every move keeps the account.** -/
theorem Carrying.move (hW : ∀ m n, W.encodeFrame m n ≠ []) {c : ConnId} {m : Move Req}
    (h : σ.Carrying) (hlegal : m.Legal W c σ) : (σ.move W handlers kernel m).Carrying := by
  have heffect := effect_move W σ handlers kernel m
  generalize σ.move W handlers kernel m = τ at heffect
  cases heffect with
  | same => exact h
  | accepted id =>
    obtain ⟨-, rfl⟩ := hlegal
    refine ⟨Carried.nil.faithful, ?_, by simp [sent, sentIn, blank]⟩
    intro conn hconn
    obtain rfl := Option.some.inj hconn
    exact ⟨⟨[], rfl, Carried.nil⟩, rfl⟩
  | sent hconn m fds => exact h.send hW hconn m fds
  | broadcast hconn e kind htakes => exact h.send hW hconn (.event e) []
  | sentLast hconn m =>
    have hclosing : ({ σ with conn := some (Connection.closing _) }.log [.lastFrame]).Carrying :=
      h.quiet (by simp [sent]) (by simp [accepted]) fun conn' hconn' =>
        ⟨_, hconn, by cases hconn'; exact ⟨rfl, rfl⟩⟩
    exact hclosing.send hW rfl m []
  | wants hconn b =>
    exact h.quiet rfl rfl fun conn' hconn' => ⟨_, hconn, by cases hconn'; exact ⟨rfl, rfl⟩⟩
  | flushed hconn hwrite =>
    obtain ⟨hfaithful, hlive⟩ := Connection.flushWrites_spec (h.live _ hconn) h.nonempty
      W.kMaxFrameFds kernel
    exact Carrying.settle hfaithful hlive h.nonempty
  | read hconn hread frames =>
    refine h.quiet (by simp [sent]) (by simp [accepted]) fun conn' hconn' => ⟨_, hconn, ?_⟩
    obtain rfl := Option.some.inj hconn'
    split <;> exact ⟨rfl, rfl⟩
  | served hconn hopen caller frame req heard =>
    exact h.quiet (by simp [sent]) (by simp [accepted]) fun conn' hconn' =>
      ⟨conn', hconn', rfl, rfl⟩
  | stopped => exact h.quiet rfl rfl fun conn' hconn' => ⟨conn', hconn', rfl, rfl⟩
  | skipped hclosing caller frame req heard =>
    exact h.quiet rfl rfl fun conn' hconn' => ⟨conn', hconn', rfl, rfl⟩
  | gone hconn why => exact h.quiet rfl rfl fun conn' hconn' => ⟨conn', hconn', rfl, rfl⟩
  | closed hconn why =>
    exact h.quiet (by simp [sent]) (by simp [accepted]) fun conn' hconn' => by cases hconn'
  | timedOut hconn hsaw =>
    exact h.quiet (by simp [sent]) (by simp [accepted]) fun conn' hconn' => by cases hconn'

end Slot

/-- Every connection of every run keeps its account. -/
theorem reachable_carrying (hW : ∀ m n, W.encodeFrame m n ≠ []) {s : State Req}
    (h : (transport W).Reachable s) (c : ConnId) : (s.slot c).Carrying := by
  refine reachable_slot (P := fun _ σ => σ.Carrying) (fun c => ?_) (fun c σ m handlers kernel hσ hm =>
    hσ.move hW hm) h c
  refine ⟨Carried.nil.faithful, ?_, ?_⟩
  · rintro conn ⟨⟩
  · rintro p ⟨⟩

/-- What a pending queue leaves out of the log is the first frame's
share. -/
theorem Pending.whole {done log : List Chunk} {queue : List OutFrame}
    (h : Pending done log queue) : ∃ whole cur, log = whole ++ cur ∧ Carried done whole := by
  cases queue with
  | nil => exact ⟨log, [], by simp, h⟩
  | cons f queue =>
    obtain ⟨⟨whole, cur, hlog, hwhole, -⟩, -⟩ := h
    exact ⟨whole, cur, hlog, hwhole⟩

/-- **The outbound stream is whole.** In every reachable state, and for
every connection, live or gone: the bytes the kernel accepted are the
first bytes of the frames enqueued, in their order; every piece belongs to
one frame, and a frame's descriptors went with its first piece and no
other; and of a live connection, the frames that left the queue were
accepted whole, and `queuedBytes` is what the queue holds. -/
theorem outbound_integrity (hW : ∀ m n, W.encodeFrame m n ≠ []) {s : State Req}
    (h : (transport W).Reachable s) (c : ConnId) :
    Faithful (s.slot c).sent (s.slot c).accepted ∧
      content (s.slot c).accepted <+: content (s.slot c).sent ∧
      ∀ conn, s.connections[c]? = some conn →
        (∃ done, (s.slot c).sent = done ++ conn.outQueue.map OutFrame.packet ∧
          ∃ whole cur, (s.slot c).accepted = whole ++ cur ∧ Carried done whole) ∧
        conn.queuedBytes = queueBytes conn.outQueue := by
  obtain ⟨hfaithful, hlive, -⟩ := reachable_carrying hW h c
  refine ⟨hfaithful, hfaithful.content_prefix, fun conn hconn => ?_⟩
  obtain ⟨⟨done, hsent, hpend⟩, hqb⟩ := hlive conn hconn
  exact ⟨⟨done, hsent, hpend.whole⟩, hqb⟩

/-- A frame of a plain wire has a header. -/
theorem plainWire_encodeFrame_ne_nil (m : Message) (n : ℕ) : plainWire.encodeFrame m n ≠ [] := by
  simp [plainWire]

/-- A frame cut short by the kernel: two of its five bytes go out with its
descriptor, and the write source sends the rest without it. -/
def cutShort : List Input :=
  [⟨.accept true, fun _ => []⟩,
   ⟨.act (.sendTo 1 (.other [7, 9]) [5]), fun _ => [.eintr, .wrote 2]⟩,
   ⟨.writeReady 1, fun _ => [.wrote 9]⟩]

theorem outbound_integrity_cutShort :
    ∃ s, (transport plainWire).run (.start []) cutShort = some s ∧
      (s.slot 1).accepted = [⟨[3, 1], [5]⟩, ⟨[0, 7, 9], []⟩] ∧
      Faithful (s.slot 1).sent (s.slot 1).accepted :=
  ⟨_, rfl, rfl, (outbound_integrity plainWire_encodeFrame_ne_nil
    ⟨.start [], cutShort, State.started_start [], rfl⟩ 1).1⟩

end Transport

end LibreDarwin
