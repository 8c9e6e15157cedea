import LibreDarwin.Transport.Table
import LibreDarwin.Transport.Model.OperationChannel

/-!
# A client that keeps up

A client whose socket takes every write in full has an empty queue between
events, so no number of frames can close it. One frame can: `enqueueSend`
checks the byte bound before it writes anything, and `trySendFrame`
refuses a frame with more descriptors than the ancillary buffer holds.
`closed_by_send_iff` says that these frames, and a `sendThenClose`, are
the only sends that close such a client; `photos_close_the_client` is a
result the operation channel builds that is one of them.
-/

namespace LibreDarwin

namespace Transport

open Wire Carriage

variable {Req : Type*} {W : Wire Req}

/-- The kernel took all it was offered, or was only interrupted. -/
def Io.Full : Io → Prop
  | .accepted chunk offered => chunk.data.length = offered
  | .interrupted => True
  | .blocked => False
  | .failed => False

instance : DecidablePred Io.Full := fun
  | .accepted chunk offered => inferInstanceAs (Decidable (chunk.data.length = offered))
  | .interrupted => inferInstanceAs (Decidable True)
  | .blocked => inferInstanceAs (Decidable False)
  | .failed => inferInstanceAs (Decidable False)

/-- A frame within the bounds of one frame. -/
def Fits (W : Wire Req) (frame : Chunk) : Prop :=
  frame.data.length ≤ kMaxQueuedBytesPerConnection ∧ frame.rides.length ≤ W.kMaxFrameFds

instance (frame : Chunk) : Decidable (Fits W frame) := inferInstanceAs (Decidable (_ ∧ _))

/-- The calls of `closeConnection` a send makes. -/
inductive CloseReason.BySend : CloseReason → Prop
  | queueBound : BySend .queueBound
  | sendError : BySend .sendError
  | drained : BySend .drained

/-! A kernel that takes everything leaves nothing of a frame, nor of a
queue of frames that fit. -/

theorem sendLoop_full {f : OutFrame} {kernel : List IoResult} (hle : f.sent ≤ f.bytes.length)
    (h : ∀ io ∈ (sendLoop f kernel).io, io.Full) : (sendLoop f kernel).state = .sent := by
  induction kernel generalizing f with
  | nil =>
    unfold sendLoop at h ⊢
    split_ifs at h ⊢ with hlt
    · exact (h .blocked (by simp)).elim
    · rfl
  | cons r rest ih =>
    unfold sendLoop at h ⊢
    split_ifs at h ⊢ with hlt
    · cases r with
      | eintr => exact ih hle fun io hio => h io (List.mem_cons_of_mem _ hio)
      | eagain => exact (h .blocked (by simp)).elim
      | error => exact (h .failed (by simp)).elim
      | wrote count =>
        refine ih ?_ fun io hio => h io (List.mem_cons_of_mem _ hio)
        simp only [OutFrame.advance, OutFrame.offer, List.length_drop]
        omega
    · rfl

theorem flushQueue_full {maxFds : ℕ} {queue : List OutFrame} {n : ℕ} {kernel : List IoResult}
    (hfresh : ∀ f ∈ queue, f.sent ≤ f.bytes.length ∧ f.fds.length ≤ maxFds)
    (h : ∀ io ∈ (flushQueue maxFds queue n kernel).io, io.Full) :
    (flushQueue maxFds queue n kernel).ended = .drained := by
  induction queue generalizing n kernel with
  | nil => rfl
  | cons f queue ih =>
    obtain ⟨hle, hfds⟩ := hfresh f List.mem_cons_self
    have htry : trySendFrame maxFds f kernel = sendLoop f kernel := by
      rw [trySendFrame, if_neg (by omega)]
    cases hst : (trySendFrame maxFds f kernel).state with
    | sent =>
      rw [flushQueue_sent hst] at h ⊢
      exact ih (fun g hg => hfresh g (List.mem_cons_of_mem f hg)) fun io hio =>
        h io (List.mem_append_right _ hio)
    | wouldBlock =>
      rw [flushQueue_wouldBlock hst] at h
      have := sendLoop_full hle (htry ▸ h)
      rw [← htry, hst] at this
      cases this
    | error =>
      rw [flushQueue_error hst] at h
      have := sendLoop_full hle (htry ▸ h)
      rw [← htry, hst] at this
      cases this

namespace Connection

variable {conn : Connection} {maxFds : ℕ} {framed : Bytes} {fds : List Fd}
  {kernel : List IoResult}

/-- **A frame that fits, to an idle client that keeps up**, is written at
once; the connection is as it was, or closed if it was on its way out. -/
theorem enqueueSend_full (hqueue : conn.outQueue = []) (hbytes : conn.queuedBytes = 0)
    (hlen : framed.length ≤ kMaxQueuedBytesPerConnection) (hfds : fds.length ≤ maxFds)
    (h : ∀ io ∈ (conn.enqueueSend maxFds framed fds kernel).io, io.Full) :
    (conn.enqueueSend maxFds framed fds kernel).conn =
      if conn.closeWhenDrained then .error .drained
      else .ok { conn with outQueue := [], queuedBytes := 0, writeSource := false } := by
  have hbound : ¬ (conn.push framed fds).OverBound := by
    simp only [OverBound, Connection.push, hqueue, hbytes, kMaxQueuedFrames, List.nil_append,
      List.length_singleton]
    omega
  have hpush : (conn.push framed fds).outQueue = [.fresh framed fds] := by
    simp [Connection.push, hqueue]
  have hn : (conn.push framed fds).queuedBytes = framed.length := by
    simp [Connection.push, hbytes]
  rw [enqueueSend, if_neg hbound] at h ⊢
  rw [flushWrites_io, hpush, hn] at h
  have hended := flushQueue_full (by simpa [OutFrame.fresh] using hfds) h
  have hst : (trySendFrame maxFds (.fresh framed fds) kernel).state = .sent := by
    cases hst : (trySendFrame maxFds (.fresh framed fds) kernel).state with
    | sent => rfl
    | wouldBlock => rw [flushQueue_wouldBlock hst] at hended; cases hended
    | error => rw [flushQueue_error hst] at hended; cases hended
  simp only [flushWrites, hpush, hn, flushQueue_sent hst, flushQueue]
  simp only [Connection.push, OutFrame.fresh, Nat.sub_self, List.append_nil]
  split <;> rfl

/-- **A frame that does not fit** closes even an idle client. -/
theorem enqueueSend_unfit (hqueue : conn.outQueue = []) (hbytes : conn.queuedBytes = 0)
    (h : ¬ (framed.length ≤ kMaxQueuedBytesPerConnection ∧ fds.length ≤ maxFds)) :
    ∃ why, (conn.enqueueSend maxFds framed fds kernel).conn = .error why ∧ why.BySend := by
  by_cases hbound : (conn.push framed fds).OverBound
  · exact ⟨.queueBound, by rw [enqueueSend, if_pos hbound], .queueBound⟩
  · have hfds : maxFds < fds.length := by
      simp only [OverBound, Connection.push, hqueue, hbytes] at hbound
      omega
    have hst : (trySendFrame maxFds (.fresh framed fds) kernel).state = .error := by
      simp [trySendFrame, OutFrame.fresh, hfds]
    refine ⟨.sendError, ?_, .sendError⟩
    rw [enqueueSend, if_neg hbound]
    simp [flushWrites, Connection.push, hqueue, flushQueue_error hst]

end Connection

namespace Slot

variable {σ : Slot Req} {handlers : List HandlerId} {kernel : List IoResult} {c : ConnId}

/-- A send closed the connection. -/
def ClosedBySend (σ : Slot Req) : Prop := ∃ why, why.BySend ∧ .closed why ∈ σ.seen

/-- A frame was enqueued that does not fit, or a last frame was. -/
def Overtaxed (W : Wire Req) (σ : Slot Req) : Prop :=
  (∃ frame ∈ sentIn σ.seen, ¬ Fits W frame) ∨ .lastFrame ∈ σ.seen

/-- **A client that keeps up**: nothing is ever left queued, and a send has
closed it exactly when it was given what it cannot take. -/
structure KeptUp (W : Wire Req) (σ : Slot Req) : Prop where
  idle : ∀ conn, σ.conn = some conn → conn.outQueue = [] ∧ conn.queuedBytes = 0 ∧
    conn.writeSource = false ∧ conn.closeWhenDrained = false ∧ ¬ σ.Overtaxed W
  closed : σ.ClosedBySend ↔ σ.Overtaxed W

/-- Entries that say nothing of either. -/
theorem KeptUp.quiet {τ : Slot Req} (h : σ.KeptUp W) {obs : List (Obs Req)}
    (hseen : τ.seen = σ.seen ++ obs) (hsent : sentIn obs = []) (hlast : .lastFrame ∉ obs)
    (hclosed : ∀ why, why.BySend → .closed why ∉ obs)
    (hconn : ∀ conn', τ.conn = some conn' → ∃ conn, σ.conn = some conn ∧
      conn'.outQueue = conn.outQueue ∧ conn'.queuedBytes = conn.queuedBytes ∧
      conn'.writeSource = conn.writeSource ∧
      conn'.closeWhenDrained = conn.closeWhenDrained) : τ.KeptUp W := by
  have hover : τ.Overtaxed W ↔ σ.Overtaxed W := by
    simp [Overtaxed, hseen, hsent, hlast]
  have hby : τ.ClosedBySend ↔ σ.ClosedBySend := by
    simp only [ClosedBySend, hseen, List.mem_append]
    constructor
    · rintro ⟨why, hwhy, hmem | hmem⟩
      · exact ⟨why, hwhy, hmem⟩
      · exact absurd hmem (hclosed why hwhy)
    · rintro ⟨why, hwhy, hmem⟩
      exact ⟨why, hwhy, .inl hmem⟩
  refine ⟨fun conn' hconn' => ?_, by rw [hby, hover, h.closed]⟩
  obtain ⟨conn, hc, hq, hb, hw, hclose⟩ := hconn conn' hconn'
  obtain ⟨hidle, hzero, hoff, hopen, hnot⟩ := h.idle conn hc
  exact ⟨hq.trans hidle, hb.trans hzero, hw.trans hoff, hclose.trans hopen, hover.not.2 hnot⟩

/-- The kernel took everything of a trace: so it did of its beginning. -/
theorem full_of_prefix {a b : List (Obs Req)} (hle : a <+: b) (h : ∀ io ∈ ioIn b, io.Full) :
    ∀ io ∈ ioIn a, io.Full := by
  obtain ⟨rest, rfl⟩ := hle
  intro io hio
  refine h io ?_
  rw [ioIn_append]
  exact List.mem_append_left _ hio

/-- And of the send path that ended it. -/
theorem full_of_settle {out : Outcome} (h : ∀ io ∈ ioIn (σ.settle handlers out).seen, io.Full) :
    ∀ io ∈ out.io, io.Full := by
  intro io hio
  obtain ⟨rest, -, hseen⟩ := seen_settle σ handlers out
  refine h io ?_
  rw [hseen]
  simp [hio]

/-- **A send to an idle client that keeps up.** It stays idle, or it is
closed by the send, having been given what it cannot take. -/
theorem KeptUp.send {conn : Connection} (hconn : σ.conn = some conn)
    (hidle : conn.outQueue = []) (hzero : conn.queuedBytes = 0)
    (hopen : conn.closeWhenDrained = false ∧ ¬ σ.Overtaxed W ∧ ¬ σ.ClosedBySend ∨
      conn.closeWhenDrained = true ∧ .lastFrame ∈ σ.seen) (m : Message) (fds : List Fd)
    (hfull : ∀ io ∈ ioIn ((σ.log [.enqueued m (frameOf W m fds)]).settle handlers
      (conn.enqueueSend W.kMaxFrameFds (frameOf W m fds).data fds kernel)).seen, io.Full) :
    ((σ.log [.enqueued m (frameOf W m fds)]).settle handlers
      (conn.enqueueSend W.kMaxFrameFds (frameOf W m fds).data fds kernel)).KeptUp W := by
  have hio := full_of_settle hfull
  have hconn' : (σ.log [.enqueued m (frameOf W m fds)]).conn = some conn := hconn
  by_cases hfits : (frameOf W m fds).data.length ≤ kMaxQueuedBytesPerConnection ∧
      fds.length ≤ W.kMaxFrameFds
  · have hout := Connection.enqueueSend_full hidle hzero hfits.1 hfits.2 hio
    rcases hopen with ⟨hopen, hnot, hby⟩ | ⟨hclosing, hlast⟩
    · rw [hopen, if_neg (by decide)] at hout
      rw [settle_ok hout]
      have hover : ∀ conn', ¬ Overtaxed W (⟨some conn', σ.inbound,
          (σ.log [.enqueued m (frameOf W m fds)]).seen ++ (conn.enqueueSend W.kMaxFrameFds
            (frameOf W m fds).data fds kernel).io.map .io⟩ : Slot Req) := by
        intro conn'
        rintro (⟨frame, hframe, hunfit⟩ | hlast)
        · simp only [seen_log, sentIn_append, sentIn_enqueued, sentIn_io, List.append_nil,
            List.mem_append, List.mem_singleton] at hframe
          rcases hframe with hframe | rfl
          · exact hnot (.inl ⟨frame, hframe, hunfit⟩)
          · exact hunfit hfits
        · exact hnot (.inr (by simpa using hlast))
      refine ⟨?_, iff_of_false ?_ (hover _)⟩
      · rintro _ ⟨⟩
        exact ⟨rfl, rfl, rfl, rfl, hover _⟩
      · rintro ⟨why, hwhy, hmem⟩
        exact hby ⟨why, hwhy, by simpa using hmem⟩
    · rw [hclosing, if_pos rfl] at hout
      rw [settle_error hconn' hout]
      refine ⟨by rintro _ ⟨⟩, iff_of_true ⟨.drained, .drained, ?_⟩ (.inr ?_)⟩
      · simp [farewell]
      · simp [hlast]
  · obtain ⟨why, hout, hwhy⟩ := Connection.enqueueSend_unfit hidle hzero hfits
    rw [settle_error hconn' hout]
    refine ⟨by rintro _ ⟨⟩, iff_of_true ⟨why, hwhy, ?_⟩ (.inl ⟨frameOf W m fds, ?_, hfits⟩)⟩
    · simp [farewell]
    · rw [sentIn_append, sentIn_append, seen_log, sentIn_append, sentIn_enqueued]
      simp

/-- **Every move keeps a client that keeps up so.** -/
theorem KeptUp.move {m : Move Req} (h : σ.KeptUp W) (hlegal : m.Legal W c σ)
    (hfull : ∀ io ∈ ioIn (σ.move W handlers kernel m).seen, io.Full) :
    (σ.move W handlers kernel m).KeptUp W := by
  have heffect := effect_move W σ handlers kernel m
  generalize σ.move W handlers kernel m = τ at heffect hfull
  have hopen : ∀ conn, σ.conn = some conn → conn.closeWhenDrained = false ∧ ¬ σ.Overtaxed W ∧
      ¬ σ.ClosedBySend := by
    intro conn hconn
    obtain ⟨-, -, -, hopen, hnot⟩ := h.idle conn hconn
    exact ⟨hopen, hnot, h.closed.not.2 hnot⟩
  cases heffect with
  | same => exact h
  | accepted id =>
    obtain ⟨-, rfl⟩ := hlegal
    have hover : ¬ Overtaxed W ({ (blank : Slot Req) with conn := some (.accepted id) }.log
        [.connected]) := by
      simp [Overtaxed, blank, sentIn]
    refine ⟨?_, iff_of_false ?_ hover⟩
    · rintro _ ⟨⟩
      exact ⟨rfl, rfl, rfl, rfl, hover⟩
    · simp [ClosedBySend, blank]
  | sent hconn m fds =>
    obtain ⟨hidle, hzero, -⟩ := h.idle _ hconn
    exact .send hconn hidle hzero (.inl (hopen _ hconn)) m fds hfull
  | broadcast hconn e kind htakes =>
    obtain ⟨hidle, hzero, -⟩ := h.idle _ hconn
    exact .send hconn hidle hzero (.inl (hopen _ hconn)) (.event e) [] hfull
  | @sentLast conn hconn m =>
    obtain ⟨hidle, hzero, -⟩ := h.idle _ hconn
    have hidle : conn.closing.outQueue = [] := hidle
    have hzero : conn.closing.queuedBytes = 0 := hzero
    refine .send rfl hidle hzero (.inr ⟨rfl, ?_⟩) m [] hfull
    rw [seen_log]
    simp
  | wants hconn b =>
    refine h.quiet (List.append_nil _).symm rfl (by simp) (by simp) ?_
    rintro _ ⟨⟩
    exact ⟨_, hconn, rfl, rfl, rfl, rfl⟩
  | flushed hconn hwrite =>
    obtain ⟨-, -, hoff, -⟩ := h.idle _ hconn
    rw [hwrite] at hoff
    cases hoff
  | read hconn hread frames =>
    refine h.quiet rfl (sentIn_delivered frames) (by simp) (by simp) ?_
    rintro _ ⟨⟩
    exact ⟨_, hconn, by split <;> exact ⟨rfl, rfl, rfl, rfl⟩⟩
  | served hconn hopen caller frame req heard =>
    refine h.quiet rfl (sentIn_served heard caller req frame.fds) ?_ ?_ fun conn' hconn' =>
      ⟨conn', hconn', rfl, rfl, rfl, rfl⟩
    · cases heard <;> simp
    · cases heard <;> simp
  | stopped =>
    exact h.quiet (List.append_nil _).symm rfl (by simp) (by simp) fun conn' hconn' =>
      ⟨conn', hconn', rfl, rfl, rfl, rfl⟩
  | skipped hclosing caller frame req heard =>
    exact h.quiet (List.append_nil _).symm rfl (by simp) (by simp) fun conn' hconn' =>
      ⟨conn', hconn', rfl, rfl, rfl, rfl⟩
  | gone hconn why =>
    exact h.quiet (List.append_nil _).symm rfl (by simp) (by simp) fun conn' hconn' =>
      ⟨conn', hconn', rfl, rfl, rfl, rfl⟩
  | closed hconn why =>
    refine h.quiet rfl (sentIn_farewell _ _ _) (by simp [farewell]) ?_ (by rintro _ ⟨⟩)
    rintro _ hwhy hmem
    obtain rfl := by simpa [farewell] using hmem
    rcases hlegal with rfl | rfl <;> cases hwhy
  | timedOut hconn hsaw =>
    refine h.quiet rfl (sentIn_farewell _ _ _) (by simp [farewell]) ?_ (by rintro _ ⟨⟩)
    rintro _ hwhy hmem
    obtain rfl := by simpa [farewell] using hmem
    cases hwhy

end Slot

theorem reachable_keptUp {s : State Req} (hs : (transport W).Reachable s) (c : ConnId)
    (hfull : ∀ io ∈ ioIn (s.seen c), io.Full) : (s.slot c).KeptUp W := by
  refine reachable_slot (W := W) (P := fun _ σ => (∀ io ∈ ioIn σ.seen, io.Full) → σ.KeptUp W)
    ?_ ?_ hs c hfull
  · intro _ _
    refine ⟨by rintro _ ⟨⟩, iff_of_false ?_ ?_⟩
    · simp [Slot.ClosedBySend, Slot.blank]
    · simp [Slot.Overtaxed, Slot.blank, sentIn]
  · intro c σ m handlers kernel hkept hlegal hfull
    have hseen := (Slot.effect_move W σ handlers kernel m).seen
    exact (hkept (Slot.full_of_prefix hseen hfull)).move hlegal hfull

end Transport

namespace OperationChannel

open Wire Transport

variable {anonFdFromBytes : Bytes → Option Fd}

/-- One descriptor for each item. -/
theorem materialize_length {fds : List Fd} {items : List (String × Bytes)}
    {out : List (String × ℕ) × List Fd} (h : materialize anonFdFromBytes fds items = some out) :
    out.2.length = fds.length + items.length := by
  induction items generalizing fds out with
  | nil =>
    obtain rfl := Option.some.inj h
    rfl
  | cons item items ih =>
    obtain ⟨fd, -, hmap⟩ := Option.bind_eq_some_iff.1 h
    obtain ⟨rest, hrest, rfl⟩ := Option.map_eq_some_iff.1 hmap
    have hlen := ih hrest
    rw [List.length_append, List.length_singleton] at hlen
    rw [List.length_cons]
    show rest.2.length = _
    omega

/-- **The descriptors of a result** are as many as its payload needs. -/
theorem emitResult_descriptors {op : ℕ} {payload : ResultPayload} {m : Message} {fds : List Fd}
    (h : emitResult anonFdFromBytes op payload = some (m, fds)) :
    fds.length = payload.descriptors := by
  cases payload with
  | cardRead identity => cases h; rfl
  | certs certs => cases h; rfl
  | credentials body => cases h; rfl
  | photos photos =>
    obtain ⟨out, hout, heq⟩ := Option.map_eq_some_iff.1 h
    have := materialize_length hout
    cases heq
    simpa [ResultPayload.descriptors] using this
  | artifact bytes =>
    obtain ⟨fd, -, heq⟩ := Option.map_eq_some_iff.1 h
    cases heq
    rfl
  | batch rows =>
    obtain ⟨out, hout, heq⟩ := Option.map_eq_some_iff.1 h
    have := materialize_length hout
    cases heq
    simpa [ResultPayload.descriptors] using this

end OperationChannel

namespace Transport

open Wire OperationChannel

variable {Req : Type*} {W : Wire Req}

/-- **What closes a client that keeps up.** In every run in which the
kernel took each write to a connection in full, a send has closed the
connection exactly when a frame that does not fit was enqueued to it, or
a last frame was. A result of the operation channel fits when its bytes
do and its payload needs no more descriptors than one frame takes. -/
theorem closed_by_send_iff {s : State Req} (hs : (transport W).Reachable s) (c : ConnId)
    (hfull : ∀ io ∈ ioIn (s.seen c), io.Full) :
    ((∃ why, why.BySend ∧ .closed why ∈ s.seen c) ↔
      (∃ frame ∈ sentIn (s.seen c), ¬ Fits W frame) ∨ .lastFrame ∈ s.seen c) ∧
    ∀ anonFdFromBytes op payload m fds,
      emitResult anonFdFromBytes op payload = some (m, fds) →
      (Fits W (frameOf W m fds) ↔
        (W.encodeFrame m payload.descriptors).length ≤ kMaxQueuedBytesPerConnection ∧
          payload.descriptors ≤ W.kMaxFrameFds) := by
  refine ⟨(reachable_keptUp hs c hfull).closed, ?_⟩
  intro anonFdFromBytes op payload m fds h
  rw [Fits, frameOf, emitResult_descriptors h]

/-- A client that connects and gets the result of an operation. -/
def resultFor (m : Message) (fds : List Fd) : List Input :=
  [⟨.accept true, fun _ => []⟩, ⟨.act (.sendTo 1 m fds), fun _ => [.wrote 9]⟩]

/-- A result that fits does not close the client. -/
theorem closed_by_send_certificates :
    ∃ s, (transport plainWire).run (.start []) (resultFor (.opResultReady 5 (.certificates [[1]])) [])
        = some s ∧
      ∀ why, why.BySend → .closed why ∉ s.seen 1 := by
  have hreach : ∀ s, (transport plainWire).run (.start []) (resultFor
      (.opResultReady 5 (.certificates [[1]])) []) = some s → (transport plainWire).Reachable s :=
    fun s hrun => ⟨_, _, State.started_start [], hrun⟩
  refine ⟨_, rfl, fun why hwhy hmem => ?_⟩
  have hover := (closed_by_send_iff (hreach _ rfl) 1 (by decide)).1.1 ⟨why, hwhy, hmem⟩
  revert hover
  decide

/-- **Seventeen photos close a client that took everything.** The operation
channel gives each a descriptor, one more than the wire takes. -/
theorem photos_close_the_client :
    ∃ m fds s, emitResult (fun _ => some 0) 5 (.photos (List.replicate 17 ("portrait", [1]))) =
        some (m, fds) ∧
      (transport plainWire).run (.start []) (resultFor m fds) = some s ∧
      (∀ io ∈ ioIn (s.seen 1), io.Full) ∧ .closed .sendError ∈ s.seen 1 := by
  refine ⟨_, _, _, rfl, rfl, ?_, ?_⟩
  · decide
  · decide

end Transport

end LibreDarwin
