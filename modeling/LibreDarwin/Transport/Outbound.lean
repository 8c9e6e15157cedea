import LibreDarwin.Transport.Model.Connection

/-!
# What leaves the queue

The three functions of the send path, each against the account of
`Carriage`: `sendLoop_spec` for one frame, `flushQueue_spec` for the
queue, `flushWrites_spec` and `enqueueSend_spec` for the connection. The
invariant is `Pending`: the frames that left the queue are carried whole,
the first one queued is under way, and the others have not been touched.
-/

namespace LibreDarwin

namespace Transport

open Wire Carriage

/-- The pieces the kernel accepted. -/
def pieces (io : List Io) : List Chunk :=
  io.filterMap fun
    | .accepted chunk _ => some chunk
    | _ => none

@[simp] theorem pieces_nil : pieces [] = [] := rfl

@[simp] theorem pieces_append (a b : List Io) : pieces (a ++ b) = pieces a ++ pieces b :=
  List.filterMap_append

@[simp] theorem pieces_accepted (chunk : Chunk) (of : ℕ) (io : List Io) :
    pieces (.accepted chunk of :: io) = chunk :: pieces io := rfl

@[simp] theorem pieces_interrupted (io : List Io) : pieces (.interrupted :: io) = pieces io := rfl

@[simp] theorem pieces_blocked (io : List Io) : pieces (.blocked :: io) = pieces io := rfl

@[simp] theorem pieces_failed (io : List Io) : pieces (.failed :: io) = pieces io := rfl

/-- A frame as the packet it was enqueued as. -/
def OutFrame.packet (f : OutFrame) : Chunk := ⟨f.bytes, f.fds⟩

@[simp] theorem OutFrame.packet_fresh (bytes : Bytes) (fds : List Fd) :
    (OutFrame.fresh bytes fds).packet = ⟨bytes, fds⟩ := rfl

@[simp] theorem OutFrame.packet_advance (f : OutFrame) (w : ℕ) :
    (f.advance w).packet = f.packet := rfl

/-- A queued frame's progress. -/
def OutFrame.Underway (f : OutFrame) (done log : List Chunk) : Prop :=
  Sending done f.packet f.sent f.ancillarySent log

/-- What an outcome of `trySendFrame` says of the frame it was given: the
frame is out, all of it, or it is still the frame that was enqueued and as
far as the pieces say. -/
structure Sent.Accounts (f : OutFrame) (done log : List Chunk) (out : Sent) : Prop where
  bytes : out.frame.bytes = f.bytes
  sent : out.state = .sent → Carried (done ++ [f.packet]) (log ++ pieces out.io)
  stopped : out.state ≠ .sent →
    out.frame.fds = f.fds ∧ out.frame.Underway done (log ++ pieces out.io)

/-- **One frame.** -/
theorem sendLoop_spec {f : OutFrame} {done log : List Chunk} (h : f.Underway done log)
    (hne : f.bytes ≠ []) (kernel : List IoResult) :
    (sendLoop f kernel).Accounts f done log := by
  induction kernel generalizing f log with
  | nil =>
    unfold sendLoop
    split_ifs with hlt
    · exact ⟨rfl, by simp, fun _ => ⟨rfl, by simpa using h⟩⟩
    · exact ⟨rfl, fun _ => by simpa using h.finish (Nat.le_of_not_lt hlt) hne, by simp⟩
  | cons r rest ih =>
    unfold sendLoop
    split_ifs with hlt
    · cases r with
      | eintr =>
        obtain ⟨hbytes, hsent, hstopped⟩ := ih h hne
        exact ⟨hbytes, hsent, hstopped⟩
      | eagain => exact ⟨rfl, by simp, fun _ => ⟨rfl, by simpa using h⟩⟩
      | error => exact ⟨rfl, by simp, fun _ => ⟨rfl, by simpa using h⟩⟩
      | wrote count =>
        -- the frame the loop goes on with is the same packet, further on
        have hw : min count f.offer.length ≤ f.packet.data.length - f.sent := by
          simp only [OutFrame.offer, OutFrame.packet, List.length_drop]
          exact Nat.min_le_right _ _
        have hnext : (f.advance (min count f.offer.length)).Underway done
            (log ++ [f.piece (min count f.offer.length)]) := Sending.accept h hw
        obtain ⟨hbytes, hsent, hstopped⟩ := ih hnext hne
        refine ⟨hbytes, fun hst => ?_, fun hst => ⟨(hstopped hst).1, ?_⟩⟩
        · simpa using hsent hst
        · simpa using (hstopped hst).2
    · exact ⟨rfl, fun _ => by simpa using h.finish (Nat.le_of_not_lt hlt) hne, by simp⟩

theorem trySendFrame_spec {f : OutFrame} {done log : List Chunk} (h : f.Underway done log)
    (hne : f.bytes ≠ []) (maxFds : ℕ) (kernel : List IoResult) :
    (trySendFrame maxFds f kernel).Accounts f done log := by
  unfold trySendFrame
  split_ifs with hmax
  · exact ⟨rfl, by simp, fun _ => ⟨rfl, by simpa using h⟩⟩
  · exact sendLoop_spec h hne kernel

/-- A frame that stopped short is the packet it was. -/
theorem Sent.Accounts.packet {f : OutFrame} {done log : List Chunk} {out : Sent}
    (h : out.Accounts f done log) (hst : out.state ≠ .sent) : out.frame.packet = f.packet := by
  rw [OutFrame.packet, h.bytes, (h.stopped hst).1]; rfl

/-- **The queue's invariant.** -/
def Pending (done : List Chunk) (log : List Chunk) : List OutFrame → Prop
  | [] => Carried done log
  | f :: queue => f.Underway done log ∧ ∀ g ∈ queue, g = .fresh g.bytes g.fds

/-- The bytes a queue holds. -/
def queueBytes (queue : List OutFrame) : ℕ := (queue.map fun f => f.bytes.length).sum

@[simp] theorem queueBytes_nil : queueBytes [] = 0 := rfl

@[simp] theorem queueBytes_cons (f : OutFrame) (queue : List OutFrame) :
    queueBytes (f :: queue) = f.bytes.length + queueBytes queue := rfl

@[simp] theorem queueBytes_append (a b : List OutFrame) :
    queueBytes (a ++ b) = queueBytes a + queueBytes b := by
  simp [queueBytes]

/-- The frame behind the one that is out is the next to be started. -/
theorem Pending.next {done log : List Chunk} {queue : List OutFrame} (h : Carried done log)
    (hq : ∀ g ∈ queue, g = .fresh g.bytes g.fds) : Pending done log queue := by
  cases queue with
  | nil => exact h
  | cons f queue =>
    have hf : f = .fresh f.bytes f.fds := hq f List.mem_cons_self
    refine ⟨?_, fun g hg => hq g (List.mem_cons_of_mem f hg)⟩
    rw [hf]
    exact h.start _

/-- A frame is queued behind what is pending. -/
theorem Pending.push {done log : List Chunk} {queue : List OutFrame} (h : Pending done log queue)
    (bytes : Bytes) (fds : List Fd) : Pending done log (queue ++ [.fresh bytes fds]) := by
  cases queue with
  | nil => exact Pending.next h (by simp [OutFrame.fresh])
  | cons f queue =>
    refine ⟨h.1, fun g hg => ?_⟩
    obtain hg | hg := List.mem_append.1 hg
    · exact h.2 g hg
    · rw [List.mem_singleton.1 hg]; rfl

/-- What is out while a queue is pending is a faithful carriage of all that
was enqueued. -/
theorem Pending.faithful {done log : List Chunk} {queue : List OutFrame}
    (h : Pending done log queue) : Faithful (done ++ queue.map OutFrame.packet) log := by
  cases queue with
  | nil => simpa using Carried.faithful h
  | cons f queue => simpa using h.1.faithful.append (queue.map OutFrame.packet)

section

variable {maxFds : ℕ} {f : OutFrame} {queue : List OutFrame} {n : ℕ} {kernel : List IoResult}

theorem flushQueue_sent (h : (trySendFrame maxFds f kernel).state = .sent) :
    flushQueue maxFds (f :: queue) n kernel =
      let rest := flushQueue maxFds queue (n - f.bytes.length) (trySendFrame maxFds f kernel).kernel
      { rest with io := (trySendFrame maxFds f kernel).io ++ rest.io } := by
  rw [flushQueue]; simp only [h]

theorem flushQueue_wouldBlock (h : (trySendFrame maxFds f kernel).state = .wouldBlock) :
    flushQueue maxFds (f :: queue) n kernel =
      ⟨.blocked, (trySendFrame maxFds f kernel).frame :: queue, n,
        (trySendFrame maxFds f kernel).io⟩ := by
  rw [flushQueue]; simp only [h]

theorem flushQueue_error (h : (trySendFrame maxFds f kernel).state = .error) :
    flushQueue maxFds (f :: queue) n kernel =
      ⟨.failed, (trySendFrame maxFds f kernel).frame :: queue, n,
        (trySendFrame maxFds f kernel).io⟩ := by
  rw [flushQueue]; simp only [h]

end

/-- What the loop of `flushWrites` says of the queue it was given. Some
frames left it from the front, whole; what is left is pending; and
`queuedBytes` is still what the queue holds. -/
structure QueueFlush.Accounts (queue : List OutFrame) (done log : List Chunk)
    (out : QueueFlush) : Prop where
  left : ∃ left, queue.map OutFrame.packet = left ++ out.queue.map OutFrame.packet ∧
    Pending (done ++ left) (log ++ pieces out.io) out.queue
  queuedBytes : out.queuedBytes = queueBytes out.queue

/-- **The queue.** -/
theorem flushQueue_spec {queue : List OutFrame} {done log : List Chunk}
    (h : Pending done log queue) (hne : ∀ f ∈ queue, f.bytes ≠ []) (maxFds : ℕ)
    (kernel : List IoResult) :
    (flushQueue maxFds queue (queueBytes queue) kernel).Accounts queue done log := by
  induction queue generalizing done log kernel with
  | nil => exact ⟨⟨[], rfl, by simpa [flushQueue] using h⟩, rfl⟩
  | cons f queue ih =>
    have hf := trySendFrame_spec h.1 (hne f List.mem_cons_self) maxFds kernel
    have hstopped : ∀ ended, (trySendFrame maxFds f kernel).state ≠ .sent →
        (QueueFlush.mk ended ((trySendFrame maxFds f kernel).frame :: queue)
          (queueBytes (f :: queue)) (trySendFrame maxFds f kernel).io).Accounts
            (f :: queue) done log := by
      intro ended hstop
      refine ⟨⟨[], by simp [hf.packet hstop], ?_⟩, by simp [hf.bytes]⟩
      simpa [Pending] using ⟨(hf.stopped hstop).2, h.2⟩
    cases hst : (trySendFrame maxFds f kernel).state with
    | sent =>
      have hsub : queueBytes (f :: queue) - f.bytes.length = queueBytes queue := by
        rw [queueBytes_cons]; omega
      obtain ⟨⟨left, hleft, hpend⟩, hqb⟩ := ih (Pending.next (hf.sent hst) h.2)
        (fun g hg => hne g (List.mem_cons_of_mem f hg)) (trySendFrame maxFds f kernel).kernel
      rw [flushQueue_sent hst, hsub]
      refine ⟨⟨f.packet :: left, ?_, ?_⟩, hqb⟩
      · rw [List.map_cons, List.cons_append, hleft]
      · simpa using hpend
    | wouldBlock =>
      rw [flushQueue_wouldBlock hst]
      exact hstopped .blocked (by rw [hst]; decide)
    | error =>
      rw [flushQueue_error hst]
      exact hstopped .failed (by rw [hst]; decide)

/-- The loop of `flushWrites` only shortens the queue, and drains it exactly
when it says so. -/
theorem flushQueue_shape (maxFds : ℕ) (queue : List OutFrame) (n : ℕ) (kernel : List IoResult) :
    (flushQueue maxFds queue n kernel).queuedBytes ≤ n ∧
      (flushQueue maxFds queue n kernel).queue.length ≤ queue.length ∧
      ((flushQueue maxFds queue n kernel).ended = .drained ↔
        (flushQueue maxFds queue n kernel).queue = []) := by
  induction queue generalizing n kernel with
  | nil => simp [flushQueue]
  | cons f queue ih =>
    cases hst : (trySendFrame maxFds f kernel).state with
    | sent =>
      rw [flushQueue_sent hst]
      obtain ⟨hqb, hlen, hdrained⟩ := ih (n - f.bytes.length) (trySendFrame maxFds f kernel).kernel
      refine ⟨by dsimp only; omega, ?_, hdrained⟩
      rw [List.length_cons]
      dsimp only
      omega
    | wouldBlock => rw [flushQueue_wouldBlock hst]; simp
    | error => rw [flushQueue_error hst]; simp

/-! The connection: the same, for `flushWrites` and `enqueueSend`. -/

namespace Connection

/-- **A live connection's account of its stream**, against all that was
enqueued for it and all the pieces that left. -/
structure Carrying (conn : Connection) (sent log : List Chunk) : Prop where
  pending : ∃ done, sent = done ++ conn.outQueue.map OutFrame.packet ∧
    Pending done log conn.outQueue
  queuedBytes : conn.queuedBytes = queueBytes conn.outQueue

theorem Carrying.faithful {conn : Connection} {sent log : List Chunk}
    (h : conn.Carrying sent log) : Faithful sent log := by
  obtain ⟨⟨done, rfl, hpend⟩, -⟩ := h
  exact hpend.faithful

theorem Carrying.push {conn : Connection} {sent log : List Chunk} (h : conn.Carrying sent log)
    (framed : Bytes) (fds : List Fd) :
    (conn.push framed fds).Carrying (sent ++ [⟨framed, fds⟩]) log := by
  obtain ⟨⟨done, rfl, hpend⟩, hqb⟩ := h
  refine ⟨⟨done, ?_, hpend.push framed fds⟩, ?_⟩
  · simp [Connection.push]
  · simp [Connection.push, hqb, OutFrame.fresh]

/-- What the send paths leave of a connection beside its queue. -/
def core (conn : Connection) : Connection :=
  { conn with outQueue := [], queuedBytes := 0, writeSource := false }

variable {conn conn' : Connection} {maxFds : ℕ} {kernel : List IoResult}

theorem closeWhenDrained_of_core (h : conn'.core = conn.core) :
    conn'.closeWhenDrained = conn.closeWhenDrained := by
  have := congrArg Connection.closeWhenDrained h
  exact this

/-- A flush that leaves the connection open writes the queue back, and
arms the write source exactly for a queue that is not empty; a connection
on its way out is left open only with one. -/
theorem flushWrites_ok (h : (conn.flushWrites maxFds kernel).conn = .ok conn') :
    conn'.core = conn.core ∧ (conn'.writeSource = true ↔ conn'.outQueue ≠ []) ∧
      (conn.closeWhenDrained = true → conn'.outQueue ≠ []) ∧
      conn'.outQueue = (flushQueue maxFds conn.outQueue conn.queuedBytes kernel).queue ∧
      conn'.queuedBytes = (flushQueue maxFds conn.outQueue conn.queuedBytes kernel).queuedBytes := by
  obtain ⟨-, -, hdrained⟩ := flushQueue_shape maxFds conn.outQueue conn.queuedBytes kernel
  unfold flushWrites at h
  cases he : (flushQueue maxFds conn.outQueue conn.queuedBytes kernel).ended with
  | blocked =>
    simp only [he, Except.ok.injEq] at h
    have hne : (flushQueue maxFds conn.outQueue conn.queuedBytes kernel).queue ≠ [] := by
      rw [Ne, ← hdrained, he]; decide
    subst h
    exact ⟨rfl, by simpa using hne, fun _ => hne, rfl, rfl⟩
  | failed => simp [he] at h
  | drained =>
    simp only [he] at h
    split_ifs at h with hclose
    simp only [Except.ok.injEq] at h
    have hnil := hdrained.1 he
    subst h
    exact ⟨rfl, by simp [hnil], fun hc => absurd hc hclose, rfl, rfl⟩

theorem flushWrites_io :
    (conn.flushWrites maxFds kernel).io =
      (flushQueue maxFds conn.outQueue conn.queuedBytes kernel).io := by
  unfold flushWrites
  dsimp only
  cases (flushQueue maxFds conn.outQueue conn.queuedBytes kernel).ended with
  | blocked => rfl
  | failed => rfl
  | drained => dsimp only; split <;> rfl

/-- **`flushWrites` keeps the account.** -/
theorem flushWrites_spec {sent log : List Chunk} (h : conn.Carrying sent log)
    (hne : ∀ p ∈ sent, p.data ≠ []) (maxFds : ℕ) (kernel : List IoResult) :
    Faithful sent (log ++ pieces (conn.flushWrites maxFds kernel).io) ∧
      ∀ conn', (conn.flushWrites maxFds kernel).conn = .ok conn' →
        conn'.Carrying sent (log ++ pieces (conn.flushWrites maxFds kernel).io) := by
  obtain ⟨⟨done, rfl, hpend⟩, hqb⟩ := h
  have hqueue : ∀ f ∈ conn.outQueue, f.bytes ≠ [] := fun f hf =>
    hne f.packet (List.mem_append_right done (List.mem_map_of_mem hf))
  obtain ⟨⟨left, hleft, hpend'⟩, hqb'⟩ := flushQueue_spec hpend hqueue maxFds kernel
  rw [← hqb] at hleft hpend' hqb'
  rw [flushWrites_io, hleft, ← List.append_assoc]
  refine ⟨hpend'.faithful, fun conn' hconn' => ?_⟩
  obtain ⟨-, -, -, hq, hb⟩ := flushWrites_ok hconn'
  exact ⟨⟨done ++ left, by rw [hq], by rw [hq]; exact hpend'⟩, by rw [hb, hqb', hq]⟩

/-- **`enqueueSend` keeps the account**, of one packet more. -/
theorem enqueueSend_spec {sent log : List Chunk} (h : conn.Carrying sent log) {framed : Bytes}
    {fds : List Fd} (hne : ∀ p ∈ sent ++ [⟨framed, fds⟩], p.data ≠ []) (maxFds : ℕ)
    (kernel : List IoResult) :
    Faithful (sent ++ [⟨framed, fds⟩])
        (log ++ pieces (conn.enqueueSend maxFds framed fds kernel).io) ∧
      ∀ conn', (conn.enqueueSend maxFds framed fds kernel).conn = .ok conn' →
        conn'.Carrying (sent ++ [⟨framed, fds⟩])
          (log ++ pieces (conn.enqueueSend maxFds framed fds kernel).io) := by
  unfold enqueueSend
  split_ifs with hover
  · exact ⟨by simpa using (h.push framed fds).faithful, by simp⟩
  · exact flushWrites_spec (h.push framed fds) hne maxFds kernel

/-- A send that leaves the connection open found it within its bounds. -/
theorem enqueueSend_ok {framed : Bytes} {fds : List Fd}
    (h : (conn.enqueueSend maxFds framed fds kernel).conn = .ok conn') :
    ¬ (conn.push framed fds).OverBound ∧
      ((conn.push framed fds).flushWrites maxFds kernel).conn = .ok conn' := by
  unfold enqueueSend at h
  split_ifs at h with hover
  exact ⟨hover, h⟩

end Connection

end Transport

end LibreDarwin
