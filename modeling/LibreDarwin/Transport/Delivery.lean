import LibreDarwin.Transport.Table

/-!
# Requests and disconnects

What a connection's clients may rely on until `quiesceLoop`: the sink gets
the frames delivered, in order and each once, up to the first that is
malformed, and none after the connection closed or had its last frame; and
when it closes every handler hears of it once. `Served` is the invariant;
the order of the checks in the loop of `onReadReady` is what keeps it, the
lookup of the connection coming before every call of the sink.
-/

namespace LibreDarwin

namespace Transport

open Wire
open Std (ExtTreeMap)

variable {Req : Type*} {W : Wire Req}

/-- The entries after which a connection is not served: it is closed, or
has its last frame. -/
def Obs.Ends : Obs Req → Prop
  | .closed _ => True
  | .lastFrame => True
  | _ => False

/-- The entries of a close. -/
def Obs.Parts : Obs Req → Prop
  | .closed _ => True
  | .disconnected _ _ => True
  | _ => False

/-- A request is the frame it was parsed from, under its connection's
token. -/
structure Answers (W : Wire Req) (c : ConnId) (frame : WireFrame) (heard : Heard Req) : Prop where
  caller : heard.1 = callerToken c
  parsed : W.parseRequest frame.body = some heard.2.1
  fds : heard.2.2 = frame.fds

/-- **A connection's requests and its end**, with the handlers `handlers`
registered. -/
structure Served (W : Wire Req) (handlers : List HandlerId) (c : ConnId) (σ : Slot Req) :
    Prop where
  requests : ∃ taken rest, deliveredIn σ.seen = taken ++ rest ∧
    List.Forall₂ (Answers W c) taken (requestsIn σ.seen) ∧
    ∀ conn, σ.conn = some conn → conn.closeWhenDrained = false → rest = σ.inbound
  ends : ∀ a e b, σ.seen = a ++ e :: b → e.Ends → requestsIn b = []
  live : ∀ conn, σ.conn = some conn → conn.caller = callerToken c ∧ (∀ e ∈ σ.seen, ¬ e.Parts) ∧
    (conn.closeWhenDrained = false → .lastFrame ∉ σ.seen)
  gone : σ.conn = none → σ.seen = [] ∨ ∃ a why, (∀ e ∈ a, ¬ e.Parts) ∧
    σ.seen = a ++ farewell why handlers (callerToken c)

namespace Served

variable {σ : Slot Req} {handlers : List HandlerId} {kernel : List IoResult} {c : ConnId}

/-- New entries that serve nothing leave the ends as they were. -/
theorem ends_append {seen obs : List (Obs Req)}
    (h : ∀ a e b, seen = a ++ e :: b → e.Ends → requestsIn b = []) (hobs : requestsIn obs = [])
    (a : List (Obs Req)) (e : Obs Req) (b : List (Obs Req)) (heq : seen ++ obs = a ++ e :: b)
    (he : e.Ends) : requestsIn b = [] := by
  rcases List.append_eq_append_iff.1 heq with ⟨a', rfl, hobs'⟩ | ⟨b', hseen, hb⟩
  · rw [hobs', requestsIn_append] at hobs
    have := (List.append_eq_nil_iff.1 hobs).2
    rw [show e :: b = [e] ++ b from rfl, requestsIn_append] at this
    exact (List.append_eq_nil_iff.1 this).2
  · cases b' with
    | nil =>
      obtain rfl : obs = e :: b := hb.symm
      rw [show e :: b = [e] ++ b from rfl, requestsIn_append] at hobs
      exact (List.append_eq_nil_iff.1 hobs).2
    | cons e' b' =>
      obtain ⟨rfl, rfl⟩ : e = e' ∧ b = b' ++ obs := by simpa using hb
      rw [requestsIn_append, hobs, h a e b' hseen he]
      rfl

/-- Entries of a live connection that deliver, serve and end nothing. -/
theorem log (h : Served W handlers c σ) {conn : Connection} (hconn : σ.conn = some conn)
    {obs : List (Obs Req)} (hrequests : requestsIn obs = []) (hdelivered : deliveredIn obs = [])
    (hplain : ∀ e ∈ obs, ¬ e.Parts ∧ e ≠ .lastFrame) : Served W handlers c (σ.log obs) where
  requests := by
    obtain ⟨taken, rest, hsplit, hanswers, hrest⟩ := h.requests
    exact ⟨taken, rest, by simpa [hdelivered] using hsplit, by simpa [hrequests] using hanswers,
      hrest⟩
  ends := ends_append h.ends hrequests
  live := by
    intro conn' hconn'
    obtain ⟨hcaller, hparts, hlast⟩ := h.live conn' hconn'
    refine ⟨hcaller, fun e he => ?_, fun hopen he => ?_⟩
    · rcases List.mem_append.1 he with he | he
      · exact hparts e he
      · exact (hplain e he).1
    · rcases List.mem_append.1 he with he | he
      · exact hlast hopen he
      · exact (hplain _ he).2 rfl
  gone := by
    intro hnone
    rw [Slot.conn_log, hconn] at hnone
    cases hnone

/-- Another state of the same connection. -/
theorem update (h : Served W handlers c σ) {conn conn' : Connection} (hconn : σ.conn = some conn)
    (hcaller : conn'.caller = conn.caller)
    (hclosing : conn'.closeWhenDrained = conn.closeWhenDrained) :
    Served W handlers c { σ with conn := some conn' } where
  requests := by
    obtain ⟨taken, rest, hsplit, hanswers, hrest⟩ := h.requests
    refine ⟨taken, rest, hsplit, hanswers, ?_⟩
    rintro _ ⟨⟩ hopen
    exact hrest conn hconn (hclosing ▸ hopen)
  ends := h.ends
  live := by
    rintro _ ⟨⟩
    rw [hcaller, hclosing]
    exact h.live conn hconn
  gone := by rintro ⟨⟩

/-- **A close**: the entries of the farewell are the last. -/
theorem close (h : Served W handlers c σ) {conn : Connection} (hconn : σ.conn = some conn)
    (why : CloseReason) (frames : List WireFrame) :
    Served W handlers c
      ({ σ with conn := none, inbound := frames }.log (farewell why handlers conn.caller)) where
  requests := by
    obtain ⟨taken, rest, hsplit, hanswers, -⟩ := h.requests
    exact ⟨taken, rest, by simpa using hsplit, by simpa using hanswers, by rintro _ ⟨⟩⟩
  ends := ends_append h.ends (requestsIn_farewell _ _ _)
  live := by rintro _ ⟨⟩
  gone := by
    obtain ⟨hcaller, hparts, -⟩ := h.live conn hconn
    exact fun _ => .inr ⟨σ.seen, why, hparts, by rw [← hcaller]; rfl⟩

/-- The mark of the last frame. -/
theorem last (h : Served W handlers c σ) {conn : Connection} (hconn : σ.conn = some conn) :
    Served W handlers c ({ σ with conn := some conn.closing }.log [.lastFrame]) where
  requests := by
    obtain ⟨taken, rest, hsplit, hanswers, -⟩ := h.requests
    refine ⟨taken, rest, by simpa using hsplit, by simpa using hanswers, ?_⟩
    rintro _ ⟨⟩ hopen
    cases hopen
  ends := ends_append h.ends rfl
  live := by
    rintro _ ⟨⟩
    obtain ⟨hcaller, hparts, -⟩ := h.live conn hconn
    refine ⟨hcaller, fun e he => ?_, fun hopen => by cases hopen⟩
    rcases List.mem_append.1 he with he | he
    · exact hparts e he
    · rw [List.mem_singleton.1 he]
      exact id
  gone := by rintro ⟨⟩

/-- A send path's outcome. -/
theorem settle (h : Served W handlers c σ) {conn : Connection} (hconn : σ.conn = some conn)
    {out : Outcome} (hout : ∀ conn', out.conn = .ok conn' → conn'.core = conn.core) :
    Served W handlers c (σ.settle handlers out) := by
  have hlog := h.log hconn (requestsIn_io out.io) (deliveredIn_io out.io) (by simp [Obs.Parts])
  unfold Slot.settle
  rcases ho : out.conn with why | conn'
  · dsimp only
    unfold Slot.close
    rw [Slot.conn_log, hconn]
    exact hlog.close hconn why _
  · have hcore := hout conn' ho
    exact hlog.update hconn (Slot.owner_of_core hcore).2
      (Connection.closeWhenDrained_of_core hcore)

theorem send (h : Served W handlers c σ) {conn : Connection} (hconn : σ.conn = some conn)
    (m : Message) (fds : List Fd) :
    Served W handlers c ((σ.log [.enqueued m (frameOf W m fds)]).settle handlers
      (conn.enqueueSend W.kMaxFrameFds (frameOf W m fds).data fds kernel)) := by
  have hlog := h.log hconn (requestsIn_enqueued m (frameOf W m fds)) rfl (by simp [Obs.Parts])
  exact hlog.settle hconn fun conn' => Slot.core_of_enqueueSend

/-- **A turn of the loop serves the next frame delivered.** -/
theorem serve (h : Served W handlers c σ) {conn : Connection} (hconn : σ.conn = some conn)
    (hopen : conn.closeWhenDrained = false) {caller : CallerToken} {frame : WireFrame} {req : Req}
    (hlegal : (Move.serve caller frame req true).Legal W c σ) :
    Served W handlers c
      ({ σ with inbound := σ.inbound.tail }.log [.request caller req frame.fds]) where
  requests := by
    obtain ⟨taken, rest, hsplit, hanswers, hrest⟩ := h.requests
    obtain ⟨hhead, hcaller, hparsed⟩ := hlegal
    obtain ⟨frames, hin⟩ := List.head?_eq_some_iff.1 hhead
    have hrest := hrest conn hconn hopen
    refine ⟨taken ++ [frame], frames, ?_, ?_, ?_⟩
    · rw [Slot.seen_log, deliveredIn_append, hsplit, hrest, hin]
      simp [deliveredIn]
    · rw [Slot.seen_log, requestsIn_append]
      exact List.rel_append hanswers (.cons ⟨hcaller, hparsed, rfl⟩ .nil)
    · simp [hin]
  ends := by
    -- nothing ended the connection yet, so the new entry is behind no end
    obtain ⟨-, hparts, hlast⟩ := h.live conn hconn
    intro a e b heq he
    have hmem : e ∈ σ.seen ++ [.request caller req frame.fds] := by
      rw [show σ.seen ++ [.request caller req frame.fds] = a ++ e :: b from heq]
      simp
    rcases List.mem_append.1 hmem with hmem | hmem
    · cases e with
      | closed why => exact absurd trivial (hparts _ hmem)
      | lastFrame => exact absurd hmem (hlast hopen)
      | _ => exact he.elim
    · rw [List.mem_singleton.1 hmem] at he
      exact he.elim
  live := by
    intro conn' hconn'
    obtain ⟨hcaller, hparts, hlast⟩ := h.live conn' hconn'
    refine ⟨hcaller, fun e he => ?_, fun hopen he => ?_⟩
    · rcases List.mem_append.1 he with he | he
      · exact hparts e he
      · rw [List.mem_singleton.1 he]
        exact id
    · rcases List.mem_append.1 he with he | he
      · exact hlast hopen he
      · cases List.mem_singleton.1 he
  gone := by
    intro hnone
    rw [show σ.conn = none from hnone] at hconn
    cases hconn

/-- **A read delivers to a connection whose frames were all looked at.** -/
theorem read (h : Served W handlers c σ) {conn : Connection} (hconn : σ.conn = some conn)
    (hlegal : σ.inbound = []) (frames : List WireFrame) :
    Served W handlers c
      ({ σ with conn := some (if frames.isEmpty then conn else conn.gotFrame)
                inbound := frames }.log (frames.map .delivered)) := by
  have hsame : ∀ conn', some (if frames.isEmpty then conn else conn.gotFrame) = some conn' →
      conn'.caller = conn.caller ∧ conn'.closeWhenDrained = conn.closeWhenDrained := by
    rintro _ ⟨⟩
    split <;> exact ⟨rfl, rfl⟩
  refine ⟨?_, ends_append h.ends (requestsIn_delivered frames), ?_, by rintro ⟨⟩⟩
  · obtain ⟨taken, rest, hsplit, hanswers, hrest⟩ := h.requests
    refine ⟨taken, rest ++ frames, by simp [hsplit], by simpa using hanswers, ?_⟩
    intro conn' hconn' hopen
    rw [hrest conn hconn (by rw [← (hsame conn' hconn').2]; exact hopen), hlegal]
    rfl
  · intro conn' hconn'
    obtain ⟨hcaller, hparts, hlast⟩ := h.live conn hconn
    rw [(hsame conn' hconn').1, (hsame conn' hconn').2]
    refine ⟨hcaller, fun e he => ?_, fun hopen he => ?_⟩
    · rcases List.mem_append.1 he with he | he
      · exact hparts e he
      · obtain ⟨frame, -, rfl⟩ := List.mem_map.1 he
        exact id
    · rcases List.mem_append.1 he with he | he
      · exact hlast hopen he
      · obtain ⟨frame, -, hframe⟩ := List.mem_map.1 he
        cases hframe

/-- The frames not looked at are dropped, or there were none. -/
theorem stop (h : Served W handlers c σ)
    (hstop : σ.inbound = [] ∨ ∀ conn, σ.conn = some conn → conn.closeWhenDrained = true) :
    Served W handlers c σ.stop where
  requests := by
    obtain ⟨taken, rest, hsplit, hanswers, hrest⟩ := h.requests
    refine ⟨taken, rest, hsplit, hanswers, fun conn hconn hopen => ?_⟩
    rcases hstop with hin | hclosing
    · rw [hrest conn hconn hopen, hin]; rfl
    · rw [hclosing conn hconn] at hopen
      cases hopen
  ends := h.ends
  live := h.live
  gone := h.gone

end Served

/-- **Every step keeps it**, until the sink and the handlers are severed. -/
theorem served_step {s t : State Req} {i : Input} (hs : Orderly s) (hst : s.step W i = some t)
    (hsink : s.sink = true) {c : ConnId}
    (h : Served W s.disconnectHandlers c (s.slot c)) :
    Served W s.disconnectHandlers c (t.slot c) := by
  obtain ⟨m, horigin, hlegal, heffect⟩ := step_at hs hst c
  generalize t.slot c = τ at heffect
  generalize hσ : s.slot c = σ at h hlegal heffect
  cases heffect with
  | same => exact h
  | accepted id =>
    obtain ⟨rfl, rfl⟩ := hlegal
    refine ⟨⟨[], [], rfl, .nil, fun _ _ _ => rfl⟩, ?_, ?_, by rintro ⟨⟩⟩
    · exact Served.ends_append (by simp [Slot.blank]) rfl
    · rintro _ ⟨⟩
      exact ⟨rfl, by simp [Slot.blank, Obs.Parts], by simp [Slot.blank]⟩
  | sent hconn m fds => exact h.send hconn m fds
  | broadcast hconn e kind htakes => exact h.send hconn (.event e) []
  | sentLast hconn m => exact (h.last hconn).send rfl m []
  | wants hconn b => exact h.update hconn rfl rfl
  | flushed hconn hwrite =>
    exact h.settle hconn fun conn' hconn' => (Connection.flushWrites_ok hconn').1
  | read hconn hread frames => exact h.read hconn hlegal frames
  | served hconn hopen caller frame req heard =>
    have hheard : heard = true := by
      generalize i.event = event at horigin
      cases horigin
      exact hsink
    subst hheard
    exact h.serve hconn hopen hlegal
  | stopped => exact h.stop (.inl hlegal)
  | skipped hclosing caller frame req heard => exact h.stop (.inr hclosing)
  | gone hconn why => exact h.stop (.inr fun conn hconn' => by rw [hconn] at hconn'; cases hconn')
  | closed hconn why => exact h.close hconn why []
  | timedOut hconn hsaw => exact h.close hconn .firstFrameTimeout _

/-- Until `quiesceLoop`, the sink and the handlers are those of the start,
and every connection is served. -/
theorem served_of_run {s₀ s : State Req} {is : List Input} (hs₀ : Started s₀)
    (hrun : (transport W).run s₀ is = some s) (hq : s.loopQuiesced = false) (c : ConnId) :
    Served W s₀.disconnectHandlers c (s.slot c) := by
  suffices hI : Orderly s ∧ (s.loopQuiesced = false → s.sink = true ∧
      s.disconnectHandlers = s₀.disconnectHandlers ∧
      ∀ c, Served W s₀.disconnectHandlers c (s.slot c)) from (hI.2 hq).2.2 c
  refine Machine.run_invariant (I := fun s => Orderly s ∧ (s.loopQuiesced = false →
    s.sink = true ∧ s.disconnectHandlers = s₀.disconnectHandlers ∧
      ∀ c, Served W s₀.disconnectHandlers c (s.slot c))) ?_ ?_ hrun
  · rintro s i t ⟨horderly, hs⟩ hst
    refine ⟨orderly_step horderly hst, fun hqt => ?_⟩
    obtain ⟨-, rfl⟩ | ⟨n, p, q, -, hframe⟩ := frame_step hst
    · cases hqt
    · have hqs : s.loopQuiesced = false := by
        rw [← hqt]; exact (State.loopQuiesced_of_frame hframe).symm
      obtain ⟨hsink, hhandlers, hserved⟩ := hs hqs
      refine ⟨(State.sink_of_frame hframe).trans hsink,
        (State.disconnectHandlers_of_frame hframe).trans hhandlers, fun c => ?_⟩
      rw [← hhandlers] at hserved ⊢
      exact served_step horderly hst hsink (hserved c)
  · refine ⟨hs₀.orderly, fun _ => ⟨hs₀.sink, rfl, fun c => ?_⟩⟩
    rw [hs₀.slot c]
    refine ⟨⟨[], [], rfl, .nil, by rintro _ ⟨⟩⟩, ?_, by rintro _ ⟨⟩, fun _ => .inl rfl⟩
    intro a e b heq
    simp [Slot.blank] at heq

/-- Every request a trace handed over answers a frame of its own
connection. -/
theorem Served.caller_of_mem {handlers : List HandlerId} {c : ConnId} {σ : Slot Req}
    (h : Served W handlers c σ) {caller : CallerToken} {req : Req} {fds : List Fd}
    (hmem : .request caller req fds ∈ σ.seen) : caller = callerToken c := by
  obtain ⟨taken, rest, -, hanswers, -⟩ := h.requests
  have hheard : (caller, req, fds) ∈ requestsIn σ.seen := by
    simp only [requestsIn, List.mem_filterMap]
    exact ⟨_, hmem, rfl⟩
  obtain ⟨i, hi, heq⟩ := List.getElem_of_mem hheard
  have hi' : i < taken.length := by rw [hanswers.length_eq]; exact hi
  have := (List.forall₂_iff_get.1 hanswers).2 i hi' hi
  have hcaller := this.caller
  rw [List.get_eq_getElem, heq] at hcaller
  exact hcaller

@[simp] theorem partOf_append (pre post : List (ConnId × Obs Req)) (c : ConnId) :
    partOf (pre ++ post) c = partOf pre c ++ partOf post c := by
  simp [partOf]

theorem mem_partOf {trace : List (ConnId × Obs Req)} {c : ConnId} {e : Obs Req} :
    e ∈ partOf trace c ↔ (c, e) ∈ trace := by
  simp [partOf]

/-- **Delivery and disconnect.** In every run from the start, before
`quiesceLoop`, and for every connection: the requests that reached the
sink answer, in order and each once, the first frames delivered, all of
which parse; none follows a close or a last frame; a live connection's
handlers have not been called, and those of one that closed were called
once each, in the order of registration, as the last thing about it; and
after its close no request at all reaches the sink under its token. -/
theorem request_delivery {s₀ s : State Req} {is : List Input} (hs₀ : Started s₀)
    (hrun : (transport W).run s₀ is = some s) (hq : s.loopQuiesced = false) (c : ConnId) :
    (∃ taken, taken <+: deliveredIn (s.seen c) ∧
      List.Forall₂ (Answers W c) taken (requestsIn (s.seen c))) ∧
    (∀ a e b, s.seen c = a ++ e :: b → e.Ends → requestsIn b = []) ∧
    (c ∈ s.connections → ∀ e ∈ s.seen c, ¬ e.Parts) ∧
    (c ∉ s.connections → s.seen c ≠ [] → ∃ a why, (∀ e ∈ a, ¬ e.Parts) ∧
      s.seen c = a ++ farewell why s₀.disconnectHandlers (callerToken c)) ∧
    ∀ pre post, s.trace = pre ++ post → (∃ why, (c, .closed why) ∈ pre) →
      ∀ d caller req fds, (d, .request caller req fds) ∈ post → caller ≠ callerToken c := by
  have hserved := served_of_run hs₀ hrun hq
  refine ⟨?_, (hserved c).ends, fun hc => ?_, fun hc hseen => ?_, ?_⟩
  · obtain ⟨taken, rest, hsplit, hanswers, -⟩ := (hserved c).requests
    exact ⟨taken, ⟨rest, hsplit.symm⟩, hanswers⟩
  · obtain ⟨conn, hconn⟩ := Option.isSome_iff_exists.1 (ExtTreeMap.mem_iff_isSome_getElem?.1 hc)
    exact ((hserved c).live conn hconn).2.1
  · have hnone : s.connections[c]? = none := ExtTreeMap.getElem?_eq_none hc
    rcases (hserved c).gone hnone with hnil | hgone
    · exact absurd hnil hseen
    · exact hgone
  · rintro pre post htrace ⟨why, hclosed⟩ d caller req fds hreq rfl
    have hseen : ∀ d, s.seen d = partOf pre d ++ partOf post d := fun d => by
      rw [State.seen, htrace, partOf_append]
    -- the request is the connection's own, by its token
    have hmem : .request (callerToken c) req fds ∈ s.seen d := by
      rw [hseen]
      exact List.mem_append_right _ (mem_partOf.2 hreq)
    obtain rfl := callerToken_injective ((hserved d).caller_of_mem hmem)
    obtain ⟨a, b, hab⟩ := List.append_of_mem (mem_partOf.2 hclosed)
    have hends := (hserved c).ends a (.closed why) (b ++ partOf post c)
      ((hseen c).trans (by rw [hab]; simp)) trivial
    rw [requestsIn_append] at hends
    have hheard : (callerToken c, req, fds) ∈ requestsIn (partOf post c) := by
      simp only [requestsIn, List.mem_filterMap]
      exact ⟨_, mem_partOf.2 hreq, rfl⟩
    rw [(List.append_eq_nil_iff.1 hends).2] at hheard
    cases hheard

/-- Two frames in one read, and a reply to the first that the kernel
refuses: the connection closes while the sink is at work, and the second
frame goes unanswered. -/
def replyRefused : List Input :=
  [⟨.accept true, fun _ => []⟩,
   ⟨.readReady 1 ⟨[⟨[1], []⟩, ⟨[2], []⟩], true⟩, fun _ => []⟩,
   ⟨.nextFrame, fun _ => []⟩,
   ⟨.act (.sendTo 1 (.ack 1) []), fun _ => [.error]⟩,
   ⟨.nextFrame, fun _ => []⟩]

theorem request_delivery_replyRefused :
    ∃ s, (transport plainWire).run (.start [7, 8]) replyRefused = some s ∧
      deliveredIn (s.seen 1) = [⟨[1], []⟩, ⟨[2], []⟩] ∧
      requestsIn (s.seen 1) = [("conn:1", [1], [])] ∧
      ∃ taken, taken <+: deliveredIn (s.seen 1) ∧
        List.Forall₂ (Answers plainWire 1) taken (requestsIn (s.seen 1)) := by
  have hdelivery : ∀ s, (transport plainWire).run (.start [7, 8]) replyRefused = some s →
      s.loopQuiesced = false → _ := fun s hrun hq =>
    (request_delivery (State.started_start [7, 8]) hrun hq 1).1
  exact ⟨_, rfl, rfl, rfl, hdelivery _ rfl rfl⟩

end Transport

end LibreDarwin
