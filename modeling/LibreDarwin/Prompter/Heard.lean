import LibreDarwin.Prompter.Client
import LibreDarwin.Prompter.Shown

/-!
# What a call of the agent hears

A reply travels back on the connection its request came on, so what a call
makes of it is what became of its own request: its own panel's answer, its
own confirmation, the count of its own sweep, or the refusal of a peer the
prompter does not take for the agent (`Gives`). Without a frame there is
nothing in its result (`Void`).
-/

namespace LibreDarwin

namespace Prompter

open Wire

/-- **The words the two sides share**, as the agent library has them. -/
structure AgentLibrary.Agrees (L : AgentLibrary) : Prop where
  kind : ∀ kind, L.kindFromToken (L.kindToken kind) = some kind
  status : ∀ status, L.replyStatusFromToken (L.replyStatusToken status) = some status
  means : ∀ status, L.promptStatusFor status false = .ok ↔ status = .ok

theorem plainLibrary_agrees : plainLibrary.Agrees where
  kind kind := by cases kind <;> decide
  status status := by cases status <;> decide
  means status := by cases status <;> decide

/-! ## What is to be heard -/

/-- **The answer of a connection's own panel**: the one panel it raised,
for this call of a handler and under this id, and its one answer. -/
structure System.Answered (s : System) (c : ConnId) (call : Call) (promptId : String)
    (a : PanelAnswer) : Prop where
  called : (Peer.Name.conn c, Mark.called call) ∈ s.server.trace
  panel : ∃ n : PanelId, (∀ m : PanelId, s.raisers[m]? = some c ↔ m = n) ∧
    s.window.raised[n]? = some promptId ∧ ∀ b, (n, b) ∈ s.window.answers ↔ b = a

variable (L : AgentLibrary)

/-- What an answer is to the agent. A secret over the cap is not read. -/
def PromptResult.ofAnswer (a : PanelAnswer) : PromptResult :=
  if a.status = .ok ∧ L.kMaxSecretBytes < a.primary.length then
    errorResult "prompter reply malformed"
  else { status := L.promptStatusFor a.status false, secret := a.primary }

def PinChangePromptResult.ofAnswer (a : PanelAnswer) : PinChangePromptResult :=
  if a.status = .ok ∧
      (L.kMaxSecretBytes < a.primary.length ∨ L.kMaxSecretBytes < a.secondary.length) then
    changeErrorResult "prompter reply malformed"
  else
    { status := L.promptStatusFor a.status false, current := a.primary, newPin := a.secondary }

namespace ClientCall

/-- The kind of secret a call asks for. -/
def secret? : ClientCall → Option (PromptKind × PromptOptions)
  | .requestPin o => some (.pin, o)
  | .requestCan o => some (.can, o)
  | .requestMrz o => some (.mrz, o)
  | _ => none

/-- What a call makes of being refused. -/
def rejected : ClientCall → Outcome
  | .requestPin _ | .requestCan _ | .requestMrz _ =>
    .secret
      { status := L.promptStatusFor .unauthorized false
        userMessage := "prompter rejected the agent (unauthorized)" }
  | .requestPinChange _ =>
    .pinChange
      { status := L.promptStatusFor .unauthorized false
        userMessage := "prompter rejected the agent (unauthorized)" }
  | .requestConfirmation _ =>
    .confirmation ⟨.unauthorized, "caller is not the agent", some kPrompterProtocolVersion⟩
  | .cancel _ => .nothing
  | .reset =>
    .logged (some ⟨.warn, "prompter answered the reset with a message this build cannot read"⟩)

/-- Whether a call comes to read a frame. -/
def reads (met : ResetPeer) (call : ClientCall) : Bool :=
  call.goesOut met && met.received.toOption.isSome &&
    match call with
    | .cancel _ => false
    | .reset =>
      (match (waitReadable (met.now + kResetReplyBudgetMs * 1000000) met.turns).2 with
        | .readable _ => true
        | _ => false) && met.bounded != .failed
    | _ => true

end ClientCall

/-- **What a call that read a frame may give its caller.** -/
inductive System.Gives (s : System) : Peer.Name → ClientCall → Outcome → Prop
  | rejected (n : ℕ) (call : ClientCall) : Gives s (.refused n) call (call.rejected L)
  | secret {c : ConnId} {call : ClientCall} {kind : PromptKind} {o : PromptOptions}
      {a : PanelAnswer} : call.secret? = some (kind, o) →
      s.Answered c (.provider ((buildRequest L kind o).received L)) o.promptId a →
      Gives s (.conn c) call (.secret (.ofAnswer L a))
  | pinChange {c : ConnId} {o : PromptOptions} {a : PanelAnswer} :
      s.Answered c (.multiProvider (buildChangeRequest L o)) o.promptId a →
      Gives s (.conn c) (.requestPinChange o) (.pinChange (.ofAnswer L a))
  | confirmed {c : ConnId} {action : ConfirmAction} {r : ConfirmReply} :
      action.kind = "configure_trust" →
      (Peer.Name.conn c, Mark.called (.confirmProvider action)) ∈ s.server.trace →
      (Peer.Name.conn c, Mark.returned (.confirm r)) ∈ s.server.trace →
      Gives s (.conn c) (.requestConfirmation action)
        (.confirmation { r with protocolVersion := some kPrompterProtocolVersion })
  | unconfirmed {c : ConnId} {action : ConfirmAction} : action.kind ≠ "configure_trust" →
      Gives s (.conn c) (.requestConfirmation action) (.confirmation
        { unsupportedConfirmation with protocolVersion := some kPrompterProtocolVersion })
  | closed {c : ConnId} {count : UInt32} : (c, count) ∈ s.closed →
      Gives s (.conn c) .reset
        (.logged (some ⟨.info, s!"prompter reset: {count} window(s) closed"⟩))

/-- **A result with nothing in it.** -/
def Outcome.Void : Outcome → Prop
  | .secret r => r.status ≠ .ok ∧ r.secret = []
  | .pinChange r => r.status ≠ .ok ∧ r.current = [] ∧ r.newPin = []
  | .confirmation r => r.status ≠ .ok
  | .nothing => True
  | .logged line => ∃ text, line = some ⟨.warn, text⟩

variable {L}

/-! ## What the prompter does with a call's request -/

/-- What a call's request is dispatched to. -/
def ClientCall.dispatched (L : AgentLibrary) : ClientCall → Dispatch
  | .requestPin o => .post (.call (.provider ((buildRequest L .pin o).received L)))
  | .requestCan o => .post (.call (.provider ((buildRequest L .can o).received L)))
  | .requestMrz o => .post (.call (.provider ((buildRequest L .mrz o).received L)))
  | .requestPinChange o => .post (.call (.multiProvider (buildChangeRequest L o)))
  | .requestConfirmation action =>
    if action.kind ≠ "configure_trust" then .post (.refuse (.confirm unsupportedConfirmation))
    else .post (.call (.confirmProvider action))
  | .cancel promptId => .handle (.cancel promptId)
  | .reset => .post (.call .reset)

theorem ClientCall.dispatch_body {call : ClientCall} (hL : L.Agrees)
    (hcodec : L.decode (call.body L) = some (toCbor ((call.message L).fields L))) :
    dispatch L (call.body L) = call.dispatched L := by
  have hm : topMap L (call.body L) = .ok (ofFields ((call.message L).fields L)) :=
    topMap_encode hcodec
  have hparse : ∀ {r}, r.In L (ofFields ((call.message L).fields L)) →
      parsePrompterRequest L (call.body L) = .ok r :=
    fun hin => parsePrompterRequest_eq_ok.2 ⟨_, hm, (call.message L).versionRead, hin⟩
  have hprompt : ∀ kind o, kind ≠ .changePin → call.message L = .prompt (buildRequest L kind o) →
      parsePrompterRequest L (call.body L) = .ok (.prompt ((buildRequest L kind o).received L)) := by
    intro kind o hkind hmessage
    refine hparse (PrompterRequest.in_ofFields hL.kind ?_)
    rw [hmessage]
    exact ⟨hkind, rfl⟩
  cases call with
  | requestPin o => simp [dispatch, hprompt .pin o (by decide) rfl, dispatched]
  | requestCan o => simp [dispatch, hprompt .can o (by decide) rfl, dispatched]
  | requestMrz o => simp [dispatch, hprompt .mrz o (by decide) rfl, dispatched]
  | requestPinChange o =>
    have h := hparse (PrompterRequest.in_ofFields (r := .secrets (buildChangeRequest L o)) hL.kind rfl)
    simp [dispatch, h, dispatched]
  | requestConfirmation action =>
    have h := hparse (PrompterRequest.in_ofFields (r := .confirm action) hL.kind rfl)
    simp [dispatch, h, dispatched]
  | cancel promptId =>
    have h := hparse (PrompterRequest.in_ofFields (r := .cancel ⟨promptId⟩) hL.kind rfl)
    simp [dispatch, h, dispatched]
  | reset =>
    have h := hparse (PrompterRequest.in_ofFields (r := .reset) hL.kind rfl)
    simp [dispatch, h, dispatched]

/-- **What was sent on a connection**: a refusal its frame was due, or the
result of the one handler that was called for it. -/
inductive Sent (L : AgentLibrary) (s : System) (c : ConnId) (frame : Bytes) : PrompterReply → Prop
  | refusal {reply : PrompterReply} : dispatch L frame = .post (.refuse reply) → Sent L s c frame reply
  | result {call : Call} {result : Result} : dispatch L frame = .post (.call call) →
      call.returns result = true → (Peer.Name.conn c, Mark.called call) ∈ s.server.trace →
      (Peer.Name.conn c, Mark.returned result) ∈ s.server.trace →
      (∀ call', (Peer.Name.conn c, Mark.called call') ∈ s.server.trace → call' = call) →
      s.Returns L c call result → Sent L s c frame result.reply

theorem System.sent_of_replied {s : System} {c : ConnId} {reply : PrompterReply} (hk : s.Kept L)
    (hp : s.Paid L) (h : (Peer.Name.conn c, Mark.replied reply) ∈ s.server.trace) :
    ∃ frame frames ok, (Peer.Name.conn c, Mark.arrived (frame :: frames) ok) ∈ s.server.trace ∧
      Sent L s c frame reply := by
  have hlife := hk.served.life c
  simp only [← Server.mem_marksOf] at h ⊢
  rw [show s.server.marksOf (.conn c) = (s.server.account c).marks from rfl] at h ⊢
  have hmem : ∀ {m}, m ∈ (s.server.account c).marks ↔ (Peer.Name.conn c, m) ∈ s.server.trace :=
    Server.mem_marksOf
  generalize s.server.account c = a at hlife h hmem
  cases hlife with
  | unborn => cases h
  | reading n => simp [heard] at h
  | stopped n => simp [heard] at h
  | ended n => simp [heard] at h
  | served n frames ok hserving =>
    rename_i frame tasks marks
    refine ⟨frame, frames, ok, by simp, ?_⟩
    simp only [heard, List.cons_append, List.mem_cons, reduceCtorEq, List.mem_append,
      List.mem_replicate, and_false, false_or] at h
    cases hserving with
    | refused hd =>
      obtain rfl := Mark.replied.inj (List.mem_singleton.1 h)
      exact .refusal hd
    | done hd hreturns =>
      rename_i call result
      obtain rfl : reply = result.reply := by simpa using h
      have hreturned : (Peer.Name.conn c, Mark.returned result) ∈ s.server.trace :=
        hmem.1 (by simp)
      have hone : ∀ call', (Peer.Name.conn c, Mark.called call') ∈ s.server.trace →
          call' = call := by
        intro call' hcall'
        simpa [heard] using hmem.2 hcall'
      obtain ⟨call', hcall', hpaid⟩ := hp c result hreturned
      obtain rfl := hone call' hcall'
      exact .result hd hreturns hcall' hreturned hone hpaid
    | dropped hd => cases h
    | handled hd => simp at h
    | queued hd => cases h
    | running hd => simp at h

/-- A panel's answer that was returned is its connection's own. -/
theorem System.answered {s : System} {rs : List Raising} {c : ConnId} {r : Raising}
    {e : PanelId × PanelAnswer} (hk : s.Kept L) (hshown : s.Shown rs)
    (hcalled : (Peer.Name.conn c, Mark.called r.call) ∈ s.server.trace)
    (hone : ∀ call', (Peer.Name.conn c, Mark.called call') ∈ s.server.trace → call' = r.call)
    (he : e ∈ s.window.answers) (hraiser : s.raisers[e.1]? = some c) :
    s.Answered c r.call r.promptId e.2 := by
  obtain ⟨n, a⟩ := e
  have hlt := (List.getElem?_eq_some_iff.1 hraiser).1
  refine ⟨hcalled, n, fun m => ?_, ?_, fun b => ?_⟩
  · constructor
    · intro hm
      exact (List.getElem?_inj (List.getElem?_eq_some_iff.1 hm).1 hk.raisers_nodup).1
        (hm.trans hraiser.symm)
    · rintro rfl
      exact hraiser
  · obtain ⟨r', hr'⟩ : ∃ r', rs[n]? = some r' :=
      ⟨_, List.getElem?_eq_getElem (hshown.raisers ▸ hlt)⟩
    have hcall : r'.call = r.call := hone _ (hshown.asked n c r' hraiser hr')
    obtain rfl : r' = r := by
      cases r with
      | prompt req => cases r' <;> cases hcall; rfl
      | change req => cases r' <;> cases hcall; rfl
    rw [hshown.keys, List.getElem?_map, hr']
    rfl
  · constructor
    · intro hb
      have hsame := List.inj_on_of_nodup_map hk.window.once hb he rfl
      exact (Prod.mk.inj hsame).2
    · rintro rfl
      exact he

/-! ## What a call makes of a reply -/

section Reading

variable {met : ResetPeer} {frame : Bytes} {a : PanelAnswer}

/-- Everything went well up to the frame. -/
structure ResetPeer.Read (met : ResetPeer) (frame : Bytes) : Prop extends
    met.toPeer.Answered frame where
  bounds : met.bounds = true

theorem request_of_read {kind : PromptKind} {o : PromptOptions} (h : met.Read frame) :
    (request L met.toPeer kind o).1 =
      match parsePromptReply L frame with
      | .error _ => errorResult "prompter reply malformed"
      | .ok reply => takeReply L reply := by
  simp only [request, h.connects, h.verifies, h.bounds, h.sends, recvFrameBounded, h.received]
  cases parsePromptReply L frame <;> rfl

theorem requestPinChange_of_read {o : PromptOptions} (h : met.Read frame) :
    (requestPinChange L met.toPeer o).1 =
      match parseMultiPromptReply L frame with
      | .error _ => changeErrorResult "prompter reply malformed"
      | .ok reply => takeChangeReply L reply := by
  simp only [requestPinChange, h.connects, h.verifies, h.bounds, h.sends, recvFrameBounded,
    h.received]
  cases parseMultiPromptReply L frame <;> rfl

theorem requestConfirmation_of_read {action : ConfirmAction} (h : met.toPeer.Answered frame) :
    (requestConfirmation L met.toPeer action).1 =
      match parseConfirmReply L frame with
      | .error _ => refuse "prompter reply malformed"
      | .ok reply =>
        if TooOld reply.protocolVersion then refuse "prompter too old to confirm" else reply := by
  simp only [requestConfirmation, h.connects, h.verifies, h.sends, h.received]
  cases parseConfirmReply L frame with
  | error e => rfl
  | ok reply =>
    by_cases hold : TooOld reply.protocolVersion
    · simp [hold]
    · simp [hold]

/-- This build's version is not too old. -/
theorem not_tooOld : ¬TooOld (some kPrompterProtocolVersion) := by decide

theorem parsePromptReply_own {p : PromptReply} (hL : L.Agrees)
    (hm : topMap L frame = .ok (ofFields (p.fields L))) (hp : p.status ≠ .ok → p.secret = []) :
    (p.status = .ok ∧ L.kMaxSecretBytes < p.secret.length → ∃ e, parsePromptReply L frame = .error e) ∧
      (¬(p.status = .ok ∧ L.kMaxSecretBytes < p.secret.length) →
        parsePromptReply L frame = .ok { p with protocolVersion := some kPrompterProtocolVersion }) := by
  have hn : ((p.fields L).map Prod.fst).Nodup := (PrompterReply.secret p).nodup_fields
  have hstatus : StatusIn L (ofFields (p.fields L)) p.status p.userMessage
      (some kPrompterProtocolVersion) :=
    statusIn_ofFields hn (hL.status _) (by simp [PromptReply.fields]) (by simp [PromptReply.fields])
      (by simp [PromptReply.fields])
  constructor
  · rintro ⟨hok, hlong⟩
    cases hparse : parsePromptReply L frame with
    | error e => exact ⟨e, rfl⟩
    | ok r =>
      -- a reply that was read has its secret within the cap
      obtain ⟨m, hm', hr, hsecret⟩ := parsePromptReply_eq_ok.1 hparse
      obtain rfl := Except.ok.inj (hm.symm.trans hm')
      have hrok : r.status = .ok := Except.ok.inj (hr.status.symm.trans (hok ▸ hstatus.status))
      rw [SecretIn, if_pos hrok, getElem?_ofFields hn (v := secret? p.status p.secret)
        (by simp [PromptReply.fields]), secret?, if_pos hok] at hsecret
      have heq : p.secret = r.secret := by simpa using hsecret.1
      rw [heq] at hlong
      exact absurd hsecret.2 (not_le.2 hlong)
  · intro hfits
    refine parsePromptReply_eq_ok.2 ⟨_, hm, hstatus, ?_⟩
    rw [SecretIn]
    split
    · rename_i hok
      rw [getElem?_ofFields hn (v := secret? p.status p.secret) (by simp [PromptReply.fields]),
        secret?, if_pos hok]
      exact ⟨rfl, not_lt.1 fun hlong => hfits ⟨hok, hlong⟩⟩
    · rename_i hok
      exact hp hok

theorem parseMultiPromptReply_own {p : MultiPromptReply} (hL : L.Agrees)
    (hm : topMap L frame = .ok (ofFields (p.fields L)))
    (hp : p.status ≠ .ok → p.primary = [] ∧ p.secondary = []) :
    (p.status = .ok ∧
        (L.kMaxSecretBytes < p.primary.length ∨ L.kMaxSecretBytes < p.secondary.length) →
      ∃ e, parseMultiPromptReply L frame = .error e) ∧
      (¬(p.status = .ok ∧
          (L.kMaxSecretBytes < p.primary.length ∨ L.kMaxSecretBytes < p.secondary.length)) →
        parseMultiPromptReply L frame =
          .ok { p with protocolVersion := some kPrompterProtocolVersion }) := by
  have hn : ((p.fields L).map Prod.fst).Nodup := (PrompterReply.secrets p).nodup_fields
  have hstatus : StatusIn L (ofFields (p.fields L)) p.status p.userMessage
      (some kPrompterProtocolVersion) :=
    statusIn_ofFields hn (hL.status _) (by simp [MultiPromptReply.fields])
      (by simp [MultiPromptReply.fields]) (by simp [MultiPromptReply.fields])
  have hprimary := getElem?_ofFields hn (k := "primary") (v := secret? p.status p.primary)
    (by simp [MultiPromptReply.fields])
  have hsecondary := getElem?_ofFields hn (k := "secondary") (v := secret? p.status p.secondary)
    (by simp [MultiPromptReply.fields])
  constructor
  · rintro ⟨hok, hlong⟩
    cases hparse : parseMultiPromptReply L frame with
    | error e => exact ⟨e, rfl⟩
    | ok r =>
      obtain ⟨m, hm', hr, hfirst, hsecond⟩ := parseMultiPromptReply_eq_ok.1 hparse
      obtain rfl := Except.ok.inj (hm.symm.trans hm')
      have hrok : r.status = .ok := Except.ok.inj (hr.status.symm.trans (hok ▸ hstatus.status))
      rw [SecretIn, if_pos hrok, hprimary, secret?, if_pos hok] at hfirst
      rw [SecretIn, if_pos hrok, hsecondary, secret?, if_pos hok] at hsecond
      have heq : p.primary = r.primary := by simpa using hfirst.1
      have heq' : p.secondary = r.secondary := by simpa using hsecond.1
      rw [heq, heq'] at hlong
      omega
  · intro hfits
    refine parseMultiPromptReply_eq_ok.2 ⟨_, hm, hstatus, ?_, ?_⟩
    · rw [SecretIn]
      split
      · rename_i hok
        rw [hprimary, secret?, if_pos hok]
        exact ⟨rfl, not_lt.1 fun hlong => hfits ⟨hok, .inl hlong⟩⟩
      · rename_i hok
        exact (hp hok).1
    · rw [SecretIn]
      split
      · rename_i hok
        rw [hsecondary, secret?, if_pos hok]
        exact ⟨rfl, not_lt.1 fun hlong => hfits ⟨hok, .inr hlong⟩⟩
      · rename_i hok
        exact (hp hok).2

/-- The status of an answer is nobody's refusal. -/
theorem replyMessage_plain (ha : a.Plain) : replyMessage a.status "" = "" := by
  obtain h | h | h := ha <;> simp [replyMessage, h]

theorem PromptResult.ofAnswer_eq (hL : L.Agrees) (ha : a.Plain)
    (hsecret : a.status ≠ .ok → a.primary = [] ∧ a.secondary = [])
    (hm : topMap L frame =
      .ok (ofFields (PromptReply.fields L { status := a.status, secret := a.primary }))) :
    (match parsePromptReply L frame with
      | .error _ => errorResult "prompter reply malformed"
      | .ok reply => takeReply L reply) = PromptResult.ofAnswer L a := by
  obtain ⟨hlong, hshort⟩ := parsePromptReply_own hL hm fun h => (hsecret h).1
  rw [ofAnswer]
  by_cases h : a.status = .ok ∧ L.kMaxSecretBytes < a.primary.length
  · obtain ⟨e, he⟩ := hlong h
    rw [he, if_pos h]
  · rw [hshort h, if_neg h]
    simp only [takeReply, if_neg not_tooOld, replyMessage_plain ha, hL.means]
    by_cases hok : a.status = .ok
    · simp [hok]
    · simp [hok, (hsecret hok).1]

theorem PinChangePromptResult.ofAnswer_eq (hL : L.Agrees) (ha : a.Plain)
    (hsecret : a.status ≠ .ok → a.primary = [] ∧ a.secondary = [])
    (hm : topMap L frame = .ok (ofFields (MultiPromptReply.fields L
      { status := a.status, primary := a.primary, secondary := a.secondary }))) :
    (match parseMultiPromptReply L frame with
      | .error _ => changeErrorResult "prompter reply malformed"
      | .ok reply => takeChangeReply L reply) = PinChangePromptResult.ofAnswer L a := by
  obtain ⟨hlong, hshort⟩ := parseMultiPromptReply_own hL hm hsecret
  rw [ofAnswer]
  by_cases h : a.status = .ok ∧
      (L.kMaxSecretBytes < a.primary.length ∨ L.kMaxSecretBytes < a.secondary.length)
  · obtain ⟨e, he⟩ := hlong h
    rw [he, if_pos h]
  · rw [hshort h, if_neg h]
    simp only [takeChangeReply, if_neg not_tooOld, replyMessage_plain ha, hL.means]
    by_cases hok : a.status = .ok
    · simp [hok]
    · simp [hok, hsecret hok]

end Reading

/-! ## What a call gives -/

theorem System.mem_repliesTo {s : System} {peer : Peer.Name} {reply : PrompterReply} :
    reply ∈ s.repliesTo peer ↔ (peer, Mark.replied reply) ∈ s.server.trace := by
  rw [repliesTo, List.mem_filterMap]
  constructor
  · rintro ⟨⟨name, m⟩, he, hreply⟩
    cases m with
    | replied r =>
      simp only at hreply
      split at hreply
      · rename_i hname
        cases hreply
        exact hname ▸ he
      · cases hreply
    | _ => cases hreply
  · intro he
    exact ⟨_, he, if_pos rfl⟩

section Void

variable {met : ResetPeer} {o : PromptOptions} {action : ConfirmAction}

theorem request_void {kind : PromptKind} (h : ¬∃ frame, met.Read frame) :
    (Outcome.secret (request L met.toPeer kind o).1).Void := by
  rcases request_exits L met.toPeer kind o with ⟨frame, reply, hpeer, -, -⟩ | hvoid
  · by_cases hbounds : met.bounds = true
    · exact absurd ⟨frame, hpeer, hbounds⟩ h
    · simp [request, hpeer.connects, hpeer.verifies, hbounds, Outcome.Void, errorResult]
  · exact hvoid

theorem requestPinChange_void (h : ¬∃ frame, met.Read frame) :
    (Outcome.pinChange (requestPinChange L met.toPeer o).1).Void := by
  rcases requestPinChange_exits L met.toPeer o with ⟨frame, reply, hpeer, -, -⟩ | hvoid
  · by_cases hbounds : met.bounds = true
    · exact absurd ⟨frame, hpeer, hbounds⟩ h
    · simp [requestPinChange, hpeer.connects, hpeer.verifies, hbounds, Outcome.Void,
        changeErrorResult]
  · exact hvoid

theorem requestConfirmation_void (h : ¬∃ frame, met.toPeer.Answered frame) :
    (Outcome.confirmation (requestConfirmation L met.toPeer action).1).Void := by
  intro hok
  obtain ⟨frame, -, hpeer, -⟩ := requestConfirmation_ok hok
  exact h ⟨frame, hpeer⟩

theorem reset_void (hconnects : met.connects = true) (hended : (reset L met).1 ≠ none)
    (h : ¬∃ frame left, met.toPeer.Answered frame ∧ met.bounded ≠ .failed ∧
      (waitReadable (met.now + kResetReplyBudgetMs * 1000000) met.turns).2 = .readable left) :
    (Outcome.logged (reset L met).1).Void := by
  simp only [reset, hconnects, Outcome.Void] at hended ⊢
  split
  · exact absurd trivial ‹¬True›
  split
  · exact ⟨_, rfl⟩
  rename_i hverifies
  split
  · exact ⟨_, rfl⟩
  rename_i hsends
  split
  · rename_i hwait
    simp [hverifies, hsends, hwait] at hended
  · exact ⟨_, rfl⟩
  · rename_i left hwait
    split
    · exact ⟨_, rfl⟩
    rename_i hbounded
    cases hr : met.received with
    | error e => exact ⟨_, rfl⟩
    | ok frame =>
      exact absurd ⟨frame, left, ⟨hconnects, not_not.1 hverifies, not_not.1 hsends, hr⟩, hbounded,
        hwait⟩ h

end Void

/-- What a call has to meet, beside a frame, to come to read it. -/
def ClientCall.ComesTo (met : ResetPeer) : ClientCall → Prop
  | .cancel _ => False
  | .requestConfirmation _ => True
  | .reset => met.bounded ≠ .failed ∧ ∃ left,
      (waitReadable (met.now + kResetReplyBudgetMs * 1000000) met.turns).2 = .readable left
  | .requestPin _ | .requestCan _ | .requestMrz _ | .requestPinChange _ => met.bounds = true

/-- What a call has met that read a frame, and what it has if it did not. -/
theorem ClientCall.reads_iff {met : ResetPeer} {call : ClientCall} (hconnects : met.connects = true) :
    call.reads met = true ↔ (∃ frame, met.toPeer.Answered frame) ∧ call.ComesTo met := by
  have hanswered : (∃ frame, met.toPeer.Answered frame) ↔
      met.verifies = true ∧ met.sends = true ∧ met.received.toOption.isSome = true := by
    constructor
    · rintro ⟨frame, hpeer⟩
      exact ⟨hpeer.verifies, hpeer.sends, by rw [hpeer.received]; rfl⟩
    · rintro ⟨hverifies, hsends, hreceived⟩
      cases hr : met.received with
      | error e => simp [hr, Except.toOption] at hreceived
      | ok frame => exact ⟨frame, hconnects, hverifies, hsends, hr⟩
  rw [hanswered]
  cases call with
  | reset =>
    simp only [reads, goesOut, ComesTo, Bool.and_eq_true, bne_iff_ne]
    cases (waitReadable (met.now + kResetReplyBudgetMs * 1000000) met.turns).2 with
    | readable left => simp [and_assoc]
    | waiting => simp
    | gaveUp => simp
  | cancel promptId => simp [reads, ComesTo]
  | _ =>
    simp only [reads, goesOut, ComesTo, Bool.and_eq_true]
    tauto

theorem ClientCall.void_of_not_reads {met : ResetPeer} {call : ClientCall}
    (hconnects : met.connects = true) (hended : call.run L met ≠ .logged none)
    (h : ¬call.reads met = true) : (call.run L met).Void := by
  rw [reads_iff hconnects] at h
  have hread : (∀ o, call ≠ .cancel o) → (∀ action, call ≠ .requestConfirmation action) →
      call ≠ .reset → ¬∃ frame, met.Read frame := by
    rintro hcancel hconfirm hreset ⟨frame, hpeer, hbounds⟩
    refine h ⟨⟨frame, hpeer⟩, ?_⟩
    cases call with
    | cancel o => exact hcancel o rfl
    | requestConfirmation action => exact absurd rfl (hconfirm action)
    | reset => exact absurd rfl hreset
    | _ => exact hbounds
  cases call with
  | requestPin o => exact request_void (hread nofun nofun nofun)
  | requestCan o => exact request_void (hread nofun nofun nofun)
  | requestMrz o => exact request_void (hread nofun nofun nofun)
  | requestPinChange o => exact requestPinChange_void (hread nofun nofun nofun)
  | requestConfirmation action =>
    refine requestConfirmation_void ?_
    rintro ⟨frame, hpeer⟩
    exact h ⟨⟨frame, hpeer⟩, trivial⟩
  | cancel promptId => trivial
  | reset =>
    refine reset_void hconnects (fun hnone => hended (congrArg Outcome.logged hnone)) ?_
    rintro ⟨frame, left, hpeer, hbounded, hwait⟩
    exact h ⟨⟨frame, hpeer⟩, hbounded, left, hwait⟩

/-- What a reset makes of a frame it reads. -/
theorem reset_of_read {met : ResetPeer} {frame : Bytes} {left : ℤ} (h : met.toPeer.Answered frame)
    (hbounded : met.bounded ≠ .failed)
    (hwait : (waitReadable (met.now + kResetReplyBudgetMs * 1000000) met.turns).2 =
      .readable left) :
    (reset L met).1 =
      match parseResetDone L frame with
      | .error _ =>
        some ⟨.warn, "prompter answered the reset with a message this build cannot read"⟩
      | .ok done => some ⟨.info, s!"prompter reset: {done.closed} window(s) closed"⟩ := by
  simp only [reset, h.connects, h.verifies, h.sends, hwait, hbounded, h.received]
  cases parseResetDone L frame <;> rfl

section Gives

variable {s : Exchange} {rs : List Raising} {met : ResetPeer} {frame : Bytes}
variable {call : ClientCall} {reply : PrompterReply}

/-- A peer the prompter does not take for the agent. -/
theorem rejected_of_read (hL : L.Agrees)
    (hm : topMap L frame = .ok (ofFields (unauthorizedReply.fields L)))
    (hpeer : met.toPeer.Answered frame) (hrest : call.ComesTo met) : call.run L met = call.rejected L := by
  obtain ⟨hsecret, hsecrets, hconfirm⟩ :=
    PromptReply.parse_refusal (p := unauthorizedReply) (by decide) (hL.status _) hm
  have hmessage : replyMessage .unauthorized "caller is not the agent" =
      "prompter rejected the agent (unauthorized)" := by decide
  have hno : L.promptStatusFor .unauthorized false ≠ .ok := by
    rw [Ne, hL.means]
    decide
  have hprompt : ∀ kind o, met.bounds = true → (request L met.toPeer kind o).1 =
      { status := L.promptStatusFor .unauthorized false
        userMessage := "prompter rejected the agent (unauthorized)" } := by
    intro kind o hbounds
    rw [request_of_read ⟨hpeer, hbounds⟩, hsecret]
    simp [takeReply, not_tooOld, unauthorizedReply, hmessage, hno]
  cases call with
  | requestPin o => exact congrArg Outcome.secret (hprompt .pin o hrest)
  | requestCan o => exact congrArg Outcome.secret (hprompt .can o hrest)
  | requestMrz o => exact congrArg Outcome.secret (hprompt .mrz o hrest)
  | requestPinChange o =>
    refine congrArg Outcome.pinChange ?_
    rw [requestPinChange_of_read ⟨hpeer, hrest⟩, hsecrets]
    simp [takeChangeReply, not_tooOld, unauthorizedReply, hmessage, hno]
  | requestConfirmation action =>
    refine congrArg Outcome.confirmation ?_
    rw [requestConfirmation_of_read hpeer, hconfirm]
    exact if_neg not_tooOld
  | cancel promptId => exact absurd hrest id
  | reset =>
    obtain ⟨hbounded, left, hwait⟩ := hrest
    refine congrArg Outcome.logged ?_
    rw [reset_of_read hpeer hbounded hwait]
    cases hparse : parseResetDone L frame with
    | error e => rfl
    | ok done =>
      -- its tag is another message's
      obtain ⟨m, hm', ht, -⟩ := parseResetDone_eq_ok.1 hparse
      obtain rfl := Except.ok.inj (hm.symm.trans hm')
      have hn : ((unauthorizedReply.fields L).map Prod.fst).Nodup :=
        (PrompterReply.secret unauthorizedReply).nodup_fields
      rw [getElem?_ofFields hn (v := some (.text "Secret")) (by simp [PromptReply.fields])] at ht
      simp at ht

/-- The secret a panel was answered with. -/
theorem gives_secret {c : ConnId} {kind : PromptKind} {o : PromptOptions} (hL : L.Agrees)
    (hk : s.prompter.Kept L) (hshown : s.prompter.Shown rs)
    (hcall : call.secret? = some (kind, o)) (hpeer : met.Read frame)
    (hrun : call.run L met = .secret (request L met.toPeer kind o).1)
    (hsent : Sent L s.prompter c (call.body L) reply)
    (hdispatch : dispatch L (call.body L) =
      .post (.call (.provider ((buildRequest L kind o).received L))))
    (hm : topMap L frame = .ok (ofFields (reply.fields L))) :
    s.prompter.Gives L (.conn c) call (call.run L met) := by
  cases hsent with
  | refusal hd => cases hdispatch.symm.trans hd
  | result hd hreturns hcalled hreturned hone hpaid =>
    rename_i handler result
    cases hdispatch.symm.trans hd
    cases result with
    | secret r =>
      obtain ⟨e, he, hraiser, rfl⟩ := hpaid
      have hanswered := System.answered (r := .prompt ((buildRequest L kind o).received L)) hk hshown
        hcalled hone he hraiser
      rw [hrun, request_of_read hpeer,
        PromptResult.ofAnswer_eq hL (hshown.plain e he) (hk.window.secrets e he) hm]
      exact .secret hcall hanswered
    | _ => cases hreturns

theorem gives_of_conn {c : ConnId} (hL : L.Agrees) (hk : s.prompter.Kept L)
    (hshown : s.prompter.Shown rs) (hsent : Sent L s.prompter c (call.body L) reply)
    (hdispatch : dispatch L (call.body L) = call.dispatched L)
    (hm : topMap L frame = .ok (ofFields (reply.fields L)))
    (hpeer : met.toPeer.Answered frame) (hrest : call.ComesTo met) :
    s.prompter.Gives L (.conn c) call (call.run L met) := by
  cases call with
  | requestPin o => exact gives_secret hL hk hshown rfl ⟨hpeer, hrest⟩ rfl hsent hdispatch hm
  | requestCan o => exact gives_secret hL hk hshown rfl ⟨hpeer, hrest⟩ rfl hsent hdispatch hm
  | requestMrz o => exact gives_secret hL hk hshown rfl ⟨hpeer, hrest⟩ rfl hsent hdispatch hm
  | requestPinChange o =>
    cases hsent with
    | refusal hd => cases hdispatch.symm.trans hd
    | result hd hreturns hcalled hreturned hone hpaid =>
      rename_i handler result
      cases hdispatch.symm.trans hd
      cases result with
      | secrets r =>
        rw [System.Returns, if_pos (show (buildChangeRequest L o).kind = L.kKindChangePin from rfl)]
          at hpaid
        obtain ⟨e, he, hraiser, rfl⟩ := hpaid
        have hanswered := System.answered (r := .change (buildChangeRequest L o)) hk hshown
          hcalled hone he hraiser
        rw [ClientCall.run, requestPinChange_of_read ⟨hpeer, hrest⟩,
          PinChangePromptResult.ofAnswer_eq hL (hshown.plain e he) (hk.window.secrets e he) hm]
        exact .pinChange hanswered
      | _ => cases hreturns
  | requestConfirmation action =>
    have hn := (PrompterReply.nodup_fields (L := L) reply)
    have hread : ∀ r : ConfirmReply, reply = .confirm r →
        (requestConfirmation L met.toPeer action).1 =
          { r with protocolVersion := some kPrompterProtocolVersion } := by
      rintro r rfl
      have hparse := PrompterReply.parse_received hL.status (r := .confirm r) trivial hm
      obtain ⟨r', hr', heq⟩ := map_eq_ok.1 hparse
      cases heq
      rw [requestConfirmation_of_read hpeer, hr']
      exact if_neg not_tooOld
    by_cases hkind : action.kind = "configure_trust"
    · have hd' : dispatch L _ = .post (.call (.confirmProvider action)) :=
        hdispatch.trans (if_neg (not_not.2 hkind))
      cases hsent with
      | refusal hd => cases hd'.symm.trans hd
      | result hd hreturns hcalled hreturned hone hpaid =>
        rename_i handler result
        cases hd'.symm.trans hd
        cases result with
        | confirm r =>
          rw [ClientCall.run, hread r rfl]
          exact .confirmed hkind hcalled hreturned
        | _ => cases hreturns
    · have hd' : dispatch L _ = .post (.refuse (.confirm unsupportedConfirmation)) :=
        hdispatch.trans (if_pos hkind)
      cases hsent with
      | refusal hd =>
        cases hd'.symm.trans hd
        rw [ClientCall.run, hread _ rfl]
        exact .unconfirmed hkind
      | result hd hreturns hcalled hreturned hone hpaid => cases hd'.symm.trans hd
  | cancel promptId => exact absurd hrest id
  | reset =>
    cases hsent with
    | refusal hd => cases hdispatch.symm.trans hd
    | result hd hreturns hcalled hreturned hone hpaid =>
      rename_i handler result
      cases hdispatch.symm.trans hd
      cases result with
      | closed count =>
        obtain ⟨hbounded, left, hwait⟩ := hrest
        have hparse := PrompterReply.parse_received hL.status (r := .resetDone ⟨count⟩) trivial hm
        obtain ⟨done, hdone, heq⟩ := map_eq_ok.1 hparse
        cases heq
        rw [ClientCall.run, reset_of_read hpeer hbounded hwait, hdone]
        exact .closed hpaid
      | _ => cases hreturns

end Gives

/-- A call that is over and has read a frame. -/
theorem Exchange.Kept.gives {s : Exchange} {rs : List Raising} {line : Line} {met : ResetPeer}
    (hk : s.Kept L) (hshown : s.prompter.Shown rs) (hL : L.Agrees) (hline : line ∈ s.lines)
    (hmet : line.met = some met)
    (hask : L.decode (line.call.body L) = some (toCbor ((line.call.message L).fields L)))
    (hreply : ∀ reply ∈ s.prompter.repliesTo line.peer,
      L.decode (reply.body L) = some (toCbor (reply.fields L)))
    (hreads : line.call.reads met = true) :
    s.prompter.Gives L line.peer line.call (line.call.run L met) := by
  obtain ⟨hconnects, -, hheard, -⟩ := hk.ended line hline met hmet
  obtain ⟨⟨frame, hpeer⟩, hrest⟩ := (ClientCall.reads_iff hconnects).1 hreads
  obtain ⟨reply, hmem, hbody⟩ := List.mem_map.1 (hheard frame (by rw [hpeer.received]; rfl))
  have hm : topMap L frame = .ok (ofFields (reply.fields L)) := by
    rw [← hbody]
    exact topMap_encode (hreply reply hmem)
  rw [System.mem_repliesTo] at hmem
  have hread := hk.read line hline
  cases hname : line.peer with
  | refused n =>
    rw [hname] at hmem
    have hmarks := Server.mem_marksOf.2 hmem
    rw [hk.prompter.served.refused] at hmarks
    have hunauthorized : reply = .secret unauthorizedReply := by
      split at hmarks
      · simpa using hmarks
      · cases hmarks
    subst hunauthorized
    rw [rejected_of_read hL hm hpeer hrest]
    exact .rejected n line.call
  | conn c =>
    rw [hname] at hmem hread
    obtain ⟨frame', frames, ok, harrived, hsent⟩ :=
      System.sent_of_replied hk.prompter hk.paid hmem
    -- the one frame of the connection is the call's request
    have hown : frame' = line.call.body L := by
      obtain hnil | ⟨-, hown⟩ := hread _ _ harrived
      · cases hnil
      · exact (List.cons.inj hown).1
    rw [hown] at hsent
    exact gives_of_conn hL hk.prompter hshown hsent (ClientCall.dispatch_body hL hask) hm hpeer hrest

/-- And one that has read none. -/
theorem Exchange.Kept.void {s : Exchange} {line : Line} {met : ResetPeer} (hk : s.Kept L)
    (hline : line ∈ s.lines) (hmet : line.met = some met) (hreads : ¬line.call.reads met = true) :
    (line.call.run L met).Void := by
  obtain ⟨hconnects, -, -, hended⟩ := hk.ended line hline met hmet
  exact ClientCall.void_of_not_reads hconnects hended hreads

/-- **What a call gives its caller is its own.** In every run of the two
sides, with any number of calls at once and any other peers: a call that
read a frame gives what became of its own request, one that read none gives
nothing, and no two calls share a connection. -/
theorem calls_hear_their_own (hL : L.Agrees) {s : Exchange} (h : (exchange L).Reachable s)
    {line : Line} {met : ResetPeer} (hline : line ∈ s.lines) (hmet : line.met = some met)
    (hask : L.decode (line.call.body L) = some (toCbor ((line.call.message L).fields L)))
    (hreply : ∀ reply ∈ s.prompter.repliesTo line.peer,
      L.decode (reply.body L) = some (toCbor (reply.fields L))) :
    (line.call.reads met = true → s.prompter.Gives L line.peer line.call (line.call.run L met)) ∧
    (line.call.reads met = false → (line.call.run L met).Void) ∧
    ∀ line' ∈ s.lines, line'.peer = line.peer → line' = line := by
  have hk := exchange_kept h
  obtain ⟨rs, hshown⟩ := exchange_shown h
  refine ⟨hk.gives hshown hL hline hmet hask hreply, fun hreads => ?_, fun line' hline' hpeer => ?_⟩
  · refine hk.void hline hmet ?_
    rw [hreads]
    exact Bool.false_ne_true
  · exact List.inj_on_of_nodup_map hk.once hline' hline hpeer

/-! ## Two prompts at once -/

def askPin : ClientCall := .requestPin { promptId := "a" }

def askChange : ClientCall := .requestPinChange { promptId := "b", minLength := 1, maxLength := 4 }

/-- What a call meets that is answered with this reply. -/
def metReply (reply : PrompterReply) : ResetPeer where
  connects := true
  verifies := true
  bounds := true
  sends := true
  received := .ok (reply.body plainLibrary)
  now := 0
  turns := []
  bounded := .done

/-- The change is asked for second and answered first. -/
def twoCalls : List ExchangeInput :=
  [.connect askPin true, .connect askChange true, .send 0, .send 1,
   .prompter (.serial (.readReady 2 [askChange.body plainLibrary] true)),
   .prompter (.serial (.readReady 1 [askPin.body plainLibrary] true)),
   .prompter (.runBlock 1), .prompter (.runBlock 0), .prompter .mainTurn, .prompter .mainTurn,
   .prompter (.user (.edit 1 .primary [49])), .prompter (.user (.edit 1 .new [50])),
   .prompter (.user (.edit 1 .confirm [50])), .prompter (.user (.okPressed 1)),
   .prompter (.user (.edit 0 .primary [51])), .prompter (.user (.okPressed 0)),
   .prompter (.providerReturns 0 (.secrets { status := .ok, primary := [49], secondary := [50] })),
   .prompter (.providerReturns 0 (.secret { status := .ok, secret := [51] })),
   .returns 1 (metReply (.secrets { status := .ok, primary := [49], secondary := [50] })),
   .returns 0 (metReply (.secret { status := .ok, secret := [51] }))]

theorem calls_hear_their_own_two :
    ∃ s, (exchange plainLibrary).run {} twoCalls = some s ∧
      s.prompter.Gives plainLibrary (.conn 1) askPin (.secret { status := .ok, secret := [51] }) := by
  have hrun : ((exchange plainLibrary).run {} twoCalls).any (fun s =>
      ⟨.conn 1, askPin, true, some (metReply (.secret { status := .ok, secret := [51] }))⟩ ∈ s.lines ∧
        ∀ reply ∈ s.prompter.repliesTo (.conn 1), reply = .secret { status := .ok, secret := [51] })
      = true := by decide +kernel
  obtain ⟨s, hs, hend⟩ := (Option.any_eq_true _ _).1 hrun
  obtain ⟨hline, hreplies⟩ := of_decide_eq_true hend
  refine ⟨s, hs, ?_⟩
  have hgives := (calls_hear_their_own plainLibrary_agrees ⟨{}, twoCalls, rfl, hs⟩ hline rfl
    (by decide +kernel) ?_).1 (by decide +kernel)
  · have hrun : askPin.run plainLibrary (metReply (.secret { status := .ok, secret := [51] })) =
        .secret { status := .ok, secret := [51] } := by decide +kernel
    exact hrun ▸ hgives
  · intro reply hmem
    rw [hreplies reply hmem]
    decide +kernel

end Prompter

end LibreDarwin
