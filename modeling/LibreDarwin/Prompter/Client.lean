import LibreDarwin.Prompter.Parsing
import LibreDarwin.Prompter.Model.Client
import LibreDarwin.Prompter.Model.Library

/-!
# Whose answers the agent takes

The three exchanges of the client leave by a dozen exits. Each is sorted
here once: either a reply was read from a verified peer, and the result is
what that reply says, or the result is no Ok and holds no secret
(`request_exits` and its siblings). What an Ok then stands for is read off
the reply's own map.
-/

namespace LibreDarwin

namespace Prompter

open Wire

variable {L : AgentLibrary} {peer : Peer} {m : CborMap} {frame : Bytes}

/-- **An Ok of this build's version or a later one.** -/
def CurrentOk (L : AgentLibrary) (m : CborMap) : Prop :=
  (∃ word, m["status"]? = some (.text word) ∧ L.replyStatusFromToken word = some .ok) ∧
    ∃ v, m["v"]? = some (.uint v) ∧ kPrompterProtocolVersion.toUInt64 ≤ v

/-- The exchange went all the way to a frame. -/
structure Peer.Answered (peer : Peer) (frame : Bytes) : Prop where
  connects : peer.connects = true
  verifies : peer.verifies = true
  sends : peer.sends = true
  received : peer.received = .ok frame

theorem StatusIn.currentOk {status : PromptReplyStatus} {msg : String} {o : Option UInt32}
    (h : StatusIn L m status msg o) (hok : status = .ok) (hnew : ¬TooOld o) : CurrentOk L m := by
  subst hok
  refine ⟨replyStatus_eq_ok.1 h.status, ?_⟩
  rcases optReplyVersion_eq_ok.1 h.protocolVersion with ⟨-, rfl⟩ | ⟨v, hv, hfits, rfl⟩
  · exact absurd (by rintro w ⟨⟩) hnew
  · refine ⟨v, hv, UInt64.not_lt.1 fun hlt => hnew ?_⟩
    rintro w ⟨⟩
    -- the version fits, so narrowing it changes nothing
    have hle : v.toNat ≤ 2 ^ 32 - 1 := UInt64.le_iff_toNat_le.1 hfits
    have hlt : v.toNat < 2 := UInt64.lt_iff_toNat_lt.1 hlt
    have hmod : v.toUInt32.toNat = v.toNat % 2 ^ 32 := rfl
    refine UInt32.lt_iff_toNat_lt.2 ?_
    show v.toUInt32.toNat < 2
    omega

theorem recvFrameBounded_eq_ok : recvFrameBounded peer = .ok frame ↔ peer.received = .ok frame := by
  rw [recvFrameBounded]
  cases peer.received with
  | ok body => simp
  | error e => cases e <;> simp

/-! ## One secret -/

section Request

variable {kind : PromptKind} {options : PromptOptions}

theorem takeReply_ok (hstatus : ∀ status, L.promptStatusFor status false = .ok → status = .ok)
    {reply : PromptReply} (h : (takeReply L reply).status = .ok) :
    ¬TooOld reply.protocolVersion ∧ reply.status = .ok ∧
      (takeReply L reply).secret = reply.secret := by
  rw [takeReply] at h ⊢
  split at h
  · cases h
  · rename_i hnew
    rw [if_neg hnew]
    exact ⟨hnew, hstatus _ h, if_pos h⟩

theorem takeReply_secret {reply : PromptReply} (h : (takeReply L reply).status ≠ .ok) :
    (takeReply L reply).secret = [] := by
  rw [takeReply] at h ⊢
  split at h
  · rename_i hold
    rw [if_pos hold]
  · rename_i hnew
    rw [if_neg hnew]
    exact if_neg h

/-- The exits of `request`. -/
theorem request_exits (L : AgentLibrary) (peer : Peer) (kind : PromptKind)
    (options : PromptOptions) :
    (∃ frame reply, peer.Answered frame ∧ parsePromptReply L frame = .ok reply ∧
      (request L peer kind options).1 = takeReply L reply) ∨
    (request L peer kind options).1.status ≠ .ok ∧ (request L peer kind options).1.secret = [] := by
  rw [request]
  split
  · exact .inr ⟨nofun, rfl⟩
  rename_i hconnects
  split
  · exact .inr ⟨nofun, rfl⟩
  rename_i hverifies
  split
  · exact .inr ⟨nofun, rfl⟩
  dsimp only
  split
  · exact .inr ⟨nofun, rfl⟩
  rename_i hsends
  cases hrecv : recvFrameBounded peer with
  | error e => cases e <;> exact .inr ⟨nofun, rfl⟩
  | ok frame =>
    dsimp only
    cases hparse : parsePromptReply L frame with
    | error e => exact .inr ⟨nofun, rfl⟩
    | ok reply =>
      exact .inl ⟨frame, reply, ⟨not_not.1 hconnects, not_not.1 hverifies, not_not.1 hsends,
        recvFrameBounded_eq_ok.1 hrecv⟩, hparse, rfl⟩

theorem request_silent (h : peer.verifies = false) : (request L peer kind options).2 = [] := by
  rw [request]
  split
  · rfl
  · rw [if_pos (by simp [h])]

theorem request_ok (hstatus : ∀ status, L.promptStatusFor status false = .ok → status = .ok)
    (h : (request L peer kind options).1.status = .ok) :
    ∃ frame m, peer.Answered frame ∧ topMap L frame = .ok m ∧ CurrentOk L m ∧
      m["secret"]? = some (.bytes (request L peer kind options).1.secret) ∧
      (request L peer kind options).1.secret.length ≤ L.kMaxSecretBytes := by
  rcases request_exits L peer kind options with
    ⟨frame, reply, hpeer, hparse, heq⟩ | ⟨hne, -⟩
  · rw [heq] at h ⊢
    obtain ⟨hnew, hok, hsecret⟩ := takeReply_ok hstatus h
    obtain ⟨m, hm, hread, hin⟩ := parsePromptReply_eq_ok.1 hparse
    rw [SecretIn, if_pos hok] at hin
    rw [hsecret]
    exact ⟨frame, m, hpeer, hm, hread.currentOk hok hnew, hin⟩
  · exact absurd h hne

theorem request_secret (h : (request L peer kind options).1.status ≠ .ok) :
    (request L peer kind options).1.secret = [] := by
  rcases request_exits L peer kind options with
    ⟨frame, reply, -, -, heq⟩ | ⟨-, hsecret⟩
  · rw [heq] at h ⊢
    exact takeReply_secret h
  · exact hsecret

end Request

/-! ## The PIN pair -/

section Change

variable {options : PromptOptions}

theorem takeChangeReply_ok
    (hstatus : ∀ status, L.promptStatusFor status false = .ok → status = .ok)
    {reply : MultiPromptReply} (h : (takeChangeReply L reply).status = .ok) :
    ¬TooOld reply.protocolVersion ∧ reply.status = .ok ∧
      (takeChangeReply L reply).current = reply.primary ∧
      (takeChangeReply L reply).newPin = reply.secondary := by
  rw [takeChangeReply] at h ⊢
  split at h
  · cases h
  · rename_i hnew
    rw [if_neg hnew]
    exact ⟨hnew, hstatus _ h, if_pos h, if_pos h⟩

theorem takeChangeReply_secrets {reply : MultiPromptReply}
    (h : (takeChangeReply L reply).status ≠ .ok) :
    (takeChangeReply L reply).current = [] ∧ (takeChangeReply L reply).newPin = [] := by
  rw [takeChangeReply] at h ⊢
  split at h
  · rename_i hold
    rw [if_pos hold]
    exact ⟨rfl, rfl⟩
  · rename_i hnew
    rw [if_neg hnew]
    exact ⟨if_neg h, if_neg h⟩

/-- The exits of `requestPinChange`. -/
theorem requestPinChange_exits (L : AgentLibrary) (peer : Peer) (options : PromptOptions) :
    (∃ frame reply, peer.Answered frame ∧ parseMultiPromptReply L frame = .ok reply ∧
      (requestPinChange L peer options).1 = takeChangeReply L reply) ∨
    (requestPinChange L peer options).1.status ≠ .ok ∧
      (requestPinChange L peer options).1.current = [] ∧
      (requestPinChange L peer options).1.newPin = [] := by
  rw [requestPinChange]
  split
  · exact .inr ⟨nofun, rfl, rfl⟩
  rename_i hconnects
  split
  · exact .inr ⟨nofun, rfl, rfl⟩
  rename_i hverifies
  split
  · exact .inr ⟨nofun, rfl, rfl⟩
  dsimp only
  split
  · exact .inr ⟨nofun, rfl, rfl⟩
  rename_i hsends
  cases hrecv : recvFrameBounded peer with
  | error e => cases e <;> exact .inr ⟨nofun, rfl, rfl⟩
  | ok frame =>
    dsimp only
    cases hparse : parseMultiPromptReply L frame with
    | error e => exact .inr ⟨nofun, rfl, rfl⟩
    | ok reply =>
      exact .inl ⟨frame, reply, ⟨not_not.1 hconnects, not_not.1 hverifies, not_not.1 hsends,
        recvFrameBounded_eq_ok.1 hrecv⟩, hparse, rfl⟩

theorem requestPinChange_silent (h : peer.verifies = false) :
    (requestPinChange L peer options).2 = [] := by
  rw [requestPinChange]
  split
  · rfl
  · rw [if_pos (by simp [h])]

theorem requestPinChange_ok
    (hstatus : ∀ status, L.promptStatusFor status false = .ok → status = .ok)
    (h : (requestPinChange L peer options).1.status = .ok) :
    ∃ frame m, peer.Answered frame ∧ topMap L frame = .ok m ∧ CurrentOk L m ∧
      m["primary"]? = some (.bytes (requestPinChange L peer options).1.current) ∧
      (requestPinChange L peer options).1.current.length ≤ L.kMaxSecretBytes ∧
      m["secondary"]? = some (.bytes (requestPinChange L peer options).1.newPin) ∧
      (requestPinChange L peer options).1.newPin.length ≤ L.kMaxSecretBytes := by
  rcases requestPinChange_exits L peer options with
    ⟨frame, reply, hpeer, hparse, heq⟩ | ⟨hne, -⟩
  · rw [heq] at h ⊢
    obtain ⟨hnew, hok, hcurrent, hnewPin⟩ := takeChangeReply_ok hstatus h
    obtain ⟨m, hm, hread, hprimary, hsecondary⟩ := parseMultiPromptReply_eq_ok.1 hparse
    rw [SecretIn, if_pos hok] at hprimary hsecondary
    rw [hcurrent, hnewPin]
    exact ⟨frame, m, hpeer, hm, hread.currentOk hok hnew, hprimary.1, hprimary.2, hsecondary⟩
  · exact absurd h hne

theorem requestPinChange_secrets (h : (requestPinChange L peer options).1.status ≠ .ok) :
    (requestPinChange L peer options).1.current = [] ∧
      (requestPinChange L peer options).1.newPin = [] := by
  rcases requestPinChange_exits L peer options with
    ⟨frame, reply, -, -, heq⟩ | ⟨-, hsecrets⟩
  · rw [heq] at h ⊢
    exact takeChangeReply_secrets h
  · exact hsecrets

end Change

/-! ## A confirmation -/

section Confirmation

variable {action : ConfirmAction}

theorem requestConfirmation_ok (h : (requestConfirmation L peer action).1.status = .ok) :
    ∃ frame m, peer.Answered frame ∧ topMap L frame = .ok m ∧ CurrentOk L m ∧
      "secret" ∉ m ∧ "primary" ∉ m ∧ "secondary" ∉ m := by
  rw [requestConfirmation] at h
  split at h
  · cases h
  rename_i hconnects
  split at h
  · cases h
  rename_i hverifies
  dsimp only at h
  split at h
  · cases h
  rename_i hsends
  cases hrecv : peer.received with
  | error e =>
    rw [hrecv] at h
    cases h
  | ok frame =>
    rw [hrecv] at h
    dsimp only at h
    cases hparse : parseConfirmReply L frame with
    | error e =>
      rw [hparse] at h
      cases h
    | ok reply =>
      rw [hparse] at h
      dsimp only at h
      split at h
      · cases h
      · rename_i hnew
        obtain ⟨m, hm, hread, hnone⟩ := parseConfirmReply_eq_ok.1 hparse
        rw [not_or, not_or] at hnone
        exact ⟨frame, m, ⟨not_not.1 hconnects, not_not.1 hverifies, not_not.1 hsends, hrecv⟩, hm,
          hread.currentOk h hnew, hnone⟩

theorem requestConfirmation_silent (h : peer.verifies = false) :
    (requestConfirmation L peer action).2 = [] := by
  rw [requestConfirmation]
  split
  · rfl
  · rw [if_pos (by simp [h])]

end Confirmation

/-- **The agent takes an answer only from a current helper.** An Ok is a
verified peer's Ok in this build's version or a later one, with its
secrets within the cap and each in its place, and a confirmation's with
none; anything else is no Ok and holds no secret, and an unverified peer
is sent nothing. -/
theorem answer_of_current_helper
    (hstatus : ∀ status, L.promptStatusFor status false = .ok → status = .ok) (peer : Peer) :
    (∀ kind options,
      ((request L peer kind options).1.status = .ok →
        ∃ frame m, peer.Answered frame ∧ topMap L frame = .ok m ∧ CurrentOk L m ∧
          m["secret"]? = some (.bytes (request L peer kind options).1.secret) ∧
          (request L peer kind options).1.secret.length ≤ L.kMaxSecretBytes) ∧
      ((request L peer kind options).1.status ≠ .ok →
        (request L peer kind options).1.secret = []) ∧
      (peer.verifies = false → (request L peer kind options).2 = [])) ∧
    (∀ options,
      ((requestPinChange L peer options).1.status = .ok →
        ∃ frame m, peer.Answered frame ∧ topMap L frame = .ok m ∧ CurrentOk L m ∧
          m["primary"]? = some (.bytes (requestPinChange L peer options).1.current) ∧
          (requestPinChange L peer options).1.current.length ≤ L.kMaxSecretBytes ∧
          m["secondary"]? = some (.bytes (requestPinChange L peer options).1.newPin) ∧
          (requestPinChange L peer options).1.newPin.length ≤ L.kMaxSecretBytes) ∧
      ((requestPinChange L peer options).1.status ≠ .ok →
        (requestPinChange L peer options).1.current = [] ∧
          (requestPinChange L peer options).1.newPin = []) ∧
      (peer.verifies = false → (requestPinChange L peer options).2 = [])) ∧
    (∀ action,
      ((requestConfirmation L peer action).1.status = .ok →
        ∃ frame m, peer.Answered frame ∧ topMap L frame = .ok m ∧ CurrentOk L m ∧
          "secret" ∉ m ∧ "primary" ∉ m ∧ "secondary" ∉ m) ∧
      (peer.verifies = false → (requestConfirmation L peer action).2 = [])) :=
  ⟨fun _ _ => ⟨request_ok hstatus, request_secret, request_silent⟩,
    fun _ => ⟨requestPinChange_ok hstatus, requestPinChange_secrets, requestPinChange_silent⟩,
    fun _ => ⟨requestConfirmation_ok, requestConfirmation_silent⟩⟩

/-- A prompter that hands over a PIN. -/
def servingPeer : Peer :=
  ⟨true, true, true, true, .ok (plainLibrary.encode
    (toCbor (PromptReply.fields plainLibrary { status := .ok, secret := [49, 50] })))⟩

theorem answer_of_current_helper_serving :
    ∃ frame m, servingPeer.Answered frame ∧ topMap plainLibrary frame = .ok m ∧
      CurrentOk plainLibrary m ∧
      m["secret"]? = some (.bytes (request plainLibrary servingPeer .pin {}).1.secret) ∧
      (request plainLibrary servingPeer .pin {}).1.secret.length ≤ plainLibrary.kMaxSecretBytes :=
  ((answer_of_current_helper (L := plainLibrary) (by intro status; cases status <;> decide)
    servingPeer).1 .pin {}).1 (by decide +kernel)

end Prompter

end LibreDarwin
