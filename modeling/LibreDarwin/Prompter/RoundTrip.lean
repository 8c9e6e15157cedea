import LibreDarwin.Prompter.Parsing
import LibreDarwin.Prompter.Model.Library

/-!
# A message comes back as it was sent

The encoders leave empty values out and the parsers fill absent keys in,
so the two have to agree key by key. They do: every request and every
reply is the message `In` its own map, up to the two things an encoder
does not send, the unknown reader interface and a secret without an Ok.
A reply of one kind is told from the others by the secrets it carries,
not by its tag.
-/

namespace LibreDarwin

namespace Prompter

open Wire
open Std (ExtTreeMap)

variable {L : AgentLibrary}

/-! ## No key is stored twice -/

theorem PromptRequest.nodup_fields (p : PromptRequest) : ((p.fields L).map Prod.fst).Nodup := by
  simp [PromptRequest.fields, version]

theorem RequestSecrets.nodup_fields (r : RequestSecrets) : (r.fields.map Prod.fst).Nodup := by
  simp [RequestSecrets.fields, version]

theorem ConfirmAction.nodup_fields (r : ConfirmAction) : (r.fields.map Prod.fst).Nodup := by
  simp [ConfirmAction.fields, version]

theorem PrompterRequest.nodup_fields (r : PrompterRequest) :
    ((r.fields L).map Prod.fst).Nodup := by
  cases r with
  | prompt p => exact p.nodup_fields
  | cancel c => simp [fields, PromptCancel.fields, version]
  | secrets r => exact r.nodup_fields
  | confirm r => exact r.nodup_fields
  | reset => simp [fields, resetFields, version]

theorem PrompterReply.nodup_fields (r : PrompterReply) : ((r.fields L).map Prod.fst).Nodup := by
  cases r with
  | secret r => simp [fields, PromptReply.fields, version]
  | secrets r => simp [fields, MultiPromptReply.fields, version]
  | confirm r => simp [fields, ConfirmReply.fields, version]
  | resetDone r => simp [fields, ResetDone.fields, version]

/-! ## Requests -/

/-- A prompt as it is received: an interface that could not be determined
has become silence. -/
def PromptRequest.received (L : AgentLibrary) (p : PromptRequest) : PromptRequest :=
  { p with
    readerInterface :=
      if p.readerInterface = L.readerInterfaceToken .unknown then "" else p.readerInterface }

theorem PromptRequest.received_in {p : PromptRequest}
    (hkind : L.kindFromToken (L.kindToken p.kind) = some p.kind) (hsingle : p.kind ≠ .changePin) :
    (p.received L).In L (ofFields (p.fields L)) where
  kind := ⟨_, getElem?_ofFields p.nodup_fields (by simp [fields]), hkind⟩
  single := hsingle
  display :=
    ⟨optText_ofFields p.nodup_fields (by simp [fields, received]),
      optText_ofFields p.nodup_fields (by simp [fields, received]),
      optText_ofFields p.nodup_fields (by simp [fields, received]),
      optText_ofFields p.nodup_fields (by simp [fields, received])⟩
  minLength := hasUint_ofFields p.nodup_fields (by simp [fields, received])
  maxLength := hasUint_ofFields p.nodup_fields (by simp [fields, received])
  artifacts := optStringArray_ofFields p.nodup_fields (by simp [fields, received])
  attempt := hasUint_ofFields p.nodup_fields (by simp [fields, received])
  lastError := optText_ofFields p.nodup_fields (by simp [fields, received])
  promptId := optText_ofFields p.nodup_fields (by simp [fields, received])
  deadlineMs := hasUint_ofFields p.nodup_fields (by simp [fields, received])
  altDeadlineMs := hasUint_ofFields p.nodup_fields (by simp [fields, received])
  readerModel := optText_ofFields p.nodup_fields (by simp [fields, received])
  readerInterface := by
    refine optText_ofFields p.nodup_fields ?_
    by_cases h : p.readerInterface = L.readerInterfaceToken .unknown
    · simp [fields, received, h, text?]
    · simp [fields, received, h]
  readerFull := optText_ofFields p.nodup_fields (by simp [fields, received])

theorem RequestSecrets.in_ofFields (r : RequestSecrets) : r.In (ofFields r.fields) where
  kind := getElem?_ofFields r.nodup_fields (by simp [fields])
  display :=
    ⟨optText_ofFields r.nodup_fields (by simp [fields]),
      optText_ofFields r.nodup_fields (by simp [fields]),
      optText_ofFields r.nodup_fields (by simp [fields]),
      optText_ofFields r.nodup_fields (by simp [fields])⟩
  primaryMinLength := hasUint_ofFields r.nodup_fields (by simp [fields])
  primaryMaxLength := hasUint_ofFields r.nodup_fields (by simp [fields])
  newMinLength := hasUint_ofFields r.nodup_fields (by simp [fields])
  newMaxLength := hasUint_ofFields r.nodup_fields (by simp [fields])
  promptId := optText_ofFields r.nodup_fields (by simp [fields])
  deadlineMs := hasUint_ofFields r.nodup_fields (by simp [fields])

theorem ConfirmAction.in_ofFields (r : ConfirmAction) : r.In (ofFields r.fields) where
  kind := getElem?_ofFields r.nodup_fields (by simp [fields])
  display :=
    ⟨optText_ofFields r.nodup_fields (by simp [fields]),
      optText_ofFields r.nodup_fields (by simp [fields]),
      optText_ofFields r.nodup_fields (by simp [fields]),
      optText_ofFields r.nodup_fields (by simp [fields])⟩
  descriptionKey := optText_ofFields r.nodup_fields (by simp [fields])

/-- Every encoder announces this build's version. -/
theorem PrompterRequest.version_mem (r : PrompterRequest) : version ∈ r.fields L := by
  cases r <;> simp [fields, PromptRequest.fields, PromptCancel.fields, RequestSecrets.fields,
    ConfirmAction.fields, resetFields]

theorem PrompterRequest.versionRead (r : PrompterRequest) : VersionRead (ofFields (r.fields L)) :=
  .inr ⟨_, getElem?_ofFields r.nodup_fields r.version_mem, UInt64.le_refl _⟩

/-- The request read from its own map, whichever it is. -/
theorem PrompterRequest.in_ofFields {r r' : PrompterRequest}
    (hkind : ∀ kind, L.kindFromToken (L.kindToken kind) = some kind)
    (h : match r with
      | .prompt p => p.kind ≠ .changePin ∧ r' = .prompt (p.received L)
      | _ => r' = r) : r'.In L (ofFields (r.fields L)) := by
  have hn := r.nodup_fields (L := L)
  cases r with
  | prompt p =>
    obtain ⟨hsingle, rfl⟩ := h
    exact ⟨getElem?_ofFields hn (by simp [fields, PromptRequest.fields]),
      PromptRequest.received_in (hkind _) hsingle⟩
  | cancel c =>
    obtain rfl := h
    exact ⟨getElem?_ofFields hn (by simp [fields, PromptCancel.fields]),
      optText_ofFields hn (by simp [fields, PromptCancel.fields])⟩
  | secrets r =>
    obtain rfl := h
    exact ⟨getElem?_ofFields hn (by simp [fields, RequestSecrets.fields]), r.in_ofFields⟩
  | confirm r =>
    obtain rfl := h
    exact ⟨getElem?_ofFields hn (by simp [fields, ConfirmAction.fields]), r.in_ofFields⟩
  | reset =>
    obtain rfl := h
    exact getElem?_ofFields hn (by simp [fields, resetFields])

/-- A single-secret request for the PIN pair. -/
theorem PromptRequest.parse_changePin {p : PromptRequest} (hp : p.kind = .changePin)
    (hkind : L.kindFromToken (L.kindToken p.kind) = some p.kind)
    (hcodec : L.decode (L.encode (toCbor (p.fields L))) = some (toCbor (p.fields L))) :
    parsePrompterRequest L (L.encode (toCbor (p.fields L))) = .error .badEnum := by
  have hv : optAnnouncedVersion (ofFields (p.fields L)) =
      .ok (some kPrompterProtocolVersion.toUInt64) :=
    optAnnouncedVersion_ofFields p.nodup_fields (by simp [fields])
  have ht : requiredText (ofFields (p.fields L)) "t" = .ok "RequestSecret" :=
    requiredText_ofFields p.nodup_fields (by simp [fields])
  have hword : requiredText (ofFields (p.fields L)) "kind" = .ok (L.kindToken p.kind) :=
    requiredText_ofFields p.nodup_fields (by simp [fields])
  have hbad : secretKind L (L.kindToken p.kind) = .error .badEnum := by
    rw [secretKind, hkind]
    exact if_pos hp
  simp only [parsePrompterRequest, topMap_encode hcodec, ok_bind, parseMap, hv, Option.getD_some,
    UInt64.lt_irrefl, if_false, ht]
  simp [parseTagged, parsePrompt, hword, hbad]

/-- **A request comes back as it was sent.** Only an undetermined reader
interface is lost on the way, and only a prompt for the PIN pair is
refused. -/
theorem request_roundTrip (r : PrompterRequest)
    (hkind : ∀ kind, L.kindFromToken (L.kindToken kind) = some kind)
    (hcodec : L.decode (L.encode (toCbor (r.fields L))) = some (toCbor (r.fields L))) :
    ((∀ p, r = .prompt p →
        p.kind ≠ .changePin ∧ p.readerInterface ≠ L.readerInterfaceToken .unknown) →
      parsePrompterRequest L (L.encode (toCbor (r.fields L))) = .ok r) ∧
    (∀ p, r = .prompt p → p.kind ≠ .changePin →
      p.readerInterface = L.readerInterfaceToken .unknown →
      parsePrompterRequest L (L.encode (toCbor (r.fields L))) =
        .ok (.prompt { p with readerInterface := "" })) ∧
    (∀ p, r = .prompt p → p.kind = .changePin →
      parsePrompterRequest L (L.encode (toCbor (r.fields L))) = .error .badEnum) := by
  have hread : ∀ r' : PrompterRequest, r'.In L (ofFields (r.fields L)) →
      parsePrompterRequest L (L.encode (toCbor (r.fields L))) = .ok r' := by
    intro r' hin
    exact parsePrompterRequest_eq_ok.2 ⟨_, topMap_encode hcodec, r.versionRead, hin⟩
  refine ⟨fun h => hread r (PrompterRequest.in_ofFields hkind ?_), ?_, ?_⟩
  · cases r with
    | prompt p =>
      obtain ⟨hsingle, hiface⟩ := h p rfl
      exact ⟨hsingle, by rw [PromptRequest.received, if_neg hiface]⟩
    | _ => rfl
  · rintro p rfl hsingle hiface
    refine hread _ (PrompterRequest.in_ofFields hkind ⟨hsingle, ?_⟩)
    rw [PromptRequest.received, if_pos hiface]
  · rintro p rfl hchange
    exact PromptRequest.parse_changePin hchange (hkind _) hcodec

/-- A prompt for a CAN with its consent list. -/
theorem request_roundTrip_can :
    parsePrompterRequest plainLibrary
      (plainLibrary.encode (toCbor (PrompterRequest.fields plainLibrary
        (.prompt { kind := .can, artifacts := ["a.pdf", "b.pdf"], deadlineMs := 60000 })))) =
      .ok (.prompt { kind := .can, artifacts := ["a.pdf", "b.pdf"], deadlineMs := 60000 }) :=
  (request_roundTrip (L := plainLibrary)
    (.prompt { kind := .can, artifacts := ["a.pdf", "b.pdf"], deadlineMs := 60000 })
    (by intro kind; cases kind <;> decide) (by decide +kernel)).1
    (by rintro p h; cases h; decide)

/-! ## Replies -/

inductive ReplyKind
  | secret
  | secrets
  | confirm
  | resetDone
  deriving DecidableEq, Repr

/-- The parser of each kind of reply. -/
def parseReply (L : AgentLibrary) (body : Bytes) :
    ReplyKind → Except PrompterParseError PrompterReply
  | .secret => .secret <$> parsePromptReply L body
  | .secrets => .secrets <$> parseMultiPromptReply L body
  | .confirm => .confirm <$> parseConfirmReply L body
  | .resetDone => .resetDone <$> parseResetDone L body

namespace PrompterReply

def kind : PrompterReply → ReplyKind
  | .secret _ => .secret
  | .secrets _ => .secrets
  | .confirm _ => .confirm
  | .resetDone _ => .resetDone

/-- The status of a reply that has one. -/
def status : PrompterReply → Option PromptReplyStatus
  | .secret r => some r.status
  | .secrets r => some r.status
  | .confirm r => some r.status
  | .resetDone _ => none

/-- Every secret is within the cap. -/
def Fits (L : AgentLibrary) : PrompterReply → Prop
  | .secret r => r.secret.length ≤ L.kMaxSecretBytes
  | .secrets r =>
    r.primary.length ≤ L.kMaxSecretBytes ∧ r.secondary.length ≤ L.kMaxSecretBytes
  | _ => True

/-- A reply as it is received: in this build's version, and with its
secrets only if it is an Ok. -/
def received : PrompterReply → PrompterReply
  | .secret r =>
    .secret
      { r with
        secret := if r.status = .ok then r.secret else []
        protocolVersion := some kPrompterProtocolVersion }
  | .secrets r =>
    .secrets
      { r with
        primary := if r.status = .ok then r.primary else []
        secondary := if r.status = .ok then r.secondary else []
        protocolVersion := some kPrompterProtocolVersion }
  | .confirm r => .confirm { r with protocolVersion := some kPrompterProtocolVersion }
  | .resetDone r => .resetDone r

end PrompterReply

section Replies

variable {k : String} {status : PromptReplyStatus} {msg : String}

/-- What an encoder stored of a status reply. -/
theorem statusIn_ofFields {fields : List (String × Option CborValue)}
    (hnodup : (fields.map Prod.fst).Nodup)
    (hword : L.replyStatusFromToken (L.replyStatusToken status) = some status)
    (hstatus : ("status", some (.text (L.replyStatusToken status))) ∈ fields)
    (hmsg : ("userMessage", text? msg) ∈ fields) (hversion : version ∈ fields) :
    StatusIn L (ofFields fields) status msg (some kPrompterProtocolVersion) :=
  ⟨replyStatus_ofFields hnodup hword hstatus, optText_ofFields hnodup hmsg,
    optReplyVersion_ofFields hnodup hversion⟩

/-- A secret the encoder sent with an Ok. -/
theorem secretIn_ofFields {fields : List (String × Option CborValue)} {secret : Bytes}
    (hnodup : (fields.map Prod.fst).Nodup) (h : (k, secret? status secret) ∈ fields)
    (hfits : secret.length ≤ L.kMaxSecretBytes) :
    SecretIn L (ofFields fields) status k (if status = .ok then secret else []) := by
  rw [SecretIn]
  split
  · rename_i hok
    rw [getElem?_ofFields hnodup h, secret?, if_pos hok]
    exact ⟨rfl, hfits⟩
  · rfl

/-- What a parser needs of a map whose status is Ok. -/
def OkShape (m : CborMap) : ReplyKind → Prop
  | .secret => m["secret"]? ≠ none
  | .secrets => m["primary"]? ≠ none
  | .confirm => m["secret"]? = none ∧ m["primary"]? = none
  | .resetDone => m["t"]? = some (.text "ResetDone")

theorem SecretIn.ne_none {m : CborMap} {secret : Bytes} (h : SecretIn L m .ok k secret) :
    m[k]? ≠ none := by
  rw [SecretIn, if_pos rfl] at h
  rw [h.1]
  exact Option.some_ne_none _

theorem StatusIn.ok_of_read {m : CborMap} {o : Option UInt32}
    (h : StatusIn L m status msg o) (hok : replyStatus L m = .ok .ok) : status = .ok :=
  Except.ok.inj (h.status.symm.trans hok)

theorem okShape_of_parse {m : CborMap} {body : Bytes} {kind : ReplyKind} {r : PrompterReply}
    (hm : topMap L body = .ok m) (hok : kind ≠ .resetDone → replyStatus L m = .ok .ok)
    (h : parseReply L body kind = .ok r) : OkShape m kind := by
  cases kind with
  | secret =>
    obtain ⟨p, hp, -⟩ := (map_eq_ok).1 h
    obtain ⟨m', hm', hstatus, hsecret⟩ := parsePromptReply_eq_ok.1 hp
    obtain rfl := Except.ok.inj (hm.symm.trans hm')
    rw [hstatus.ok_of_read (hok (by decide))] at hsecret
    exact hsecret.ne_none
  | secrets =>
    obtain ⟨p, hp, -⟩ := (map_eq_ok).1 h
    obtain ⟨m', hm', hstatus, hprimary, -⟩ := parseMultiPromptReply_eq_ok.1 hp
    obtain rfl := Except.ok.inj (hm.symm.trans hm')
    rw [hstatus.ok_of_read (hok (by decide))] at hprimary
    exact hprimary.ne_none
  | confirm =>
    obtain ⟨p, hp, -⟩ := (map_eq_ok).1 h
    obtain ⟨m', hm', -, hnone⟩ := parseConfirmReply_eq_ok.1 hp
    obtain rfl := Except.ok.inj (hm.symm.trans hm')
    rw [not_or, not_or] at hnone
    exact ⟨ExtTreeMap.getElem?_eq_none hnone.1, ExtTreeMap.getElem?_eq_none hnone.2.1⟩
  | resetDone =>
    obtain ⟨p, hp, -⟩ := (map_eq_ok).1 h
    obtain ⟨m', hm', ht, -⟩ := parseResetDone_eq_ok.1 hp
    obtain rfl := Except.ok.inj (hm.symm.trans hm')
    exact ht

end Replies

namespace PrompterReply

/-- **An Ok has one shape.** -/
theorem kind_eq_of_okShape {r : PrompterReply} (hok : r.status = some .ok) {kind : ReplyKind}
    (h : OkShape (ofFields (r.fields L)) kind) : kind = r.kind := by
  have hn := r.nodup_fields (L := L)
  cases r with
  | secret r =>
    have hr : r.status = .ok := Option.some.inj hok
    have ht := getElem?_ofFields hn (k := "t") (v := some (.text "Secret"))
      (by simp [fields, PromptReply.fields])
    have hs := getElem?_ofFields hn (k := "secret") (v := some (.bytes r.secret))
      (by simp [fields, PromptReply.fields, secret?, hr])
    have hp : (ofFields (fields L (.secret r)))["primary"]? = none :=
      getElem?_ofFields_of_notMem (by simp [fields, PromptReply.fields, version])
    cases kind <;> simp_all [OkShape, PrompterReply.kind]
  | secrets r =>
    have hr : r.status = .ok := Option.some.inj hok
    have ht := getElem?_ofFields hn (k := "t") (v := some (.text "Secrets"))
      (by simp [fields, MultiPromptReply.fields])
    have hs : (ofFields (fields L (.secrets r)))["secret"]? = none :=
      getElem?_ofFields_of_notMem (by simp [fields, MultiPromptReply.fields, version])
    have hp := getElem?_ofFields hn (k := "primary") (v := some (.bytes r.primary))
      (by simp [fields, MultiPromptReply.fields, secret?, hr])
    cases kind <;> simp_all [OkShape, PrompterReply.kind]
  | confirm r =>
    have ht := getElem?_ofFields hn (k := "t") (v := some (.text "Confirm"))
      (by simp [fields, ConfirmReply.fields])
    have hs : (ofFields (fields L (.confirm r)))["secret"]? = none :=
      getElem?_ofFields_of_notMem (by simp [fields, ConfirmReply.fields, version])
    have hp : (ofFields (fields L (.confirm r)))["primary"]? = none :=
      getElem?_ofFields_of_notMem (by simp [fields, ConfirmReply.fields, version])
    cases kind <;> simp_all [OkShape, PrompterReply.kind]
  | resetDone r => cases hok

/-- The status a reply's own map holds. -/
theorem replyStatus_eq {r : PrompterReply} {status : PromptReplyStatus}
    (hstatus : r.status = some status)
    (hword : L.replyStatusFromToken (L.replyStatusToken status) = some status) :
    replyStatus L (ofFields (r.fields L)) = .ok status := by
  refine replyStatus_ofFields r.nodup_fields hword ?_
  cases r with
  | resetDone r => cases hstatus
  | _ =>
    obtain rfl := Option.some.inj hstatus
    simp [fields, PromptReply.fields, MultiPromptReply.fields, ConfirmReply.fields]

variable {body : Bytes}

/-- The reply read from its own map, whichever it is. -/
theorem parse_received {r : PrompterReply}
    (hword : ∀ status, L.replyStatusFromToken (L.replyStatusToken status) = some status)
    (hfits : r.Fits L) (hm : topMap L body = .ok (ofFields (r.fields L))) :
    parseReply L body r.kind = .ok r.received := by
  have hn := r.nodup_fields (L := L)
  cases r with
  | secret r =>
    refine map_eq_ok.2 ⟨_, parsePromptReply_eq_ok.2 ⟨_, hm, ?_, ?_⟩, rfl⟩
    · exact statusIn_ofFields hn (hword _) (by simp [fields, PromptReply.fields])
        (by simp [fields, PromptReply.fields]) (by simp [fields, PromptReply.fields])
    · exact secretIn_ofFields hn (by simp [fields, PromptReply.fields]) hfits
  | secrets r =>
    refine map_eq_ok.2 ⟨_, parseMultiPromptReply_eq_ok.2 ⟨_, hm, ?_, ?_, ?_⟩, rfl⟩
    · exact statusIn_ofFields hn (hword _) (by simp [fields, MultiPromptReply.fields])
        (by simp [fields, MultiPromptReply.fields]) (by simp [fields, MultiPromptReply.fields])
    · exact secretIn_ofFields hn (by simp [fields, MultiPromptReply.fields]) hfits.1
    · exact secretIn_ofFields hn (by simp [fields, MultiPromptReply.fields]) hfits.2
  | confirm r =>
    refine map_eq_ok.2 ⟨_, parseConfirmReply_eq_ok.2 ⟨_, hm, ?_, ?_⟩, rfl⟩
    · exact statusIn_ofFields hn (hword _) (by simp [fields, ConfirmReply.fields])
        (by simp [fields, ConfirmReply.fields]) (by simp [fields, ConfirmReply.fields])
    · simp only [not_or]
      exact ⟨not_mem_ofFields (by simp [fields, ConfirmReply.fields, version]),
        not_mem_ofFields (by simp [fields, ConfirmReply.fields, version]),
        not_mem_ofFields (by simp [fields, ConfirmReply.fields, version])⟩
  | resetDone r =>
    refine map_eq_ok.2 ⟨_, parseResetDone_eq_ok.2 ⟨_, hm, ?_, ?_⟩, rfl⟩
    · exact getElem?_ofFields hn (by simp [fields, ResetDone.fields])
    · exact hasUint_ofFields hn (by simp [fields, ResetDone.fields])

end PrompterReply

/-- What a refusal looks like to the three status parsers. -/
theorem PromptReply.parse_refusal {p : PromptReply} {body : Bytes} (hp : p.status ≠ .ok)
    (hword : L.replyStatusFromToken (L.replyStatusToken p.status) = some p.status)
    (hm : topMap L body = .ok (ofFields (p.fields L))) :
    parsePromptReply L body =
        .ok ⟨p.status, [], p.userMessage, some kPrompterProtocolVersion⟩ ∧
      parseMultiPromptReply L body =
        .ok ⟨p.status, [], [], p.userMessage, some kPrompterProtocolVersion⟩ ∧
      parseConfirmReply L body = .ok ⟨p.status, p.userMessage, some kPrompterProtocolVersion⟩ := by
  have hn : ((p.fields L).map Prod.fst).Nodup := (PrompterReply.secret p).nodup_fields
  have hstatus : StatusIn L (ofFields (p.fields L)) p.status p.userMessage
      (some kPrompterProtocolVersion) :=
    statusIn_ofFields hn hword (by simp [fields]) (by simp [fields]) (by simp [fields])
  have hsecret : ∀ k, SecretIn L (ofFields (p.fields L)) p.status k [] := by
    intro k
    rw [SecretIn, if_neg hp]
  refine ⟨parsePromptReply_eq_ok.2 ⟨_, hm, hstatus, hsecret _⟩,
    parseMultiPromptReply_eq_ok.2 ⟨_, hm, hstatus, hsecret _, hsecret _⟩,
    parseConfirmReply_eq_ok.2 ⟨_, hm, hstatus, ?_⟩⟩
  have hnone : (ofFields (p.fields L))["secret"]? = none :=
    getElem?_ofFields hn (by simp [fields, secret?, hp])
  simp only [not_or]
  exact ⟨fun hmem => by simp [ExtTreeMap.getElem?_eq_some_getElem hmem] at hnone,
    not_mem_ofFields (by simp [fields, version]), not_mem_ofFields (by simp [fields, version])⟩

/-- **A reply comes back as it was sent, and to its own parser only.** A
refusal is the same to every parser, which is what lets the prompter
answer a peer whose request it never read. -/
theorem reply_roundTrip (r : PrompterReply)
    (hword : ∀ status, L.replyStatusFromToken (L.replyStatusToken status) = some status)
    (hcodec : L.decode (L.encode (toCbor (r.fields L))) = some (toCbor (r.fields L)))
    (hfits : r.Fits L) :
    parseReply L (L.encode (toCbor (r.fields L))) r.kind = .ok r.received ∧
    (r.status = some .ok → ∀ kind ≠ r.kind, ∀ r',
      parseReply L (L.encode (toCbor (r.fields L))) kind ≠ .ok r') ∧
    (∀ p, r = .secret p → p.status ≠ .ok →
      parsePromptReply L (L.encode (toCbor (r.fields L))) =
          .ok ⟨p.status, [], p.userMessage, some kPrompterProtocolVersion⟩ ∧
        parseMultiPromptReply L (L.encode (toCbor (r.fields L))) =
          .ok ⟨p.status, [], [], p.userMessage, some kPrompterProtocolVersion⟩ ∧
        parseConfirmReply L (L.encode (toCbor (r.fields L))) =
          .ok ⟨p.status, p.userMessage, some kPrompterProtocolVersion⟩) := by
  have hm : topMap L (L.encode (toCbor (r.fields L))) = .ok (ofFields (r.fields L)) :=
    topMap_encode hcodec
  refine ⟨PrompterReply.parse_received hword hfits hm, ?_, ?_⟩
  · intro hok kind hkind r' h
    have hshape := okShape_of_parse hm (fun _ => PrompterReply.replyStatus_eq hok (hword _)) h
    exact hkind (PrompterReply.kind_eq_of_okShape hok hshape)
  · rintro p rfl hp
    exact PromptReply.parse_refusal hp (hword _) hm

/-- A changed PIN, and its old one. -/
theorem reply_roundTrip_secrets :
    parseReply plainLibrary
        (plainLibrary.encode (toCbor (PrompterReply.fields plainLibrary
          (.secrets { status := .ok, primary := [49], secondary := [] })))) .secrets =
      .ok (.secrets
        { status := .ok, primary := [49], secondary := [], protocolVersion := some 2 }) :=
  (reply_roundTrip (L := plainLibrary) (.secrets { status := .ok, primary := [49], secondary := [] })
    (by intro status; cases status <;> decide) (by decide +kernel) ⟨by decide, by decide⟩).1

end Prompter

end LibreDarwin
