import LibreDarwin.Prompter.Reading

/-!
# What an accepted message says

For each parser the relation between a map and the message read from it:
`In` says, field by field, which key the field was read under. A parser
succeeds with a message exactly when that message is `In` its map
(`parsePrompterRequest_eq_ok` and its siblings for the replies), so no
later proof opens a parser.
-/

namespace LibreDarwin

namespace Prompter

open Wire

variable {L : AgentLibrary} {m : CborMap} {k : String} {body : Bytes}

theorem topMap_eq_ok :
    topMap L body = .ok m ↔ ∃ value, L.decode body = some value ∧ value.asMap = some m := by
  rw [topMap]
  cases L.decode body with
  | none => simp
  | some value => cases h : value.asMap <;> simp [h]

/-- A 32-bit field holds what is left of the integer under its key. -/
def HasUint (m : CborMap) (k : String) (n : UInt32) : Prop :=
  ∃ carried, optUint m k = some carried ∧ carried.toUInt32 = n

theorem hasUint_ofFields {fields : List (String × Option CborValue)} {n : UInt32}
    (hnodup : (fields.map Prod.fst).Nodup) (h : (k, uint? n) ∈ fields) :
    HasUint (ofFields fields) k n :=
  ⟨_, optUint_ofFields hnodup h, UInt32.toUInt32_toUInt64 n⟩

/-- The display fields, which three messages share. -/
structure DisplayIn (m : CborMap) (title description requester artifact : String) : Prop where
  title : optText m "title" = some title
  description : optText m "description" = some description
  requester : optText m "requester" = some requester
  artifact : optText m "artifact" = some artifact

/-! ## Requests -/

structure PromptRequest.In (L : AgentLibrary) (m : CborMap) (r : PromptRequest) : Prop where
  kind : ∃ word, m["kind"]? = some (.text word) ∧ L.kindFromToken word = some r.kind
  single : r.kind ≠ .changePin
  display : DisplayIn m r.title r.description r.requester r.artifact
  minLength : HasUint m "minLength" r.minLength
  maxLength : HasUint m "maxLength" r.maxLength
  artifacts : optStringArray m "artifacts" = some r.artifacts
  attempt : HasUint m "attempt" r.attempt
  lastError : optText m "lastError" = some r.lastError
  promptId : optText m "promptId" = some r.promptId
  deadlineMs : HasUint m "deadlineMs" r.deadlineMs
  altDeadlineMs : HasUint m "altDeadlineMs" r.altDeadlineMs
  readerModel : optText m "readerModel" = some r.readerModel
  readerInterface : optText m "readerInterface" = some r.readerInterface
  readerFull : optText m "readerFull" = some r.readerFull

structure RequestSecrets.In (m : CborMap) (r : RequestSecrets) : Prop where
  kind : m["kind"]? = some (.text r.kind)
  display : DisplayIn m r.title r.description r.requester r.artifact
  primaryMinLength : HasUint m "primaryMinLength" r.primaryMinLength
  primaryMaxLength : HasUint m "primaryMaxLength" r.primaryMaxLength
  newMinLength : HasUint m "newMinLength" r.newMinLength
  newMaxLength : HasUint m "newMaxLength" r.newMaxLength
  promptId : optText m "promptId" = some r.promptId
  deadlineMs : HasUint m "deadlineMs" r.deadlineMs

structure ConfirmAction.In (m : CborMap) (r : ConfirmAction) : Prop where
  kind : m["kind"]? = some (.text r.kind)
  display : DisplayIn m r.title r.description r.requester r.artifact
  descriptionKey : optText m "descriptionKey" = some r.descriptionKey

/-- **The message read from a map**, whichever it is. -/
def PrompterRequest.In (L : AgentLibrary) (m : CborMap) : PrompterRequest → Prop
  | .prompt r => m["t"]? = some (.text "RequestSecret") ∧ r.In L m
  | .cancel r => m["t"]? = some (.text "CancelCurrent") ∧ optText m "promptId" = some r.promptId
  | .secrets r => m["t"]? = some (.text "RequestSecrets") ∧ r.In m
  | .confirm r => m["t"]? = some (.text "ConfirmAction") ∧ r.In m
  | .reset => m["t"]? = some (.text "Reset")

/-- The version is not newer than this build's. -/
def VersionRead (m : CborMap) : Prop :=
  m["v"]? = none ∨ ∃ n, m["v"]? = some (.uint n) ∧ n ≤ kPrompterProtocolVersion.toUInt64

theorem parseCancel_eq_ok {r : PrompterRequest} :
    parseCancel m = .ok r ↔ ∃ c, r = .cancel c ∧ optText m "promptId" = some c.promptId := by
  simp only [parseCancel, bind_eq_ok, orWrongType_eq_ok, Except.ok.injEq]
  constructor
  · rintro ⟨id, hid, rfl⟩
    exact ⟨⟨id⟩, rfl, hid⟩
  · rintro ⟨c, rfl, hid⟩
    exact ⟨_, hid, rfl⟩

theorem parseSecrets_eq_ok {r : PrompterRequest} :
    parseSecrets m = .ok r ↔ ∃ s, r = .secrets s ∧ s.In m := by
  simp only [parseSecrets, bind_eq_ok, orWrongType_eq_ok, requiredText_eq_ok,
    optDisplayFields_eq_some, Except.ok.injEq]
  constructor
  · rintro ⟨kind, hkind, d, ⟨h1, h2, h3, h4⟩, n1, hn1, n2, hn2, n3, hn3, n4, hn4, id, hid, n5,
      hn5, rfl⟩
    exact ⟨_, rfl, hkind, ⟨h1, h2, h3, h4⟩, ⟨n1, hn1, rfl⟩, ⟨n2, hn2, rfl⟩, ⟨n3, hn3, rfl⟩,
      ⟨n4, hn4, rfl⟩, hid, ⟨n5, hn5, rfl⟩⟩
  · rintro ⟨s, rfl, hkind, ⟨h1, h2, h3, h4⟩, ⟨n1, hn1, e1⟩, ⟨n2, hn2, e2⟩, ⟨n3, hn3, e3⟩,
      ⟨n4, hn4, e4⟩, hid, ⟨n5, hn5, e5⟩⟩
    exact ⟨_, hkind, ⟨_, _, _, _⟩, ⟨h1, h2, h3, h4⟩, n1, hn1, n2, hn2, n3, hn3, n4, hn4, _, hid,
      n5, hn5, by simp only [e1, e2, e3, e4, e5]⟩

theorem parseConfirm_eq_ok {r : PrompterRequest} :
    parseConfirm m = .ok r ↔ ∃ c, r = .confirm c ∧ c.In m := by
  simp only [parseConfirm, bind_eq_ok, orWrongType_eq_ok, requiredText_eq_ok,
    optDisplayFields_eq_some, Except.ok.injEq]
  constructor
  · rintro ⟨kind, hkind, d, ⟨h1, h2, h3, h4⟩, key, hkey, rfl⟩
    exact ⟨_, rfl, hkind, ⟨h1, h2, h3, h4⟩, hkey⟩
  · rintro ⟨c, rfl, hkind, ⟨h1, h2, h3, h4⟩, hkey⟩
    exact ⟨_, hkind, ⟨_, _, _, _⟩, ⟨h1, h2, h3, h4⟩, _, hkey, rfl⟩

theorem parsePrompt_eq_ok {r : PrompterRequest} :
    parsePrompt L m = .ok r ↔ ∃ p, r = .prompt p ∧ p.In L m := by
  simp only [parsePrompt, bind_eq_ok, orWrongType_eq_ok, requiredText_eq_ok, secretKind_eq_ok,
    optDisplayFields_eq_some, Except.ok.injEq]
  constructor
  · rintro ⟨word, hword, kind, ⟨hkind, hsingle⟩, d, ⟨h1, h2, h3, h4⟩, n1, hn1, n2, hn2, items,
      hitems, n3, hn3, err, herr, id, hid, n4, hn4, n5, hn5, rm, hrm, ri, hri, rf, hrf, rfl⟩
    exact ⟨_, rfl, ⟨word, hword, hkind⟩, hsingle, ⟨h1, h2, h3, h4⟩, ⟨n1, hn1, rfl⟩,
      ⟨n2, hn2, rfl⟩, hitems, ⟨n3, hn3, rfl⟩, herr, hid, ⟨n4, hn4, rfl⟩, ⟨n5, hn5, rfl⟩, hrm, hri,
      hrf⟩
  · rintro ⟨p, rfl, ⟨word, hword, hkind⟩, hsingle, ⟨h1, h2, h3, h4⟩, ⟨n1, hn1, e1⟩,
      ⟨n2, hn2, e2⟩, hitems, ⟨n3, hn3, e3⟩, herr, hid, ⟨n4, hn4, e4⟩, ⟨n5, hn5, e5⟩, hrm, hri, hrf⟩
    exact ⟨word, hword, _, ⟨hkind, hsingle⟩, ⟨_, _, _, _⟩, ⟨h1, h2, h3, h4⟩, n1, hn1, n2, hn2, _,
      hitems, n3, hn3, _, herr, _, hid, n4, hn4, n5, hn5, _, hrm, _, hri, _, hrf,
      by simp only [e1, e2, e3, e4, e5]⟩

theorem parseTagged_eq_ok {t : String} {r : PrompterRequest} (ht : m["t"]? = some (.text t)) :
    parseTagged L m t = .ok r ↔ r.In L m := by
  rw [parseTagged]
  split
  · subst t
    cases r <;> simp [PrompterRequest.In, ht]
  split
  · subst t
    rw [parseCancel_eq_ok]
    cases r <;> simp [PrompterRequest.In, ht]
  split
  · subst t
    rw [parseSecrets_eq_ok]
    cases r <;> simp [PrompterRequest.In, ht]
  split
  · subst t
    rw [parseConfirm_eq_ok]
    cases r <;> simp [PrompterRequest.In, ht]
  split
  · subst t
    rw [parsePrompt_eq_ok]
    cases r <;> simp [PrompterRequest.In, ht]
  · cases r <;> simp_all [PrompterRequest.In]

theorem PrompterRequest.In.tag {r : PrompterRequest} (h : r.In L m) :
    ∃ t, m["t"]? = some (.text t) := by
  cases r with
  | reset => exact ⟨_, h⟩
  | _ => exact ⟨_, h.1⟩

theorem parseMap_eq_ok {r : PrompterRequest} :
    parseMap L m = .ok r ↔ VersionRead m ∧ r.In L m := by
  have htagged : (∃ t, requiredText m "t" = .ok t ∧ parseTagged L m t = .ok r) ↔ r.In L m := by
    constructor
    · rintro ⟨t, ht, h⟩
      exact (parseTagged_eq_ok (requiredText_eq_ok.1 ht)).1 h
    · intro h
      obtain ⟨t, ht⟩ := h.tag
      exact ⟨t, requiredText_eq_ok.2 ht, (parseTagged_eq_ok ht).2 h⟩
  simp only [parseMap, bind_eq_ok, optAnnouncedVersion_eq_ok, VersionRead]
  constructor
  · rintro ⟨o, ⟨hv, rfl⟩ | ⟨n, hv, rfl⟩, h⟩
    · rw [if_neg (by decide), bind_eq_ok, htagged] at h
      exact ⟨.inl hv, h⟩
    · rw [Option.getD_some] at h
      split at h
      · cases h
      · rename_i hn
        rw [bind_eq_ok, htagged] at h
        exact ⟨.inr ⟨n, hv, UInt64.not_lt.1 hn⟩, h⟩
  · rintro ⟨hv | ⟨n, hv, hn⟩, h⟩
    · exact ⟨none, .inl ⟨hv, rfl⟩, by rw [if_neg (by decide), bind_eq_ok, htagged]; exact h⟩
    · refine ⟨some n, .inr ⟨n, hv, rfl⟩, ?_⟩
      rw [Option.getD_some, if_neg (UInt64.not_lt.2 hn), bind_eq_ok, htagged]
      exact h

/-- **An accepted request.** -/
theorem parsePrompterRequest_eq_ok {r : PrompterRequest} :
    parsePrompterRequest L body = .ok r ↔
      ∃ m, topMap L body = .ok m ∧ VersionRead m ∧ r.In L m := by
  simp only [parsePrompterRequest, bind_eq_ok, parseMap_eq_ok]

/-! ## Replies -/

/-- A secret is read with an Ok, and empty otherwise. -/
def SecretIn (L : AgentLibrary) (m : CborMap) (status : PromptReplyStatus) (k : String)
    (secret : Bytes) : Prop :=
  if status = .ok then m[k]? = some (.bytes secret) ∧ secret.length ≤ L.kMaxSecretBytes
  else secret = []

theorem okSecret_eq_ok {status : PromptReplyStatus} {b : Bytes} :
    okSecret L m status k = .ok b ↔ SecretIn L m status k b := by
  rw [okSecret, SecretIn]
  split
  · exact requiredSecret_eq_ok
  · rw [Except.ok.injEq, eq_comm]

/-- What the three status replies have in common. -/
structure StatusIn (L : AgentLibrary) (m : CborMap) (status : PromptReplyStatus)
    (userMessage : String) (protocolVersion : Option UInt32) : Prop where
  status : replyStatus L m = .ok status
  userMessage : optText m "userMessage" = some userMessage
  protocolVersion : optReplyVersion m = .ok protocolVersion

/-- **An accepted reply.** -/
theorem parsePromptReply_eq_ok {r : PromptReply} :
    parsePromptReply L body = .ok r ↔
      ∃ m, topMap L body = .ok m ∧ StatusIn L m r.status r.userMessage r.protocolVersion ∧
        SecretIn L m r.status "secret" r.secret := by
  simp only [parsePromptReply, bind_eq_ok, okSecret_eq_ok, orWrongType_eq_ok, Except.ok.injEq]
  refine exists_congr fun m => and_congr_right fun _ => ?_
  constructor
  · rintro ⟨status, hs, v, hv, secret, hsecret, msg, hmsg, rfl⟩
    exact ⟨⟨hs, hmsg, hv⟩, hsecret⟩
  · rintro ⟨⟨hs, hmsg, hv⟩, hsecret⟩
    exact ⟨_, hs, _, hv, _, hsecret, _, hmsg, rfl⟩

theorem parseMultiPromptReply_eq_ok {r : MultiPromptReply} :
    parseMultiPromptReply L body = .ok r ↔
      ∃ m, topMap L body = .ok m ∧ StatusIn L m r.status r.userMessage r.protocolVersion ∧
        SecretIn L m r.status "primary" r.primary ∧
        SecretIn L m r.status "secondary" r.secondary := by
  simp only [parseMultiPromptReply, bind_eq_ok, okSecret_eq_ok, orWrongType_eq_ok,
    Except.ok.injEq]
  refine exists_congr fun m => and_congr_right fun _ => ?_
  constructor
  · rintro ⟨status, hs, v, hv, primary, hp, secondary, hq, msg, hmsg, rfl⟩
    exact ⟨⟨hs, hmsg, hv⟩, hp, hq⟩
  · rintro ⟨⟨hs, hmsg, hv⟩, hp, hq⟩
    exact ⟨_, hs, _, hv, _, hp, _, hq, _, hmsg, rfl⟩

theorem parseConfirmReply_eq_ok {r : ConfirmReply} :
    parseConfirmReply L body = .ok r ↔
      ∃ m, topMap L body = .ok m ∧ StatusIn L m r.status r.userMessage r.protocolVersion ∧
        ¬("secret" ∈ m ∨ "primary" ∈ m ∨ "secondary" ∈ m) := by
  simp only [parseConfirmReply, bind_eq_ok]
  refine exists_congr fun m => and_congr_right fun _ => ?_
  split
  · rename_i hsecret
    simp [hsecret]
  · rename_i hsecret
    simp only [bind_eq_ok, orWrongType_eq_ok, Except.ok.injEq]
    constructor
    · rintro ⟨status, hs, msg, hmsg, v, hv, rfl⟩
      exact ⟨⟨hs, hmsg, hv⟩, hsecret⟩
    · rintro ⟨⟨hs, hmsg, hv⟩, -⟩
      exact ⟨_, hs, _, hmsg, _, hv, rfl⟩

theorem parseResetDone_eq_ok {r : ResetDone} :
    parseResetDone L body = .ok r ↔
      ∃ m, topMap L body = .ok m ∧ m["t"]? = some (.text "ResetDone") ∧
        HasUint m "closed" r.closed := by
  simp only [parseResetDone, bind_eq_ok, requiredText_eq_ok]
  refine exists_congr fun m => and_congr_right fun _ => ?_
  constructor
  · rintro ⟨t, ht, h⟩
    split at h
    · cases h
    · rename_i hdone
      simp only [bind_eq_ok, orWrongType_eq_ok, Except.ok.injEq] at h
      obtain ⟨n, hn, rfl⟩ := h
      exact ⟨not_not.1 hdone ▸ ht, n, hn, rfl⟩
  · rintro ⟨ht, n, hn, hr⟩
    refine ⟨_, ht, ?_⟩
    simp only [ne_eq, not_true_eq_false, if_false, bind_eq_ok, orWrongType_eq_ok, Except.ok.injEq]
    exact ⟨n, hn, by rw [hr]⟩

end Prompter

end LibreDarwin
