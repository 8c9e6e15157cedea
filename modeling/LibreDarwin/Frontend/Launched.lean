import LibreDarwin.Frontend.Dispatched
import LibreDarwin.Frontend.Gates
import LibreDarwin.Transport.LastPublished

/-!
# What is launched

An operation is launched on the card the request names, for the client
that asked, with what the request asked for. The card is one that is
published as the request is handled and has the capability the operation
needs; a signature's options are those a signer can take, and its document
is the one behind the descriptor the request names.
-/

namespace LibreDarwin

namespace Frontend

open Wire Transport OperationChannel Script

variable {V Trust : Type*} {A : Agent V Trust} {o : Outside} {s t u : FrontendState V}
variable {n : ℕ} {i : Inbound}

/-! ## The options of a signature -/

/-- A visible signature as it is asked for. -/
def VisualSignatureOpts.params (v : VisualSignatureOpts) : VisualParams :=
  ⟨v.page, v.x, v.y, v.width, v.height, v.text⟩

/-- **What a signer can take of a request's options**: every word is known,
and what the request gives is what is used. The format is told by the bytes
when the request gives none. -/
structure SignParams.Resolves (L : Library V) (opts : SignOpts) (sniffed : Bytes)
    (view : ConfigView) (params : SignParams) : Prop where
  format : L.isKnownFormat params.format = true
  formatFrom : (L.requestedFormatFrom opts.format).or (L.sniffFormat sniffed) = some params.format
  level : L.isKnownLevel params.level = true ∧ L.isImplementedSignLevel params.level = true
  packaging : L.isKnownPackaging params.packaging = true
  packagingFrom : ∀ packaging, L.requestedPackagingFrom opts.packaging = some packaging →
    params.packaging = packaging
  tsaUrl : ∀ url, opts.tsaUrl = some url → L.isValidTsaUrl url = true ∧ params.level ≠ "b-b"
  tsaUrlFrom : params.tsaUrl = opts.tsaUrl.getD ""
  visual : params.visual = opts.visualSignature.map VisualSignatureOpts.params
  visualFits : ∀ v, params.visual = some v → params.format = "pades" ∧
    L.isValidVisualGeometry v.page v.x v.y v.width v.height = true
  allowExpired : params.allowExpired = opts.allowExpired.getD false
  reason : params.reason = opts.reason.getD view.defaultReason
  location : params.location = opts.location.getD view.defaultLocation

section Options

variable {L : Library V} {opts : SignOpts} {sniffed : Bytes} {view : ConfigView}

theorem resolveVisual_ok {format : String} {asked : Option VisualSignatureOpts}
    {visual : Option VisualParams} (h : resolveVisual L format asked = .ok visual) :
    visual = asked.map VisualSignatureOpts.params ∧ ∀ v, visual = some v → format = "pades" ∧
      L.isValidVisualGeometry v.page v.x v.y v.width v.height = true := by
  cases asked with
  | none =>
    obtain rfl := Except.ok.inj h
    exact ⟨rfl, nofun⟩
  | some v =>
    rw [resolveVisual] at h
    split at h
    · cases h
    · rename_i hfits
      obtain rfl := Except.ok.inj h
      push Not at hfits
      refine ⟨rfl, fun v' hv' => ?_⟩
      obtain rfl := Option.some.inj hv'
      exact ⟨hfits.1, by simpa using hfits.2⟩

theorem refusesTsaUrl_eq_false {level : String} {asked : Option String} :
    refusesTsaUrl L level asked = false ↔
      ∀ url, asked = some url → L.isValidTsaUrl url = true ∧ level ≠ "b-b" := by
  cases asked <;> simp [refusesTsaUrl]

/-- **Options that are not refused** resolve. -/
theorem resolveSignOptions_ok {resolved : ResolvedSignOptions}
    (h : resolveSignOptions L opts sniffed view = .ok resolved) (cert : String) (document : Bytes)
    (displayName : String) :
    (signParams cert document displayName resolved).Resolves L opts sniffed view := by
  unfold resolveSignOptions at h
  dsimp only at h
  split at h
  · cases h
  rename_i format hformat
  have hfrom : (L.requestedFormatFrom opts.format).or (L.sniffFormat sniffed) = some format := by
    cases hasked : L.requestedFormatFrom opts.format with
    | none => simpa [hasked] using hformat
    | some asked => simpa [hasked] using hformat
  split at h
  · cases h
  rename_i hknown
  split at h
  · cases h
  rename_i hlevel
  split at h
  · cases h
  rename_i hpackaging
  split at h
  · cases h
  rename_i htsa
  push Not at hlevel
  cases hvisual : resolveVisual L format opts.visualSignature with
  | error code =>
    rw [hvisual] at h
    cases h
  | ok visual =>
    rw [hvisual] at h
    obtain rfl := Except.ok.inj h
    obtain ⟨hfrom', hfits⟩ := resolveVisual_ok hvisual
    refine ⟨by simpa [signParams] using hknown, hfrom, ?_, by simpa [signParams] using hpackaging,
      ?_, ?_, rfl, hfrom', hfits, rfl, rfl, rfl⟩
    · exact ⟨by simpa [signParams] using hlevel.1, by simpa [signParams] using hlevel.2⟩
    · intro packaging hasked
      simp [signParams, hasked]
    · exact refusesTsaUrl_eq_false.1 (Bool.not_eq_true _ ▸ htsa)

end Options

/-! ## What a request launches -/

/-- The card an operation is for, and the capability it needs. -/
def Request.operates (L : Library V) : Request → Option (Handle × ℕ)
  | .readIdentity card | .getPhoto card => some (card, L.kIdentityCapBit)
  | .readCertificates card | .readTokenInfo card => some (card, L.kPkiCapBit)
  | .sign msg => some (msg.card, L.kPkiCapBit)
  | .signBatch msg => some (msg.card, L.kPkiCapBit)
  | .listCredentials card | .activateSigningKey card => some (card, L.kPinManagementCapBit)
  | .managePin msg => some (msg.card, L.kPinManagementCapBit)
  | _ => none

/-- The document behind a descriptor of the request. -/
def Inbound.Holds (L : Library V) (o : Outside) (i : Inbound) (index : ℕ) (bytes : Bytes) : Prop :=
  ∃ fd, i.fds[index]? = some fd ∧ o.readBoundedRegularFd fd L.kMaxInputBytes = .ok bytes ∧
    bytes ≠ []

/-- **What a request asks to be launched.** -/
def LaunchSpec.AskedBy (L : Library V) (o : Outside) (view : ConfigView) (i : Inbound)
    (cardKey : String) : Request → LaunchSpec → Prop
  | .readIdentity card, .readIdentity onCardType => onCardType = card
  | .getPhoto card, .getPhoto onCardType => onCardType = card
  | .readCertificates _, .readCertificates => True
  | .readTokenInfo _, .readTokenInfo => True
  | .listCredentials _, .listCredentials => True
  | .activateSigningKey _, .activateSigningKey => True
  | .sign msg, .sign params =>
    params.certId = msg.cert ∧ msg.cert ≠ "" ∧ i.Holds L o msg.inFd params.inputDocument ∧
      params.displayName = L.sanitizeLabel (msg.opts.displayName.getD "") ∧
      params.Resolves L msg.opts params.inputDocument view
  | .signBatch msg, .signBatch params documents =>
    params.certId = msg.cert ∧ msg.cert ≠ "" ∧
      L.isValidBatchDocumentCount msg.docs.length = true ∧
      List.Forall₂ (fun entry document => document.displayName = L.sanitizeLabel entry.name ∧
        i.Holds L o entry.fdIndex document.bytes) msg.docs documents ∧
      params.Resolves L msg.opts (sniffSource documents) view
  | .managePin msg, .managePin request snapshot =>
    request = ⟨cardKey, msg.pinId, msg.verb, msg.activateKey.getD false⟩ ∧
      snapshot = o.credentialSnapshot cardKey ∧
      L.validatePinManageRequest request snapshot = none ∧
      (msg.activateKey.isSome → msg.verb = kVerbActivatePin)
  | _, _ => False

/-- **A launch as its request asked for it**: on a routing of its card. -/
structure LaunchedAs (A : Agent V Trust) (o : Outside) (u : FrontendState V) (i : Inbound)
    (target : OperationTarget) (spec : LaunchSpec) (handle : Handle) (routing : CardRouting) :
    Prop where
  operates : ∃ bit, i.request.body.operates A.library = some (handle, bit) ∧
    routing.caps &&& bit ≠ 0
  shown : u.transport.presence.cardRouting handle = some routing
  target : target = operationTarget o i routing
  spec : spec.AskedBy A.library o (A.library.view u.store) i routing.cardKey i.request.body

/-- A batch that was read. -/
theorem forall₂_readEntries {entries : List BatchEntry} {inputs : List BatchDocumentInput}
    (h : (forEach (readEntry A o n i) entries).result = .ok inputs) :
    List.Forall₂ (fun (entry : BatchEntry) document =>
      document.displayName = A.library.sanitizeLabel entry.name ∧
        i.Holds A.library o entry.fdIndex document.bytes) entries inputs := by
  induction entries generalizing inputs with
  | nil =>
    obtain rfl := Except.ok.inj h
    exact .nil
  | cons entry entries ih =>
    rw [forEach, result_andThen] at h
    obtain ⟨input, hinput, hlater⟩ := h
    obtain ⟨rest, hrest, hcons⟩ := result_andThen.1 hlater
    obtain rfl := Except.ok.inj hcons
    simp only [readEntry, result_bind, readDocument_ok, result_pure] at hinput
    obtain ⟨bytes, hdoc, rfl⟩ := hinput
    exact .cons ⟨rfl, hdoc⟩ (ih hrest)

section Handlers

variable {target : OperationTarget} {spec : LaunchSpec} {onSignArtifact : Bool}

/-- The reads and the listing. -/
theorem read_launched {handle : Handle} {bit : ℕ} {asked : LaunchSpec}
    (h : (handleRead o s i handle bit asked).result = .ok (.launch target spec onSignArtifact))
    (hoperates : i.request.body.operates A.library = some (handle, bit))
    (hspec : ∀ cardKey,
      asked.AskedBy A.library o (A.library.view s.store) i cardKey i.request.body) :
    ∃ handle routing, LaunchedAs A o s i target spec handle routing := by
  simp only [handleRead, result_bind, card_ok, result_pure] at h
  obtain ⟨routing, ⟨hrouting, hcaps⟩, heq⟩ := h
  obtain ⟨rfl, rfl, rfl⟩ := Ending.launch.inj heq
  exact ⟨handle, routing, ⟨bit, hoperates, hcaps⟩, hrouting, rfl, hspec _⟩

theorem sign_launched {msg : Sign} (hbody : i.request.body = .sign msg)
    (h : (handleSign A o s n i msg).result = .ok (.launch target spec onSignArtifact)) :
    ∃ handle routing, LaunchedAs A o s i target spec handle routing := by
  simp only [handleSign, result_bind, card_ok, result_refuseIf, authorize_ok, limit_ok,
    readDocument_ok, result_ofExcept, result_pure] at h
  obtain ⟨routing, ⟨hrouting, hcaps⟩, -, hcert, -, -, -, -, doc, hdoc, resolved, hresolved, heq⟩ := h
  obtain ⟨rfl, rfl, rfl⟩ := Ending.launch.inj heq
  refine ⟨msg.card, routing, ⟨A.library.kPkiCapBit, by rw [hbody]; rfl, hcaps⟩, hrouting, rfl, ?_⟩
  rw [hbody]
  refine ⟨rfl, ?_, hdoc, rfl, resolveSignOptions_ok hresolved _ _ _⟩
  simpa using hcert

theorem signBatch_launched {msg : SignBatch} (hbody : i.request.body = .signBatch msg)
    (h : (handleSignBatch A o s n i msg).result = .ok (.launch target spec onSignArtifact)) :
    ∃ handle routing, LaunchedAs A o s i target spec handle routing := by
  simp only [handleSignBatch, result_bind, card_ok, result_refuseIf, authorize_ok, limit_ok,
    result_ofExcept, result_pure] at h
  obtain ⟨routing, ⟨hrouting, hcaps⟩, -, hcert, -, -, -, -, -, hcount, inputs, hinputs, resolved,
    hresolved, heq⟩ := h
  obtain ⟨rfl, rfl, rfl⟩ := Ending.launch.inj heq
  refine ⟨msg.card, routing, ⟨A.library.kPkiCapBit, by rw [hbody]; rfl, hcaps⟩, hrouting, rfl, ?_⟩
  rw [hbody]
  refine ⟨rfl, by simpa using hcert, by simpa using hcount, forall₂_readEntries hinputs, ?_⟩
  exact resolveSignOptions_ok hresolved _ _ _

theorem managePin_launched {msg : ManagePin} (hbody : i.request.body = .managePin msg)
    (h : (handleManagePin A o s n i msg).result = .ok (.launch target spec onSignArtifact)) :
    ∃ handle routing, LaunchedAs A o s i target spec handle routing := by
  simp only [handleManagePin, result_bind, card_ok, result_refuseIf, authorize_ok, limit_ok] at h
  obtain ⟨routing, ⟨hrouting, hcaps⟩, -, -, -, -, -, hkey, hend⟩ := h
  split at hend
  · exact absurd hend result_refuse
  · rename_i hvalid
    obtain ⟨rfl, rfl, rfl⟩ := Ending.launch.inj (result_pure.1 hend)
    refine ⟨msg.card, routing, ⟨A.library.kPinManagementCapBit, by rw [hbody]; rfl, hcaps⟩,
      hrouting, rfl, ?_⟩
    rw [hbody]
    refine ⟨rfl, rfl, hvalid, fun hsome => ?_⟩
    simpa [hsome] using hkey

theorem activateSigningKey_launched {handle : Handle}
    (hbody : i.request.body = .activateSigningKey handle)
    (h : (handleActivateSigningKey A o s n i handle).result =
      .ok (.launch target spec onSignArtifact)) :
    ∃ handle routing, LaunchedAs A o s i target spec handle routing := by
  simp only [handleActivateSigningKey, result_bind, card_ok, authorize_ok, limit_ok,
    result_pure] at h
  obtain ⟨routing, ⟨hrouting, hcaps⟩, -, -, -, -, heq⟩ := h
  obtain ⟨rfl, rfl, rfl⟩ := Ending.launch.inj heq
  refine ⟨handle, routing, ⟨A.library.kPinManagementCapBit, by rw [hbody]; rfl, hcaps⟩, hrouting,
    rfl, ?_⟩
  rw [hbody]
  trivial

theorem not_launch_change {x : Apply} :
    (handleChange A o n i x).result ≠ .ok (.launch target spec onSignArtifact) := by
  intro h
  simp only [handleChange, result_bind, result_ofOption, result_refuseIf] at h
  obtain ⟨tier, -, -, -, h⟩ := h
  split at h <;> simp at h

/-- **A handler launches what its request asks for**, and no other request
launches anything. -/
theorem launchedAs_of_ok
    (h : (handle A o s n i).result = .ok (.launch target spec onSignArtifact)) :
    ∃ handle routing, LaunchedAs A o s i target spec handle routing := by
  unfold handle at h
  cases hbody : i.request.body with
  | readIdentity handle =>
    rw [hbody] at h
    exact read_launched h (by rw [hbody]; rfl) (by rw [hbody]; exact fun _ => rfl)
  | getPhoto handle =>
    rw [hbody] at h
    exact read_launched h (by rw [hbody]; rfl) (by rw [hbody]; exact fun _ => rfl)
  | readCertificates handle =>
    rw [hbody] at h
    exact read_launched h (by rw [hbody]; rfl) (by rw [hbody]; exact fun _ => trivial)
  | readTokenInfo handle =>
    rw [hbody] at h
    exact read_launched h (by rw [hbody]; rfl) (by rw [hbody]; exact fun _ => trivial)
  | listCredentials handle =>
    rw [hbody] at h
    exact read_launched h (by rw [hbody]; rfl) (by rw [hbody]; exact fun _ => trivial)
  | sign msg =>
    rw [hbody] at h
    exact sign_launched hbody h
  | signBatch msg =>
    rw [hbody] at h
    exact signBatch_launched hbody h
  | managePin msg =>
    rw [hbody] at h
    exact managePin_launched hbody h
  | activateSigningKey handle =>
    rw [hbody] at h
    exact activateSigningKey_launched hbody h
  | hello msg =>
    rw [hbody] at h
    dsimp only [handleHello] at h
    split at h <;> simp at h
  | setConfig msg =>
    rw [hbody] at h
    exact absurd h not_launch_change
  | resetConfig msg =>
    rw [hbody] at h
    exact absurd h not_launch_change
  | _ =>
    rw [hbody] at h
    simp [handleGetState, handleGetConfig, handleCancel, handleGetSignResult, handleLayoutVisual,
      handleGetAppearanceFont, handleImportCscaMasterList, handleCertDer, handlePkPublicKey,
      handlePkLogin, handlePkLogout, handlePkLoginState, handlePkSignRaw, handlePkDecrypt,
      handlePkDerive, Ending.plain] at h

end Handlers

/-- A handler's script launches nothing itself. -/
theorem not_launched_handle {m : ℕ} {op : OpId} {target : OperationTarget} {spec : LaunchSpec} :
    .launched m op target spec ∉ (handle A o s n i).log := by
  intro hmem
  obtain ⟨φ, hrun, hφ⟩ := handle_refuses (A := A) (o := o) (s := s) (n := n) (i := i)
  obtain ⟨φ₁, φ₂, hnext, hφ₂⟩ := refuses_of_mem hrun hφ hmem
  obtain ⟨-, rfl⟩ := next_launched.1 hnext
  exact hφ₂

/-! ## What the presence was -/

section Presence

end Presence

end Frontend

end LibreDarwin
