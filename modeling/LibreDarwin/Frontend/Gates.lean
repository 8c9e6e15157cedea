import LibreDarwin.Frontend.Waiting

/-!
# The gates of a request

The families that sign, change a card's credentials or change what is
trusted ask the authorizer and then the limiter, and only then read, ask a
person or launch. Of one dispatch this is said by its outcome: it passed
every gate and every document (`Passes`), or it was turned away and left
everything as it was (`TurnedAway`). Of a run it is said by the log
(`Gated`): in which order the gates were asked, how often, and what came
before and after.
-/

namespace LibreDarwin

namespace Frontend

open Wire Transport Script

variable {V Trust : Type*} {A : Agent V Trust} {o : Outside} {s t : FrontendState V}
variable {n : ℕ} {i : Inbound}

/-- The card a gated request is for, with the capability it needs. -/
def Request.gatedCard (L : Library V) : Request → Option (Handle × ℕ)
  | .sign msg => some (msg.card, L.kPkiCapBit)
  | .signBatch msg => some (msg.card, L.kPkiCapBit)
  | .managePin msg => some (msg.card, L.kPinManagementCapBit)
  | .activateSigningKey card => some (card, L.kPinManagementCapBit)
  | _ => none

/-- **A request that passes**: its card is there and can do it, both gates
are open, and every document it names will do. -/
structure Passes (A : Agent V Trust) (o : Outside) (s : FrontendState V) (i : Inbound)
    (action : AuthAction) : Prop where
  card : ∀ handle bit, i.request.body.gatedCard A.library = some (handle, bit) →
    ∃ routing, s.transport.presence.cardRouting handle = some routing ∧ routing.caps &&& bit ≠ 0
  authorizer : o.authorize action i.caller = .granted
  limiter : o.allow i.caller = true
  documents : ∀ doc ∈ i.documents, ∃ fd bytes, doc = some fd ∧
    o.readBoundedRegularFd fd A.library.kMaxInputBytes = .ok bytes ∧ bytes ≠ []

/-! ## What a part of a handler that succeeds says -/

section Ok

variable {u : Unit}

@[simp] theorem card_ok {handle : Handle} {bit : ℕ} {routing : CardRouting} :
    (card s handle bit).result = .ok routing ↔
      s.transport.presence.cardRouting handle = some routing ∧ routing.caps &&& bit ≠ 0 := by
  simp only [card, result_bind, result_ofOption, result_refuseIf, result_pure, beq_eq_false_iff_ne]
  constructor
  · rintro ⟨routing, hrouting, -, hcaps, rfl⟩
    exact ⟨hrouting, hcaps⟩
  · rintro ⟨hrouting, hcaps⟩
    exact ⟨routing, hrouting, (), hcaps, rfl⟩

@[simp] theorem authorize_ok {action : AuthAction} :
    (authorize o n i action).result = .ok u ↔ o.authorize action i.caller = .granted := by
  simp only [authorize, result_bind, result_tell]
  cases o.authorize action i.caller <;> simp [refusal]

@[simp] theorem limit_ok : (limit o n i).result = .ok u ↔ o.allow i.caller = true := by
  simp [limit]

@[simp] theorem readDocument_ok {cap index : ℕ} {bytes : Bytes} :
    (readDocument o n i cap index).result = .ok bytes ↔
      ∃ fd, i.fds[index]? = some fd ∧ o.readBoundedRegularFd fd cap = .ok bytes ∧ bytes ≠ [] := by
  simp [readDocument, documentOf_eq_ok]

/-- A batch that was read: every entry names a document that will do. -/
theorem readEntries_ok {entries : List BatchEntry} {inputs : List BatchDocumentInput}
    (h : (forEach (readEntry A o n i) entries).result = .ok inputs) {entry : BatchEntry}
    (hentry : entry ∈ entries) :
    ∃ fd bytes, i.fds[entry.fdIndex]? = some fd ∧
      o.readBoundedRegularFd fd A.library.kMaxInputBytes = .ok bytes ∧ bytes ≠ [] := by
  obtain ⟨input, hread⟩ := result_forEach h entry hentry
  simp only [readEntry, result_bind, readDocument_ok] at hread
  obtain ⟨bytes, ⟨fd, hfd, hbytes, hne⟩, -⟩ := hread
  exact ⟨fd, bytes, hfd, hbytes, hne⟩

end Ok

/-- What a gated handler that succeeds ends with. -/
def Ending.Opens : Ending → Prop
  | .launch _ _ _ | .confirm _ => True
  | _ => False

section Handlers

variable {action : AuthAction} {ending : Ending}

theorem sign_ok {msg : Sign} (hbody : i.request.body = .sign msg)
    (h : (handleSign A o s n i msg).result = .ok ending) :
    Passes A o s i .sign ∧ ending.Opens := by
  simp only [handleSign, result_bind, card_ok, result_refuseIf, authorize_ok, limit_ok,
    readDocument_ok, result_ofExcept, result_pure] at h
  obtain ⟨routing, ⟨hrouting, hcaps⟩, -, -, -, hauthorize, -, hallow, doc, hdoc, resolved, -, rfl⟩ := h
  refine ⟨⟨?_, hauthorize, hallow, ?_⟩, trivial⟩
  · rintro handle bit heq
    rw [hbody] at heq
    cases heq
    exact ⟨routing, hrouting, hcaps⟩
  · intro d hd
    rw [Inbound.documents, hbody, List.mem_singleton] at hd
    obtain ⟨fd, hfd, hbytes, hne⟩ := hdoc
    exact ⟨fd, doc, hd.trans hfd, hbytes, hne⟩

theorem signBatch_ok {msg : SignBatch} (hbody : i.request.body = .signBatch msg)
    (h : (handleSignBatch A o s n i msg).result = .ok ending) :
    Passes A o s i .sign ∧ ending.Opens := by
  simp only [handleSignBatch, result_bind, card_ok, result_refuseIf, authorize_ok, limit_ok,
    result_ofExcept, result_pure] at h
  obtain ⟨routing, ⟨hrouting, hcaps⟩, -, -, -, hauthorize, -, hallow, -, -, inputs, hinputs,
    resolved, -, rfl⟩ := h
  refine ⟨⟨?_, hauthorize, hallow, ?_⟩, trivial⟩
  · rintro handle bit heq
    rw [hbody] at heq
    cases heq
    exact ⟨routing, hrouting, hcaps⟩
  · intro d hd
    rw [Inbound.documents, hbody, List.mem_map] at hd
    obtain ⟨entry, hentry, rfl⟩ := hd
    obtain ⟨fd, bytes, hfd, hbytes, hne⟩ := readEntries_ok hinputs hentry
    exact ⟨fd, bytes, hfd, hbytes, hne⟩

theorem managePin_ok {msg : ManagePin} (hbody : i.request.body = .managePin msg)
    (h : (handleManagePin A o s n i msg).result = .ok ending) :
    Passes A o s i .credentialsManage ∧ ending.Opens := by
  simp only [handleManagePin, result_bind, card_ok, result_refuseIf, authorize_ok, limit_ok] at h
  obtain ⟨routing, ⟨hrouting, hcaps⟩, -, hauthorize, -, hallow, -, -, hend⟩ := h
  refine ⟨⟨?_, hauthorize, hallow, ?_⟩, ?_⟩
  · rintro handle bit heq
    rw [hbody] at heq
    cases heq
    exact ⟨routing, hrouting, hcaps⟩
  · simp [Inbound.documents, hbody]
  · split at hend
    · exact absurd hend result_refuse
    · rw [result_pure] at hend
      subst hend
      trivial

theorem activateSigningKey_ok {handle : Handle}
    (hbody : i.request.body = .activateSigningKey handle)
    (h : (handleActivateSigningKey A o s n i handle).result = .ok ending) :
    Passes A o s i .credentialsManage ∧ ending.Opens := by
  simp only [handleActivateSigningKey, result_bind, card_ok, authorize_ok, limit_ok,
    result_pure] at h
  obtain ⟨routing, ⟨hrouting, hcaps⟩, -, hauthorize, -, hallow, rfl⟩ := h
  refine ⟨⟨?_, hauthorize, hallow, ?_⟩, trivial⟩
  · rintro handle bit heq
    rw [hbody] at heq
    cases heq
    exact ⟨routing, hrouting, hcaps⟩
  · simp [Inbound.documents, hbody]

theorem importCscaMasterList_ok {msg : ImportCscaMasterList}
    (hbody : i.request.body = .importCscaMasterList msg)
    (h : (handleImportCscaMasterList o n i msg).result = .ok ending) :
    Passes A o s i .configureTrust ∧ ending.Opens := by
  simp only [handleImportCscaMasterList, result_bind, authorize_ok, limit_ok, result_ofOption,
    result_pure] at h
  obtain ⟨-, hauthorize, -, hallow, held, -, rfl⟩ := h
  refine ⟨⟨?_, hauthorize, hallow, ?_⟩, trivial⟩
  · simp [Request.gatedCard, hbody]
  · simp [Inbound.documents, hbody]

/-- A change of a trust-tier key. -/
theorem change_ok {x : Apply} (hx : A.core.mutability x.key = some .dbusMutableTrust)
    (hcard : i.request.body.gatedCard A.library = none) (hdocuments : i.documents = [])
    (h : (handleChange A o n i x).result = .ok ending) :
    Passes A o s i .configureTrust ∧ ending.Opens := by
  simp only [handleChange, result_bind, result_ofOption, result_refuseIf, hx, Option.some.injEq,
    exists_eq_left', if_true, authorize_ok, limit_ok, result_pure] at h
  obtain ⟨-, -, -, hauthorize, -, hallow, rfl⟩ := h
  refine ⟨⟨?_, hauthorize, hallow, ?_⟩, trivial⟩
  · simp [hcard]
  · simp [hdocuments]

/-- **A gated request that is not refused passed** its gates and its
documents, and is launched or put to a person. -/
theorem passes_of_ok (hgate : i.request.body.gate A.core = some action)
    (h : (handle A o s n i).result = .ok ending) : Passes A o s i action ∧ ending.Opens := by
  have htrust : ∀ key, trustGate A.core key = some action →
      A.core.mutability key = some .dbusMutableTrust ∧ action = .configureTrust := by
    intro key hkey
    unfold trustGate at hkey
    split at hkey
    next htier => exact ⟨htier, (Option.some.inj hkey).symm⟩
    next => cases hkey
  unfold handle at h
  cases hbody : i.request.body with
  | sign msg =>
    rw [hbody] at hgate h
    cases hgate
    exact sign_ok hbody h
  | signBatch msg =>
    rw [hbody] at hgate h
    cases hgate
    exact signBatch_ok hbody h
  | managePin msg =>
    rw [hbody] at hgate h
    cases hgate
    exact managePin_ok hbody h
  | activateSigningKey handle =>
    rw [hbody] at hgate h
    cases hgate
    exact activateSigningKey_ok hbody h
  | importCscaMasterList msg =>
    rw [hbody] at hgate h
    cases hgate
    exact importCscaMasterList_ok hbody h
  | setConfig msg =>
    rw [hbody] at hgate h
    obtain ⟨htier, rfl⟩ := htrust msg.key hgate
    exact change_ok (x := .configWrite msg) htier (by simp [Request.gatedCard, hbody])
      (by simp [Inbound.documents, hbody]) h
  | resetConfig msg =>
    rw [hbody] at hgate h
    obtain ⟨htier, rfl⟩ := htrust msg.key hgate
    exact change_ok (x := .configReset msg) htier (by simp [Request.gatedCard, hbody])
      (by simp [Inbound.documents, hbody]) h
  | _ =>
    -- the other families have no gate
    rw [hbody] at hgate
    cases hgate

end Handlers

/-! ## A request that is turned away -/

/-- **Turned away**: the stores, the launched operations and the questions
are as they were, nothing was done that acts, and the reply is an error. -/
structure TurnedAway (s t : FrontendState V) (i : Inbound) : Prop where
  store : t.store = s.store
  opOwners : t.opOwners = s.opOwners
  signResults : t.signResults = s.signResults
  ops : t.ops = s.ops
  asks : t.asks = s.asks
  confirmsInFlight : t.confirmsInFlight = s.confirmsInFlight
  log : ∃ deeds code, t.log = s.log ++ deeds ++
    [.replied s.requests.length i.connId (syncErrorReply i.request.req code) none
      (s.Sends i.connId)] ∧ ∀ d ∈ deeds, ¬ d.Acts

theorem turnedAway_replyError (code : SyncError) :
    TurnedAway s ((s.handled A o i).replyError A o s.requests.length i.connId i.request.req code)
      i := by
  have hmoved := moved_call (A := A) (o := o) (s := (s.handled A o i).did
    [.replied s.requests.length i.connId (syncErrorReply i.request.req code) none
      ((s.handled A o i).Sends i.connId)])
    (.sendTo i.connId (syncErrorReply i.request.req code) [])
  refine ⟨hmoved.store, hmoved.opOwners, hmoved.signResults, hmoved.ops, hmoved.asks,
    hmoved.confirmsInFlight, _, code, hmoved.log, fun d hd => not_acts_handle hd⟩

theorem log_emit (anonFdFromBytes : Bytes → Option Fd) (op : OpId) (e : Emission) :
    s.log <+: (s.emit anonFdFromBytes op e).log := by
  unfold FrontendState.emit
  split
  · exact List.prefix_refl _
  · split
    · exact List.prefix_refl _
    · exact List.prefix_append _ _

/-- A launch is written down, whatever the worker emits meanwhile. -/
theorem launched_mem_launch (target : OperationTarget) (spec : LaunchSpec) (onSignArtifact : Bool)
    (op : OpId) (early : List Emission) :
    .launched n op target spec ∈ (s.launch o n i target spec onSignArtifact op early).log := by
  unfold FrontendState.launch
  generalize hs' : FrontendState.did _ [Deed.launched n op target spec] = s'
  have hmem : .launched n op target spec ∈ s'.log := by
    rw [← hs']
    exact List.mem_append_right _ (List.mem_singleton.2 rfl)
  clear hs'
  induction early generalizing s' with
  | nil => exact hmem
  | cons e early ih => exact ih _ ((log_emit _ op e).subset hmem)

/-- **A dispatch of a gated request** passes, and launches or asks; or it is
turned away. -/
theorem dispatch_gated {action : AuthAction} (hgate : i.request.body.gate A.core = some action) :
    TurnedAway s (s.dispatch A o i) i ∨ Passes A o s i action ∧
      ∃ d ∈ (s.dispatch A o i).log, d.number? = some s.requests.length ∧ d.Acts := by
  have hdispatch : s.dispatch A o i = (s.handled A o i).conclude A o s.requests.length i
      (handle A o s s.requests.length i).result := rfl
  rw [hdispatch]
  cases hresult : (handle A o s s.requests.length i).result with
  | error code => exact .inl (turnedAway_replyError code)
  | ok ending =>
    obtain ⟨hpasses, hopens⟩ := passes_of_ok hgate hresult
    cases ending with
    | launch target spec onSignArtifact =>
      simp only [FrontendState.conclude, FrontendState.replyLaunched]
      cases o.launched with
      | error code => exact .inl (turnedAway_replyError code)
      | ok out =>
        refine .inr ⟨hpasses, .launched s.requests.length out.1 target spec, ?_, rfl, trivial⟩
        dsimp only
        unfold FrontendState.sendReplyOnLoop FrontendState.reply
        rw [(moved_call (A := A) _).log]
        exact List.mem_append_left _ (launched_mem_launch target spec onSignArtifact out.1 out.2)
    | confirm x =>
      simp only [FrontendState.conclude, FrontendState.confirmThenApply]
      cases describeTrustChange x.key x.what with
      | none => exact .inl (turnedAway_replyError _)
      | some copy =>
        dsimp only
        split
        · exact .inl (turnedAway_replyError _)
        · refine .inr ⟨hpasses, .asked s.requests.length i.connId i.request.req x.key, ?_, rfl,
            trivial⟩
          exact List.mem_append_right _ (List.mem_singleton.2 rfl)
    | _ => exact hopens.elim

/-! ## The order of things over a run -/

/-- A deed that reads a document, or acts. -/
def Deed.Opens : Deed → Prop
  | .readFd _ _ _ => True
  | d => d.Acts

/-- A deed that turns its request away. -/
def Deed.TurnsAway : Deed → Prop
  | .authorized _ _ outcome => outcome ≠ .granted
  | .allowed _ ok => ok = false
  | .readFd _ _ outcome => ∃ code, documentOf outcome = .error code
  | _ => False

/-- **What a log says of a gated request**, number `n`. -/
structure Gated (n : ℕ) (i : Inbound) (action : AuthAction) (log : List Deed) : Prop where
  /-- the limiter is asked once at most, and after the authorizer granted -/
  charged : ∀ before ok after, log = before ++ .allowed n ok :: after →
    .authorized n action .granted ∈ before ∧ ∀ ok', .allowed n ok' ∉ before
  /-- nothing is read, asked, launched or changed before both gates passed -/
  opened : ∀ before d after, log = before ++ d :: after → d.number? = some n → d.Opens →
    [.authorized n action .granted, .allowed n true].Sublist before
  /-- what is launched is launched on all the documents, and each was read -/
  documents : ∀ before op target spec after, log = before ++ .launched n op target spec :: after →
    ∃ reads : List (Fd × Bytes), (reads.map fun r => some r.1) = i.documents ∧
      reads.map Prod.snd = spec.documents ∧
      ∀ r ∈ reads, .readFd n r.1 (.ok r.2) ∈ before ∧ r.2 ≠ []
  /-- a request turned away, before or after, launches, asks and changes
  nothing -/
  refused : ∀ d ∈ log, d.number? = some n → d.TurnsAway →
    ∀ d' ∈ log, d'.number? = some n → ¬ d'.Acts

theorem gate_ne_configure {C : AgentCore V Trust} : i.request.body.gate C ≠ some .configure := by
  have htrust : ∀ key, trustGate C key ≠ some .configure := by
    intro key
    unfold trustGate
    split <;> simp
  cases i.request.body with
  | setConfig msg => exact htrust msg.key
  | resetConfig msg => exact htrust msg.key
  | _ => simp [Request.gate]

/-- A phase a deed opens from says that both gates passed. -/
theorem gates_of_opens {C : AgentCore V Trust} {φ φ' : Phase} {action : AuthAction} {d : Deed}
    {deeds : List Deed} (hgate : i.request.body.gate C = some action)
    (hrun : (life C i n).run .entered deeds = some φ) (hnext : φ.next C i d = some φ')
    (hd : d.Opens) : [.authorized n action .granted, .allowed n true].Sublist deeds := by
  have hallowed : ∀ action' reads, φ = .allowed action' reads →
      [.authorized n action .granted, .allowed n true].Sublist deeds := by
    rintro action' reads rfl
    obtain ⟨looked, opened, rfl, -, hgate', -⟩ := run_allowed hrun
    obtain rfl := Option.some.inj (hgate.symm.trans hgate')
    exact (List.sublist_append_right looked _).trans (List.sublist_append_left _ opened)
  cases d with
  | readFd m fd outcome =>
    obtain ⟨action', reads, hφ, -⟩ := next_readFd.1 hnext
    exact hallowed action' reads hφ
  | launched m op target spec =>
    obtain ⟨hlaunches, -⟩ := next_launched.1 hnext
    cases φ with
    | entered =>
      rw [Phase.Launches, hgate] at hlaunches
      cases hlaunches
    | allowed action' reads => exact hallowed action' reads rfl
    | _ => exact hlaunches.elim
  | asked m connId req key =>
    obtain ⟨hφ, -⟩ := next_asked.1 hnext
    exact hallowed _ _ hφ
  | applied m connId req confirmed effects =>
    obtain ⟨happlies, -⟩ := next_applied.1 hnext
    cases confirmed with
    | true =>
      obtain rfl : φ = .answered .ok := happlies
      obtain ⟨looked, key, rfl, -, hgate', -⟩ := run_answered hrun
      obtain rfl := Option.some.inj (hgate.symm.trans hgate')
      refine List.Sublist.trans ?_ (List.sublist_append_right looked _)
      exact List.sublist_append_left
        [Deed.authorized n .configureTrust .granted, .allowed n true] _
    | false =>
      -- an unconfirmed change is of a family without a gate
      obtain ⟨hφ, -⟩ : φ = .authorized .configure ∧ _ := happlies
      subst hφ
      obtain ⟨-, -, -, haction⟩ := run_authorized hrun
      rw [hgate] at haction
      exact absurd (hgate.trans (congrArg some haction.symm)) gate_ne_configure
  | _ => exact hd.elim

/-- A deed that turns its request away comes before anything is acted on,
and leaves nothing to act on. -/
theorem refused_of_turnsAway {C : AgentCore V Trust} {φ φ' : Phase} {d : Deed}
    (hnext : φ.next C i d = some φ') (hd : d.TurnsAway) : ¬ φ.Acted ∧ ¬ d.Acts ∧ φ' = .refused := by
  cases d with
  | authorized m action outcome =>
    obtain ⟨rfl, -, rfl⟩ := next_authorized.1 hnext
    exact ⟨id, id, if_neg hd⟩
  | allowed m ok =>
    obtain ⟨action, rfl, -, rfl⟩ := next_allowed.1 hnext
    obtain rfl : ok = false := hd
    exact ⟨id, id, rfl⟩
  | readFd m fd outcome =>
    obtain ⟨code, hcode⟩ := hd
    obtain ⟨action, reads, rfl, ⟨bytes, hok, -⟩ | ⟨-, rfl⟩⟩ := next_readFd.1 hnext
    · rw [hcode] at hok
      cases hok
    · exact ⟨id, id, rfl⟩
  | _ => exact hd.elim

/-- **The log of a run, at a gated request.** -/
theorem gated_of_lives (h : Lives A s) {action : AuthAction} (hi : s.requests[n]? = some i)
    (hgate : i.request.body.gate A.core = some action) : Gated n i action s.log := by
  -- the life of the request, up to a deed of its own and from there
  have hat : ∀ before d after, s.log = before ++ d :: after → d.number? = some n →
      ∃ φ φ', (life A.core i n).run .entered ((lives A).own n before) = some φ ∧
        φ.next A.core i d = some φ' ∧
        ∃ φ'', (life A.core i n).run φ' ((lives A).own n after) = some φ'' := by
    intro before d after hlog hd
    obtain ⟨i', φ, φ', hi', hrun, hstep, hrest⟩ := Ledger.Kept.step_at h hlog hd
    obtain rfl := Option.some.inj (hi.symm.trans hi')
    exact ⟨φ, φ', hrun, (life_step.1 hstep).2, hrest⟩
  have hown : ∀ {before : List Deed} {d : Deed}, d ∈ (lives A).own n before → d ∈ before :=
    fun hd => ((lives A).mem_own.1 hd).1
  refine ⟨fun before ok after hlog => ?_, fun before d after hlog hd hopens => ?_,
    fun before op target spec after hlog => ?_, fun d hmem hd haway d' hmem' hd' hacts => ?_⟩
  · obtain ⟨φ, φ', hrun, hnext, -⟩ := hat before _ after hlog rfl
    obtain ⟨action', rfl, hgate', -⟩ := next_allowed.1 hnext
    obtain rfl := Option.some.inj (hgate.symm.trans hgate')
    obtain ⟨looked, hbefore, hlooked, -⟩ := run_authorized hrun
    refine ⟨hown (hbefore ▸ List.mem_append_right _ (List.mem_singleton.2 rfl)), fun ok' hok' => ?_⟩
    have hmem : .allowed n ok' ∈ (lives A).own n before := (lives A).mem_own.2 ⟨hok', rfl⟩
    rw [hbefore, List.mem_append, List.mem_singleton] at hmem
    rcases hmem with hmem | heq
    · exact hlooked _ hmem
    · cases heq
  · obtain ⟨φ, φ', hrun, hnext, -⟩ := hat before d after hlog hd
    exact (gates_of_opens hgate hrun hnext hopens).trans List.filter_sublist
  · obtain ⟨φ, φ', hrun, hnext, -⟩ := hat before _ after hlog rfl
    obtain ⟨hlaunches, -⟩ := next_launched.1 hnext
    cases φ with
    | entered =>
      rw [Phase.Launches, hgate] at hlaunches
      cases hlaunches
    | allowed action' reads =>
      obtain ⟨-, hfds, hbytes⟩ := hlaunches
      obtain ⟨looked, opened, hbefore, -, -, hopened⟩ := run_allowed hrun
      refine ⟨reads, hfds, hbytes, fun r hr => ?_⟩
      obtain ⟨hread, hne⟩ := mem_opened hopened hr
      exact ⟨hown (hbefore ▸ List.mem_append_right _ hread), hne⟩
    | _ => exact hlaunches.elim
  · obtain ⟨before, after, hlog⟩ := List.append_of_mem hmem
    obtain ⟨φ, φ', hrun, hnext, φ'', hrest⟩ := hat before d after hlog hd
    obtain ⟨hnot, hquiet, rfl⟩ := refused_of_turnsAway hnext haway
    rw [hlog, List.mem_append, List.mem_cons] at hmem'
    rcases hmem' with hbefore | rfl | hafter
    · exact hnot (acted_run hrun (.inr ⟨d', (lives A).mem_own.2 ⟨hbefore, hd'⟩, hacts⟩))
    · exact hquiet hacts
    · obtain ⟨connId, m, carries, sent, rfl⟩ :=
        run_from_refused hrest d' ((lives A).mem_own.2 ⟨hafter, hd'⟩)
      exact hacts

/-- **Entry gates.** -/
theorem entry_gates (A : Agent V Trust) {i : Inbound} {action : AuthAction}
    (hgate : i.request.body.gate A.core = some action) :
    (∀ s n, (frontend A).Reachable s → s.requests[n]? = some i → Gated n i action s.log) ∧
      ∀ o s, TurnedAway s (s.dispatch A o i) i ∨ Passes A o s i action ∧
        ∃ d ∈ (s.dispatch A o i).log, d.number? = some s.requests.length ∧ d.Acts :=
  ⟨fun _ _ hs hi => gated_of_lives (closed_lives.reachable hs) hi hgate,
    fun _ _ => dispatch_gated hgate⟩

/-- A client signs a document on a card, and then one whose descriptor it
did not send. -/
def signsTwice : List FrontendInput :=
  [connects, insertsCard] ++ sendsRequest 1 [3, 7] [4] (plainOutside 5 []) ++
    sendsRequest 1 [3, 8] [] (plainOutside 6 [])

theorem entry_gates_signsTwice :
    ∃ s i j, (frontend plainAgent).run (.start 0) signsTwice = some s ∧ s.requests = [i, j] ∧
      Gated 0 i .sign s.log ∧ Gated 1 j .sign s.log ∧
      (TurnedAway s (s.dispatch plainAgent (plainOutside 6 []) j) j ∨
        Passes plainAgent (plainOutside 6 []) s j .sign) ∧
      s.opOwners 5 = some (callerToken 1) ∧ s.ops 6 = none := by
  have hreach : ∀ s, (frontend plainAgent).run (.start 0) signsTwice = some s →
      (frontend plainAgent).Reachable s := fun s hrun => ⟨_, _, ⟨0, rfl⟩, hrun⟩
  have hgated : ∀ s n i, (frontend plainAgent).run (.start 0) signsTwice = some s →
      i.request.body = .sign plainSign → s.requests[n]? = some i → Gated n i .sign s.log := by
    intro s n i hrun hbody hi
    exact (entry_gates plainAgent (by rw [hbody]; rfl)).1 s n (hreach s hrun) hi
  have hdispatch : ∀ (s : FrontendState ℕ) (j : Inbound), j.request.body = .sign plainSign →
      TurnedAway s (s.dispatch plainAgent (plainOutside 6 []) j) j ∨
        Passes plainAgent (plainOutside 6 []) s j .sign := by
    intro s j hbody
    have hgate : j.request.body.gate plainAgent.core = some .sign := by rw [hbody]; rfl
    exact ((entry_gates plainAgent hgate).2 _ s).imp_right And.left
  exact ⟨_, _, _, rfl, rfl, hgated _ _ _ rfl rfl rfl, hgated _ _ _ rfl rfl rfl,
    hdispatch _ _ rfl, rfl, rfl⟩

end Frontend

end LibreDarwin
