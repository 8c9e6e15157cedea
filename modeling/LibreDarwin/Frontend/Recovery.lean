import LibreDarwin.Frontend.Events
import LibreDarwin.Frontend.Model.Recovery

/-!
# Operations are private to their connection

Seen from one connection, the frontend is an agent with one client: what it
keeps for the client and what it answers to the client's recoveries and
cancels is what `Solo` makes of the client's own dealings (`reachable_solo`).
So two runs in which a client deals alike answer it alike, whatever other
connections started in them. The same case analysis of a turn
(`RecoveryTurn`) shows where the bytes of a document go, and who cancels an
operation.
-/

namespace LibreDarwin

namespace Frontend

open Wire Transport OperationChannel Script

variable {V Trust : Type*} {A : Agent V Trust} {o : Outside} {s t : FrontendState V}

/-! ## What the other handlers write down -/

section Asking

variable {n : ℕ} {i : Inbound} {α β : Type}

/-- A deed by which a gate is asked, or a document read. -/
def Deed.Asks : Deed → Bool
  | .authorized _ _ _ | .allowed _ _ | .readFd _ _ _ => true
  | _ => false

/-- A log of nothing else. -/
def asking : Machine Unit Deed where
  init _ := True
  step _ d := if d.Asks then some () else none

/-- A script that asks and reads, and whose results have `Q`. -/
def AsksFor (x : Script Deed SyncError α) (Q : α → Prop) : Prop :=
  Follows asking () x (fun _ => Q) fun _ _ => True

theorem asks_of_run {deeds : List Deed} {u v : Unit} (h : asking.run u deeds = some v) :
    ∀ d ∈ deeds, d.Asks = true := by
  induction deeds with
  | nil => simp
  | cons d deeds ih =>
    obtain ⟨w, hstep, hrun⟩ := Machine.run_cons_eq_some.1 h
    have hd : d.Asks = true := by
      by_contra hne
      simp [asking, hne] at hstep
    rintro d' hd'
    rcases List.mem_cons.1 hd' with rfl | hmem
    · exact hd
    · exact ih hrun d' hmem

namespace AsksFor

variable {Q : β → Prop}

theorem pure {b : β} (h : Q b) : AsksFor (pure b : Script Deed SyncError β) Q := Follows.pure h

theorem refuse {code : SyncError} : AsksFor (refuse code : Script Deed SyncError β) Q :=
  Follows.refuse trivial

theorem bind {x : Script Deed SyncError α} {f : α → Script Deed SyncError β}
    (hx : AsksFor x fun _ => True) (hf : ∀ a, AsksFor (f a) Q) : AsksFor (x >>= f) Q :=
  Follows.bind hx fun _ a _ => hf a

theorem tell {d : Deed} (h : d.Asks = true) :
    AsksFor (tell d : Script Deed SyncError Unit) fun _ => True := by
  have hstep : asking.step () d = some () := by simp [asking, h]
  exact Follows.tell hstep trivial

theorem refuseIf {bad : Bool} {code : SyncError} :
    AsksFor (refuseIf bad code : Script Deed SyncError Unit) fun _ => True :=
  Follows.refuseIf (fun _ => trivial) trivial

theorem ofExcept {result : Except SyncError α} :
    AsksFor (ofExcept result : Script Deed SyncError α) fun _ => True :=
  Follows.ofExcept (fun _ _ => trivial) fun _ _ => trivial

theorem ofOption {value : Option α} {code : SyncError} :
    AsksFor (ofOption value code : Script Deed SyncError α) fun _ => True :=
  Follows.ofOption (fun _ _ => trivial) trivial

end AsksFor

theorem asks_card {handle : Handle} {bit : ℕ} : AsksFor (card s handle bit) fun _ => True :=
  .bind .ofOption fun _ => .bind .refuseIf fun _ => .pure trivial

theorem asks_authorize {action : AuthAction} :
    AsksFor (authorize o n i action) fun _ => True := by
  refine .bind (.tell rfl) fun _ => ?_
  split
  · exact .refuse
  · exact .pure trivial

theorem asks_limit : AsksFor (limit o n i) fun _ => True :=
  .bind (.tell rfl) fun _ => .refuseIf

theorem asks_readDocument {cap index : ℕ} :
    AsksFor (readDocument o n i cap index) fun _ => True :=
  .bind .ofOption fun _ => .bind (.tell rfl) fun _ => .ofExcept

theorem asks_readEntries {entries : List BatchEntry} :
    AsksFor (forEach (readEntry A o n i) entries) fun _ => True := by
  have hread : ∀ entry, AsksFor (readEntry A o n i entry) fun _ => True :=
    fun entry => .bind asks_readDocument fun _ => .pure trivial
  induction entries with
  | nil => exact ⟨(), rfl, trivial⟩
  | cons entry entries ih =>
    refine (hread entry).andThen fun _ input _ => ?_
    exact ih.andThen fun _ inputs _ => ⟨(), rfl, trivial⟩

/-- An end that sends no document. -/
def Ending.Bare : Ending → Prop
  | .reply _ _ carries => carries = none
  | _ => True

theorem asks_read {handle : Handle} {bit : ℕ} {spec : LaunchSpec} :
    AsksFor (handleRead o s i handle bit spec) Ending.Bare :=
  .bind asks_card fun _ => .pure trivial

theorem asks_change {x : Apply} : AsksFor (handleChange A o n i x) Ending.Bare := by
  refine .bind .ofOption fun tier => .bind .refuseIf fun _ => ?_
  split
  · exact .bind asks_authorize fun _ => .bind asks_limit fun _ => .pure trivial
  · exact .bind asks_authorize fun _ => .pure trivial

theorem asks_managePin {msg : ManagePin} :
    AsksFor (handleManagePin A o s n i msg) Ending.Bare := by
  refine .bind asks_card fun _ => .bind asks_authorize fun _ => .bind asks_limit fun _ =>
    .bind .refuseIf fun _ => ?_
  dsimp only
  split
  · exact .refuse
  · exact .pure trivial

/-- **Every handler asks and reads**, but for the two that look an operation
up. -/
theorem asks_handle (h : i.request.body.NamesOp = false) :
    AsksFor (handle A o s n i) Ending.Bare := by
  unfold handle
  split
  next =>
    unfold handleHello
    split <;> exact .pure trivial
  next => exact .pure rfl
  next => exact asks_read
  next => exact asks_read
  next => exact asks_read
  next => exact asks_read
  next =>
    exact .bind asks_card fun _ => .bind .refuseIf fun _ => .bind asks_authorize fun _ =>
      .bind asks_limit fun _ => .bind asks_readDocument fun _ => .bind .ofExcept fun _ =>
      .pure trivial
  next =>
    exact .bind asks_card fun _ => .bind .refuseIf fun _ => .bind asks_authorize fun _ =>
      .bind asks_limit fun _ => .bind .refuseIf fun _ => .bind asks_readEntries fun _ =>
      .bind .ofExcept fun _ => .pure trivial
  next => exact asks_read
  next => exact asks_managePin
  next =>
    exact .bind asks_card fun _ => .bind asks_authorize fun _ => .bind asks_limit fun _ =>
      .pure trivial
  next => exact .pure trivial
  next => exact .pure rfl
  next => exact asks_change
  next => exact asks_change
  -- the two that name an operation
  next hbody => simp [hbody, Request.NamesOp] at h
  next hbody => simp [hbody, Request.NamesOp] at h
  next => exact .pure trivial
  next => exact .pure rfl
  next => exact .pure rfl
  next => exact .pure trivial
  next => exact .bind .ofOption fun _ => .pure trivial
  next => exact .bind .ofOption fun _ => .pure trivial
  next => exact .pure trivial
  next => exact .bind .refuseIf fun _ => .pure rfl
  next => exact .bind .ofOption fun _ => .pure rfl
  next =>
    exact .bind asks_authorize fun _ => .bind asks_limit fun _ => .bind .ofOption fun _ =>
      .pure trivial

end Asking

/-! ## A dispatch that looks an operation up -/

section NamesOp

variable {i : Inbound} {op : OpId} {m : Message} {carries : Option (OpId × Bytes)}

/-- Whether there is a file for a document. -/
def Outside.fits (o : Outside) (bytes : Bytes) : Bool := (o.anonFdFromBytes bytes).isSome

theorem handle_cancelOp (hbody : i.request.body = .cancelOp op) {n : ℕ} :
    handle A o s n i =
      ⟨[.cancel n op (s.opOwners op = some i.caller)], .ok (.plain (.ack i.request.req))⟩ := by
  unfold handle
  rw [hbody]
  rfl

/-- **A recovery is answered out of the client's own documents.** -/
theorem handle_getSignResult (hbody : i.request.body = .getSignResult op)
    (hcaller : i.caller = callerToken i.connId) {n : ℕ} :
    (handle A o s n i).log = [.fetched n op o.fits] ∧
      ((∃ code, (handle A o s n i).result = .error code ∧
          (s.solo i.connId).recover i.request.req op o.fits =
            (syncErrorReply i.request.req code, none)) ∨
        ∃ m fds carries, (handle A o s n i).result = .ok (.reply m fds carries) ∧
          (s.solo i.connId).recover i.request.req op o.fits = (m, carries)) := by
  have hhandle : handle A o s n i = handleGetSignResult o s n i op := by
    unfold handle
    rw [hbody]
  have hdocuments : (s.solo i.connId).documents op =
      ((s.signResults op).filter fun record => record.owner = i.caller).map
        SignRecord.artifact := by
    rw [hcaller]
    rfl
  rw [hhandle]
  unfold Solo.recover
  rw [hdocuments]
  cases hrecord : (s.signResults op).filter fun record => record.owner = i.caller with
  | none =>
    unfold handleGetSignResult
    rw [hrecord]
    exact ⟨rfl, .inl ⟨.noResult, rfl, rfl⟩⟩
  | some record =>
    -- what is left of the script once there is a record
    have hscript : handleGetSignResult o s n i op = (do
        tell (.fetched n op o.fits)
        let fd ← ofOption (o.anonFdFromBytes record.artifact.bytes) .communicationError
        pure (.reply (.signRecovery i.request.req 0 record.artifact.info) [fd]
          (some (op, record.artifact.bytes)))) := by
      unfold handleGetSignResult
      rw [hrecord]
      rfl
    simp only [Option.map_some]
    -- whether there is a file for it is all that is asked of the kernel
    cases hfd : o.anonFdFromBytes record.artifact.bytes with
    | none =>
      have hfits : o.fits record.artifact.bytes = false := by
        rw [Outside.fits, hfd]
        rfl
      rw [hscript, hfd, hfits]
      exact ⟨rfl, .inl ⟨.communicationError, rfl, rfl⟩⟩
    | some fd =>
      have hfits : o.fits record.artifact.bytes = true := by
        rw [Outside.fits, hfd]
        rfl
      rw [hscript, hfd, hfits]
      exact ⟨rfl, .inr ⟨_, _, _, rfl, rfl⟩⟩

/-- Such a dispatch ends with its reply. -/
theorem reply_of_namesOp (h : i.request.body.NamesOp = true)
    (hcaller : i.caller = callerToken i.connId) {n : ℕ} {ending : Ending}
    (hok : (handle A o s n i).result = .ok ending) :
    ∃ m fds carries, ending = .reply m fds carries := by
  cases hbody : i.request.body with
  | cancelOp op =>
    rw [handle_cancelOp hbody] at hok
    exact ⟨_, _, _, (Except.ok.inj hok).symm⟩
  | getSignResult op =>
    rcases (handle_getSignResult (A := A) (o := o) (s := s) (n := n) hbody hcaller).2 with
      ⟨code, hresult, -⟩ | ⟨m, fds, carries, hresult, -⟩
    · rw [hok] at hresult
      cases hresult
    · rw [hok] at hresult
      exact ⟨m, fds, carries, Except.ok.inj hresult⟩
  | _ => simp [hbody, Request.NamesOp] at h

/-- So a dispatch that ends in anything else names none. -/
theorem not_namesOp_of_ok (hcaller : i.caller = callerToken i.connId) {n : ℕ} {ending : Ending}
    (hok : (handle A o s n i).result = .ok ending)
    (hne : ∀ m fds carries, ending ≠ .reply m fds carries) :
    i.request.body.NamesOp = false := by
  by_contra h
  obtain ⟨m, fds, carries, heq⟩ := reply_of_namesOp (by simpa using h) hcaller hok
  exact hne m fds carries heq

theorem Says.cancelOp (hbody : i.request.body = .cancelOp op) (h : Says A o s i m carries) :
    m = .ack i.request.req ∧ carries = none := by
  have hhandle := handle_cancelOp (A := A) (o := o) (s := s) (n := s.requests.length) hbody
  cases h with
  | reply h =>
    rw [hhandle] at h
    cases h
    exact ⟨rfl, rfl⟩
  | refused h => rw [hhandle] at h; cases h
  | sendThenClose h => rw [hhandle] at h; cases h
  | hello h => rw [hhandle] at h; cases h
  | notLaunched h => rw [hhandle] at h; cases h
  | notAsked h => rw [hhandle] at h; cases h

theorem Says.getSignResult (hbody : i.request.body = .getSignResult op)
    (hcaller : i.caller = callerToken i.connId) (h : Says A o s i m carries) :
    (s.solo i.connId).recover i.request.req op o.fits = (m, carries) := by
  have hreply : ∀ {ending}, (handle A o s s.requests.length i).result = .ok ending →
      ∃ m fds carries, ending = .reply m fds carries :=
    fun hok => reply_of_namesOp (by rw [hbody]; rfl) hcaller hok
  obtain ⟨-, hresult⟩ := handle_getSignResult (A := A) (o := o) (s := s) (n := s.requests.length)
    hbody hcaller
  cases h with
  | refused h =>
    rcases hresult with ⟨code, hcode, heq⟩ | ⟨m', fds, carries', hok, -⟩
    · rw [h] at hcode
      rw [heq, Except.error.inj hcode]
    · rw [h] at hok
      cases hok
  | reply h =>
    rcases hresult with ⟨code, hcode, -⟩ | ⟨m', fds, carries', hok, heq⟩
    · rw [h] at hcode
      cases hcode
    · rw [h] at hok
      cases hok
      exact heq
  | sendThenClose h => obtain ⟨_, _, _, heq⟩ := hreply h; cases heq
  | hello h => obtain ⟨_, _, _, heq⟩ := hreply h; cases heq
  | notLaunched h => obtain ⟨_, _, _, heq⟩ := hreply h; cases heq
  | notAsked h => obtain ⟨_, _, _, heq⟩ := hreply h; cases heq

/-- Any other reply of a dispatch sends no document. -/
theorem Says.bare (hbody : i.request.body.NamesOp = false) (h : Says A o s i m carries) :
    carries = none := by
  cases h with
  | reply h =>
    obtain ⟨u, -, hres⟩ := asks_handle (A := A) (o := o) (s := s) (n := s.requests.length) hbody
    rw [h] at hres
    exact hres
  | _ => rfl

end NamesOp

/-! ## What a turn is to one connection -/

/-- What a turn adds to the log, and what it leaves of the rest. -/
structure Grows (s t : FrontendState V) (deeds : List Deed) : Prop where
  log : t.log = s.log ++ deeds
  requests : s.requests <+: t.requests
  ops : ∀ op x, s.ops op = some x →
    ∃ y, t.ops op = some y ∧ y.n = x.n ∧ y.connId = x.connId ∧ y.owner = x.owner

/-- A deed that is nobody's dealing, and no answer to one. -/
def Deed.Idle (t : FrontendState V) : Deed → Prop
  | .cancel _ _ _ | .fetched _ _ _ | .stashed _ _ _ | .evictedSignResult _ | .evictedClient _ =>
    False
  | .replied n _ _ carries _ => carries = none ∧ t.namesOp n = false
  | _ => True

/-- **What a turn does to the recovery store and its clients.** -/
inductive RecoveryTurn (s t : FrontendState V) (deeds : List Deed) : Prop
  /-- nothing -/
  | idle (hrequests : ∀ n, t.namesOp n = true → s.namesOp n = true)
      (hresults : t.signResults = s.signResults) (hdeeds : ∀ d ∈ deeds, d.Idle t)
  /-- a client cancels -/
  | cancelled {i : Inbound} {op : OpId} (hi : Arrives s i) (hbody : i.request.body = .cancelOp op)
      (hrequests : t.requests = s.requests ++ [i]) (hresults : t.signResults = s.signResults)
      (hdeeds : deeds = [.cancel s.requests.length op (s.opOwners op = some i.caller),
        .replied s.requests.length i.connId (.ack i.request.req) none true])
  /-- or recovers a document -/
  | fetched {i : Inbound} {op : OpId} {fits : Bytes → Bool} {m : Message}
      {carries : Option (OpId × Bytes)} (hi : Arrives s i)
      (hbody : i.request.body = .getSignResult op)
      (hrequests : t.requests = s.requests ++ [i]) (hresults : t.signResults = s.signResults)
      (hanswer : (s.solo i.connId).recover i.request.req op fits = (m, carries))
      (hdeeds : deeds = [.fetched s.requests.length op fits,
        .replied s.requests.length i.connId m carries true])
  /-- a document is kept -/
  | stashed {op : OpId} {owner : CallerToken} {artifact : SignedArtifact}
      (hknown : (Block.stash op owner artifact).Known s) (hrequests : t.requests = s.requests)
      (hresults : t.signResults = Function.update s.signResults op (some ⟨artifact, owner⟩))
      (hdeeds : deeds = [.stashed op owner artifact])
  /-- and kept no longer -/
  | expired {op : OpId} (hrequests : t.requests = s.requests) (hops : t.ops = s.ops)
      (hresults : t.signResults = Function.update s.signResults op none)
      (hdeeds : deeds = [.evictedSignResult op])
  | evicted {caller : CallerToken} (hrequests : t.requests = s.requests)
      (hresults : t.signResults =
        fun op => (s.signResults op).filter fun record => record.owner ≠ caller)
      (hdeeds : deeds = [.evictedClient caller])

/-- A request that names an operation was answered. -/
def Answered (s : FrontendState V) : Prop := ∀ n, s.namesOp n = true → repliesTo n s.log ≠ []

/-- So nothing waits that is the answer to one. -/
theorem not_namesOp_of_waiting (hl : Lives A s) (h : Answered s) {x : Waiting}
    (hx : x ∈ s.waiting) : s.namesOp x.n = false := by
  by_contra hnames
  obtain ⟨i, φ, -, hrun, hat⟩ := Ledger.Kept.holders hl x hx
  rcases repliesTo_of_run hrun with ⟨-, hnone⟩ | ⟨hover, -⟩
  · rw [show (lives A).key x = x.n from rfl, repliesTo_own] at hnone
    exact h x.n (by simpa using hnames) hnone
  · exact Waiting.not_over hat hover

theorem namesOp_congr (h : t.requests = s.requests) (n : ℕ) : t.namesOp n = s.namesOp n := by
  unfold FrontendState.namesOp
  rw [h]

theorem namesOp_length {i : Inbound} (h : t.requests = s.requests ++ [i]) :
    t.namesOp s.requests.length = i.request.body.NamesOp := by
  simp [FrontendState.namesOp, h]

/-- What names an operation after a request came. -/
theorem namesOp_cases {i : Inbound} (h : t.requests = s.requests ++ [i]) {n : ℕ}
    (hn : t.namesOp n = true) : s.namesOp n = true ∨ n = s.requests.length := by
  unfold FrontendState.namesOp at hn ⊢
  rcases Nat.lt_trichotomy n s.requests.length with hlt | rfl | hlt
  · rw [h, List.getElem?_append_left hlt] at hn
    exact .inl hn
  · exact .inr rfl
  · rw [h, List.getElem?_eq_none (by simpa using hlt)] at hn
    cases hn

theorem namesOp_of_append {i : Inbound} (h : t.requests = s.requests ++ [i])
    (hi : i.request.body.NamesOp = false) {n : ℕ} (hn : t.namesOp n = true) :
    s.namesOp n = true := by
  rcases namesOp_cases h hn with hold | rfl
  · exact hold
  · rw [namesOp_length h, hi] at hn
    cases hn

theorem idle_of_asks {d : Deed} (h : d.Asks = true) : d.Idle t := by
  cases d with
  | authorized n action outcome => trivial
  | allowed n ok => trivial
  | readFd n fd outcome => trivial
  | _ => cases h

theorem idle_emittedDeeds (op : OpId) (blocks : List Block) :
    ∀ d ∈ emittedDeeds op blocks, d.Idle t := by
  intro d hd
  simp only [emittedDeeds, List.mem_filterMap] at hd
  obtain ⟨block, -, heq⟩ := hd
  cases block <;> simp at heq
  subst heq
  trivial

/-- A turn that launches nothing, and whose worker emits nothing. -/
theorem Grows.of_ops {deeds : List Deed} (hops : t.ops = s.ops) (hlog : t.log = s.log ++ deeds)
    (hrequests : s.requests <+: t.requests) : Grows s t deeds :=
  ⟨hlog, hrequests, fun op x hx => ⟨x, by rw [hops, hx], rfl, rfl, rfl⟩⟩

/-- Operations that went on, or began. -/
theorem ops_update {op : OpId} {y : Operation}
    (hy : ∀ x, s.ops op = some x → y.n = x.n ∧ y.connId = x.connId ∧ y.owner = x.owner) :
    ∀ op' x, s.ops op' = some x → ∃ z, Function.update s.ops op (some y) op' = some z ∧
      z.n = x.n ∧ z.connId = x.connId ∧ z.owner = x.owner := by
  intro op' x hx
  by_cases hop : op' = op
  · subst hop
    exact ⟨y, Function.update_self .., hy x hx⟩
  · exact ⟨x, by rw [Function.update_of_ne hop, hx], rfl, rfl, rfl⟩

/-- A dispatch of a request that names no operation. -/
theorem RecoveryTurn.plain {i : Inbound} {ends : List Deed} (hbody : i.request.body.NamesOp = false)
    (hrequests : t.requests = s.requests ++ [i]) (hresults : t.signResults = s.signResults)
    (hends : ∀ d ∈ ends, d.Idle t) :
    RecoveryTurn s t ((handle A o s s.requests.length i).log ++ ends) := by
  obtain ⟨u, hrun, -⟩ := asks_handle (A := A) (o := o) (s := s) (n := s.requests.length) hbody
  refine .idle (fun n => namesOp_of_append hrequests hbody) hresults fun d hd => ?_
  rcases List.mem_append.1 hd with hd | hd
  · exact idle_of_asks (asks_of_run hrun d hd)
  · exact hends d hd

/-- A turn that dispatches nothing, and leaves the store as it was. -/
theorem recovery_quiet {deeds : List Deed} (hlog : t.log = s.log ++ deeds)
    (hrequests : t.requests = s.requests) (hops : t.ops = s.ops)
    (hresults : t.signResults = s.signResults) (hdeeds : ∀ d ∈ deeds, d.Idle t) :
    ∃ deeds, Grows s t deeds ∧ RecoveryTurn s t deeds := by
  refine ⟨deeds, .of_ops hops hlog (by rw [hrequests]), .idle (fun n hn => ?_) hresults hdeeds⟩
  rwa [namesOp_congr hrequests] at hn

/-- Or that leaves the log too. -/
theorem recovery_nothing (hlog : t.log = s.log) (hrequests : t.requests = s.requests)
    (hops : t.ops = s.ops) (hresults : t.signResults = s.signResults) :
    ∃ deeds, Grows s t deeds ∧ RecoveryTurn s t deeds :=
  recovery_quiet (hlog.trans (List.append_nil _).symm) hrequests hops hresults (by simp)

/-- **Every turn is one of these.** -/
theorem FrontendTurn.recovery (hk : Known s) (hl : Lives A s) (hanswered : Answered s)
    {input : FrontendInput} (hturn : FrontendTurn A s input t) :
    ∃ deeds, Grows s t deeds ∧ RecoveryTurn s t deeds := by
  cases hturn with
  | idle => exact recovery_nothing rfl rfl rfl rfl
  | @replied event o i hi m carries hsaying =>
    refine ⟨_, .of_ops rfl (List.append_assoc ..) (List.prefix_append ..), ?_⟩
    cases hbody : i.request.body with
    | cancelOp op =>
      obtain ⟨rfl, rfl⟩ := hsaying.cancelOp hbody
      refine .cancelled hi hbody rfl rfl ?_
      rw [handle_cancelOp hbody]
      rfl
    | getSignResult op =>
      obtain ⟨hlog, -⟩ := handle_getSignResult (A := A) (o := o) (s := s)
        (n := s.requests.length) hbody hi.caller
      refine .fetched hi hbody rfl rfl (hsaying.getSignResult hbody hi.caller) ?_
      rw [hlog]
      rfl
    | _ =>
      have hnames : i.request.body.NamesOp = false := by rw [hbody]; rfl
      refine .plain hnames rfl rfl (List.forall_mem_singleton.2 ⟨hsaying.bare hnames, ?_⟩)
      exact (namesOp_length rfl).trans hnames
  | changed hi hok =>
    have hnames := not_namesOp_of_ok hi.caller hok (by simp)
    refine ⟨_, .of_ops rfl (List.append_assoc ..) (List.prefix_append ..), RecoveryTurn.plain hnames rfl rfl ?_⟩
    simp only [List.mem_cons, List.not_mem_nil, or_false, forall_eq_or_imp, forall_eq]
    exact ⟨trivial, rfl, (namesOp_length rfl).trans hnames⟩
  | @launched event o i hi target spec onSignArtifact hok op early hlaunched hfresh =>
    have hnames := not_namesOp_of_ok hi.caller hok (by simp)
    set x : Operation := ⟨s.requests.length, i.connId, i.caller, onSignArtifact, false⟩
    set out := emitAll o.anonFdFromBytes op x early
    refine ⟨(handle A o s s.requests.length i).log ++
      ([.launched s.requests.length op target spec] ++ emittedDeeds op out.1 ++
        [.replied s.requests.length i.connId (.opStarted i.request.req op) none true]),
      ⟨?_, List.prefix_append .., ops_update fun x hx => ?_⟩, RecoveryTurn.plain hnames rfl rfl fun d hd => ?_⟩
    · simp [FrontendState.did, FrontendState.emitted, FrontendState.handled, out, x]
    · -- an id is not launched twice
      rw [show s.ops op = some x from hx] at hfresh
      cases hfresh
    · simp only [List.mem_append, List.mem_singleton] at hd
      rcases hd with (rfl | hmem) | rfl
      · trivial
      · exact idle_emittedDeeds op _ d hmem
      · exact ⟨rfl, (namesOp_length rfl).trans hnames⟩
  | asked hi hok hcopy hfree =>
    have hnames := not_namesOp_of_ok hi.caller hok (by simp)
    exact ⟨_, .of_ops rfl (List.append_assoc ..) (List.prefix_append ..),
      RecoveryTurn.plain hnames rfl rfl (List.forall_mem_singleton.2 trivial)⟩
  | brokered hi hok =>
    have hnames := not_namesOp_of_ok hi.caller hok (by simp)
    exact ⟨_, .of_ops rfl (List.append_assoc ..) (List.prefix_append ..),
      RecoveryTurn.plain hnames rfl rfl (List.forall_mem_singleton.2 trivial)⟩
  | answer hask => exact recovery_quiet rfl rfl rfl rfl (List.forall_mem_singleton.2 trivial)
  | @emit op x hx e anonFdFromBytes =>
    obtain ⟨hnext, -⟩ := from_emitAll anonFdFromBytes op [e] x
    refine ⟨_, ⟨rfl, List.prefix_refl _, ops_update fun y hy => ?_⟩,
      .idle (fun _ => id) rfl (idle_emittedDeeds _ _)⟩
    obtain rfl := Option.some.inj (hx.symm.trans hy)
    exact ⟨hnext.n, hnext.connId, hnext.owner⟩
  | broker hcall => exact recovery_nothing rfl rfl rfl rfl
  | due hop => exact recovery_nothing rfl rfl rfl rfl
  | dropped hposted hwhy => exact recovery_nothing rfl rfl rfl rfl
  | @reply o n connId m rest hposted hcan =>
    have hx : Waiting.reply n connId m ∈ s.waiting := mem_waiting hposted rfl
    exact recovery_quiet rfl rfl rfl rfl
      (List.forall_mem_singleton.2 ⟨rfl, not_namesOp_of_waiting hl hanswered hx⟩)
  | event hposted hcan => exact recovery_quiet rfl rfl rfl rfl (List.forall_mem_singleton.2 trivial)
  | @confirmed o ask rest hposted hcan halive =>
    have hx : Waiting.answered ask .ok ∈ s.waiting := mem_waiting hposted rfl
    refine recovery_quiet rfl rfl rfl rfl ?_
    simp only [List.mem_cons, List.not_mem_nil, or_false, forall_eq_or_imp, forall_eq]
    exact ⟨trivial, rfl, not_namesOp_of_waiting hl hanswered hx⟩
  | @declined o ask verdict rest hposted hcan halive hverdict =>
    have hx : Waiting.answered ask verdict ∈ s.waiting := mem_waiting hposted rfl
    exact recovery_quiet rfl rfl rfl rfl
      (List.forall_mem_singleton.2 ⟨rfl, not_namesOp_of_waiting hl hanswered hx⟩)
  | stashed hposted hcan halive =>
    exact ⟨_, .of_ops rfl rfl (List.prefix_refl _), .stashed (hk.pop hposted).1 rfl rfl rfl⟩
  | pruned hposted hcan halive => exact recovery_quiet rfl rfl rfl rfl (List.forall_mem_singleton.2 trivial)
  | expired hposted hcan halive =>
    exact ⟨_, .of_ops rfl rfl (List.prefix_refl _), .expired rfl rfl rfl rfl⟩
  | evicted hposted hcan halive =>
    exact ⟨_, .of_ops rfl rfl (List.prefix_refl _), .evicted rfl rfl rfl⟩
  | destroy => exact recovery_nothing rfl rfl rfl rfl

/-- **A turn answers what it takes.** -/
theorem Answered.turn {deeds : List Deed} (h : Answered s) (hg : Grows s t deeds)
    (hturn : RecoveryTurn s t deeds) : Answered t := by
  have hold : ∀ {n}, s.namesOp n = true → repliesTo n t.log ≠ [] := by
    intro n hn hnil
    rw [hg.log, repliesTo_append, List.append_eq_nil_iff] at hnil
    exact h n hn hnil.1
  -- the request that came is answered by the second of the two deeds
  have hnew : ∀ {d m carries connId}, deeds = [d, .replied s.requests.length connId m carries true] →
      repliesTo s.requests.length t.log ≠ [] := by
    rintro d m carries connId rfl hnil
    have hmem : (connId, m, true) ∈ repliesTo s.requests.length t.log := by
      refine mem_repliesTo.2 ⟨carries, ?_⟩
      rw [hg.log]
      simp
    rw [hnil] at hmem
    cases hmem
  intro n hn
  cases hturn with
  | idle hrequests hresults hdeeds => exact hold (hrequests n hn)
  | cancelled hi hbody hrequests hresults hdeeds =>
    rcases namesOp_cases hrequests hn with hs | rfl
    · exact hold hs
    · exact hnew hdeeds
  | fetched hi hbody hrequests hresults hanswer hdeeds =>
    rcases namesOp_cases hrequests hn with hs | rfl
    · exact hold hs
    · exact hnew hdeeds
  | stashed hknown hrequests hresults hdeeds => exact hold (namesOp_congr hrequests n ▸ hn)
  | expired hrequests hops hresults hdeeds => exact hold (namesOp_congr hrequests n ▸ hn)
  | evicted hrequests hresults hdeeds => exact hold (namesOp_congr hrequests n ▸ hn)

/-- An operation is its connection's. -/
theorem Known.owner (hk : Known s) {op : OpId} {x : Operation} (hx : s.ops op = some x) :
    x.owner = callerToken x.connId := by
  obtain ⟨i, hi, hof⟩ := hk.ops op x hx
  rw [hof.owner, hof.connId]
  exact (hk.requests i (List.mem_of_getElem? hi)).1

/-! ## A turn, replayed -/

section Replayed

variable {deeds : List Deed} {c : ConnId}

theorem Grows.getElem? (hg : Grows s t deeds) {n : ℕ} (hn : n < s.requests.length) :
    t.requests[n]? = s.requests[n]? := by
  obtain ⟨more, hmore⟩ := hg.requests
  rw [← hmore, List.getElem?_append_left hn]

/-- What was a client's dealing stays it. -/
theorem dealing?_grows (hk : Known s) (hl : Lives A s) (hg : Grows s t deeds) {d : Deed}
    (hd : d ∈ s.log) : t.dealing? c d = s.dealing? c d := by
  have hasked : ∀ {n}, d.number? = some n → t.requestOf c n = s.requestOf c n := by
    intro n hn
    unfold FrontendState.requestOf
    rw [hg.getElem? (Ledger.Kept.unborn hl d hd n hn)]
  cases d with
  | cancel n op called => simp only [FrontendState.dealing?, hasked rfl]
  | fetched n op fits => simp only [FrontendState.dealing?, hasked rfl]
  | evictedSignResult op =>
    obtain ⟨x, hx⟩ := hk.log _ hd
    obtain ⟨y, hy, -, hconn, -⟩ := hg.ops op x hx
    simp only [FrontendState.dealing?, hx, hy, Option.filter_some, hconn]
    split <;> rfl
  | _ => rfl

theorem recovery?_grows (hl : Lives A s) (hg : Grows s t deeds) {d : Deed} (hd : d ∈ s.log) :
    t.recovery? c d = s.recovery? c d := by
  cases d with
  | replied n connId m carries sent =>
    have hnames : t.namesOp n = s.namesOp n := by
      unfold FrontendState.namesOp
      rw [hg.getElem? (Ledger.Kept.unborn hl _ hd n rfl)]
    cases sent with
    | false => rfl
    | true => simp only [FrontendState.recovery?, hnames]
  | _ => rfl

theorem dealings_grows (hk : Known s) (hl : Lives A s) (hg : Grows s t deeds) :
    t.dealings c = s.dealings c ++ deeds.filterMap (t.dealing? c) := by
  unfold FrontendState.dealings
  rw [hg.log, List.filterMap_append]
  exact congrArg (· ++ _) (List.filterMap_congr fun d hd => dealing?_grows hk hl hg hd)

theorem recoveries_grows (hl : Lives A s) (hg : Grows s t deeds) :
    t.recoveries c = s.recoveries c ++ deeds.filterMap (t.recovery? c) := by
  unfold FrontendState.recoveries
  rw [hg.log, List.filterMap_append]
  exact congrArg (· ++ _) (List.filterMap_congr fun d hd => recovery?_grows hl hg hd)

/-- A record is the document of an operation its client started. -/
theorem documentsOf_eq_none (hk : Known s) {op : OpId}
    (h : ∀ x, s.ops op = some x → x.connId ≠ c) : s.documentsOf c op = none := by
  unfold FrontendState.documentsOf
  cases hrecord : s.signResults op with
  | none => rfl
  | some record =>
    obtain ⟨x, hx, howner, -⟩ := hk.signResults op record hrecord
    have hne : record.owner ≠ callerToken c := by
      rw [← howner, hk.owner hx]
      exact fun heq => h x hx (callerToken_injective heq)
    simp [hne]

theorem documentsOf_congr (h : t.signResults = s.signResults) :
    t.documentsOf c = s.documentsOf c := by
  funext op
  unfold FrontendState.documentsOf
  rw [h]

theorem documentsOf_update {op : OpId} {record : Option SignRecord}
    (h : t.signResults = Function.update s.signResults op record) :
    t.documentsOf c = Function.update (s.documentsOf c) op
      ((record.filter fun record => record.owner = callerToken c).map SignRecord.artifact) := by
  funext op'
  unfold FrontendState.documentsOf
  rw [h]
  by_cases hop : op' = op
  · subst hop
    rw [Function.update_self, Function.update_self]
  · rw [Function.update_of_ne hop, Function.update_of_ne hop]

/-- The sweep of a client takes the client's documents, and no others. -/
theorem documentsOf_evicted {caller : CallerToken}
    (h : t.signResults =
      fun op => (s.signResults op).filter fun record => record.owner ≠ caller) :
    t.documentsOf c = if caller = callerToken c then fun _ => none else s.documentsOf c := by
  funext op
  unfold FrontendState.documentsOf
  rw [h]
  dsimp only
  rw [Option.filter_filter]
  by_cases hcaller : caller = callerToken c
  · rw [if_pos hcaller, hcaller]
    simp
  · have hsame : ∀ record : SignRecord,
        (decide (record.owner ≠ caller) && decide (record.owner = callerToken c)) =
          decide (record.owner = callerToken c) := by
      intro record
      by_cases howner : record.owner = callerToken c
      · simp [howner, Ne.symm hcaller]
      · simp [howner]
    rw [if_neg hcaller]
    simp only [hsame]

theorem recovery?_idle {d : Deed} (h : d.Idle t) : t.recovery? c d = none := by
  cases d with
  | replied n connId m carries sent =>
    cases sent with
    | false => rfl
    | true => simp [FrontendState.recovery?, h.2]
  | _ => rfl

theorem dealing?_idle {d : Deed} (h : d.Idle t) : t.dealing? c d = none := by
  cases d with
  | cancel n op called => exact h.elim
  | fetched n op fits => exact h.elim
  | stashed op owner artifact => exact h.elim
  | evictedSignResult op => exact h.elim
  | evictedClient caller => exact h.elim
  | _ => rfl

theorem requestOf_length {i : Inbound} (h : t.requests = s.requests ++ [i]) :
    t.requestOf c s.requests.length = if i.connId = c then some i else none := by
  unfold FrontendState.requestOf
  rw [h, List.getElem?_concat_length, Option.filter_some]
  simp

/-- The two deeds of a dispatch that names an operation, as a connection
reads them: the first may be its dealing, the second its answer. -/
theorem readings_dispatch {i : Inbound} (h : t.requests = s.requests ++ [i])
    (hnames : i.request.body.NamesOp = true) {d : Deed} (hd : t.recovery? c d = none) (m : Message)
    (carries : Option (OpId × Bytes)) :
    [d, .replied s.requests.length i.connId m carries true].filterMap (t.dealing? c) =
        (t.dealing? c d).toList ∧
      [d, .replied s.requests.length i.connId m carries true].filterMap (t.recovery? c) =
        if i.connId = c then [(m, carries)] else [] := by
  have hreply : t.recovery? c (.replied s.requests.length i.connId m carries true) =
      if i.connId = c then some (m, carries) else none := by
    simp only [FrontendState.recovery?, namesOp_length h, hnames, and_true]
  have hquiet : t.dealing? c (.replied s.requests.length i.connId m carries true) = none := rfl
  constructor
  · rw [List.filterMap_cons, List.filterMap_cons, hquiet]
    cases t.dealing? c d <;> rfl
  · rw [List.filterMap_cons, List.filterMap_cons, hd, hreply]
    by_cases hc : i.connId = c
    · rw [if_pos hc, if_pos hc]
      rfl
    · rw [if_neg hc, if_neg hc]
      rfl

/-- **A turn is what it adds to a client's history.** -/
theorem RecoveryTurn.solo (hk : Known s) (hl : Lives A s) (hg : Grows s t deeds)
    (hturn : RecoveryTurn s t deeds) :
    t.solo c = (s.solo c).replay (deeds.filterMap (t.dealing? c)) := by
  unfold FrontendState.solo
  rw [recoveries_grows hl hg]
  cases hturn with
  | idle hrequests hresults hdeeds =>
    have hdealings : deeds.filterMap (t.dealing? c) = [] :=
      List.filterMap_eq_nil_iff.2 fun d hd => dealing?_idle (hdeeds d hd)
    have hrecoveries : deeds.filterMap (t.recovery? c) = [] :=
      List.filterMap_eq_nil_iff.2 fun d hd => recovery?_idle (hdeeds d hd)
    rw [hdealings, hrecoveries, List.append_nil, documentsOf_congr hresults]
    rfl
  | @cancelled i op hi hbody hrequests hresults hdeeds =>
    obtain ⟨hdealings, hrecoveries⟩ := readings_dispatch (c := c) hrequests (by rw [hbody]; rfl)
      (d := .cancel s.requests.length op (s.opOwners op = some i.caller)) rfl (.ack i.request.req)
      none
    rw [hdeeds, hdealings, hrecoveries, documentsOf_congr hresults]
    simp only [FrontendState.dealing?, requestOf_length hrequests]
    by_cases hc : i.connId = c
    · rw [if_pos hc, if_pos hc]
      rfl
    · rw [if_neg hc, if_neg hc, List.append_nil]
      rfl
  | @fetched i op fits m carries hi hbody hrequests hresults hanswer hdeeds =>
    -- the answer was made of the asker's documents, which are the reader's own or not its concern
    obtain ⟨hdealings, hrecoveries⟩ := readings_dispatch (c := c) hrequests (by rw [hbody]; rfl)
      (d := .fetched s.requests.length op fits) rfl m carries
    rw [hdeeds, hdealings, hrecoveries, documentsOf_congr hresults]
    simp only [FrontendState.dealing?, requestOf_length hrequests]
    by_cases hc : i.connId = c
    · rw [if_pos hc, if_pos hc, ← hanswer, hc]
      rfl
    · rw [if_neg hc, if_neg hc, List.append_nil]
      rfl
  | @stashed op owner artifact hknown hrequests hresults hdeeds =>
    subst hdeeds
    rw [documentsOf_update hresults]
    by_cases howner : owner = callerToken c
    · subst howner
      simp [FrontendState.dealing?, FrontendState.recovery?, Solo.replay, Solo.next,
        Option.filter_some]
    · -- another client's operation has no document of this one's
      have hnone : s.documentsOf c op = none := by
        obtain ⟨x, hx, hxowner, -⟩ := hknown
        refine documentsOf_eq_none hk fun y hy hconn => howner ?_
        obtain rfl := Option.some.inj (hx.symm.trans hy)
        rw [← hxowner, hk.owner hx, hconn]
      simp [FrontendState.dealing?, FrontendState.recovery?, howner, Solo.replay, hnone,
        Option.filter_some]
  | @expired op hrequests hops hresults hdeeds =>
    subst hdeeds
    rw [documentsOf_update hresults]
    by_cases hmine : ∃ x, s.ops op = some x ∧ x.connId = c
    · obtain ⟨x, hx, hconn⟩ := hmine
      simp [FrontendState.dealing?, FrontendState.recovery?, hops, hx, hconn, Solo.replay, Solo.next]
    · -- the timer of another's document
      have hnone : s.documentsOf c op = none :=
        documentsOf_eq_none hk fun x hx hconn => hmine ⟨x, hx, hconn⟩
      have hnot : (s.ops op).filter (fun x => x.connId = c) = none := by
        rw [Option.filter_eq_none_iff]
        intro x hx
        simpa using fun hconn => hmine ⟨x, hx, hconn⟩
      simp [FrontendState.dealing?, FrontendState.recovery?, hops, hnot, Solo.replay, hnone]
  | @evicted caller hrequests hresults hdeeds =>
    subst hdeeds
    rw [documentsOf_evicted hresults]
    by_cases hcaller : caller = callerToken c
    · simp [FrontendState.dealing?, FrontendState.recovery?, hcaller, Solo.replay, Solo.next]
    · simp [FrontendState.dealing?, FrontendState.recovery?, hcaller, Solo.replay]

end Replayed

/-! ## Where a document goes, and who cancels -/

/-- What started an operation stays what it was. -/
theorem Grows.starter? {deeds : List Deed} (hg : Grows s t deeds) {op : OpId} {i : Inbound}
    (h : s.starter? op = some i) : t.starter? op = some i := by
  obtain ⟨x, hx, hi⟩ := Option.bind_eq_some_iff.1 h
  obtain ⟨y, hy, hn, -⟩ := hg.ops op x hx
  refine Option.bind_eq_some_iff.2 ⟨y, hy, ?_⟩
  rw [hn, hg.getElem? (List.getElem?_eq_some_iff.1 hi).1, hi]

/-- A deed that cancels an operation is one for the connection that was told
before that the operation started. -/
def FrontendState.CancelsOwn (s : FrontendState V) (before : List Deed) (d : Deed) : Prop :=
  ∀ n op, d = .cancel n op true → ∃ i j, s.requests[n]? = some i ∧ s.starter? op = some j ∧
    j.connId = i.connId ∧ (i.connId, .opStarted j.request.req op) ∈ saidIn before

/-- **How operations are private.** -/
structure Private (s : FrontendState V) : Prop where
  answered : Answered s
  solo : ∀ c, s.solo c = Solo.fresh.replay (s.dealings c)
  kept : ∀ op record, s.signResults op = some record →
    .stashed op record.owner record.artifact ∈ s.log
  carried : ∀ n connId m op bytes sent, .replied n connId m (some (op, bytes)) sent ∈ s.log →
    s.SignedFor op bytes connId
  cancelled : Accounted s.CancelsOwn s.log

/-- What a recovery hands out is a document that is kept. -/
theorem recover_carries {p : Solo} {req : ℕ} {op op' : OpId} {fits : Bytes → Bool} {m : Message}
    {bytes : Bytes} (h : p.recover req op fits = (m, some (op', bytes))) :
    op' = op ∧ ∃ artifact, p.documents op = some artifact ∧ artifact.bytes = bytes := by
  unfold Solo.recover at h
  cases hdocument : p.documents op with
  | none =>
    rw [hdocument] at h
    cases h
  | some artifact =>
    rw [hdocument] at h
    dsimp only at h
    split at h
    · cases h
      exact ⟨rfl, artifact, rfl, rfl⟩
    · cases h

/-- Who started an operation, as its launch was given it. -/
theorem starter_of_ops (hk : Known s) {op : OpId} {x : Operation} (hx : s.ops op = some x) :
    ∃ i, s.starter? op = some i ∧ x.Of i := by
  obtain ⟨i, hi, hof⟩ := hk.ops op x hx
  exact ⟨i, Option.bind_eq_some_iff.2 ⟨x, hx, hi⟩, hof⟩

namespace Private

variable {deeds : List Deed}

theorem signedFor_grows (hg : Grows s t deeds) {op : OpId} {bytes : Bytes} {c : ConnId}
    (h : s.SignedFor op bytes c) : t.SignedFor op bytes c := by
  obtain ⟨i, msg, info, hi, hconn, hbody, hstashed⟩ := h
  refine ⟨i, msg, info, hg.starter? hi, hconn, hbody, ?_⟩
  rw [hg.log]
  exact List.mem_append_left _ hstashed

/-- A document that is kept for a connection is one it signed. -/
theorem signedFor_of_document (h : Private s) (hk : Known s) {op : OpId} {c : ConnId}
    {artifact : SignedArtifact} (hdocument : s.documentsOf c op = some artifact) :
    s.SignedFor op artifact.bytes c := by
  obtain ⟨record, hfilter, rfl⟩ := Option.map_eq_some_iff.1 hdocument
  obtain ⟨hrecord, howner⟩ := Option.filter_eq_some_iff.1 hfilter
  have howner : record.owner = callerToken c := by simpa using howner
  obtain ⟨x, hx, hxowner, hsign⟩ := hk.signResults op record hrecord
  obtain ⟨i, hi, hof⟩ := starter_of_ops hk hx
  obtain ⟨msg, hbody⟩ := hof.sign hsign
  have hconn : x.connId = c := by
    refine callerToken_injective ?_
    rw [← hk.owner hx, hxowner, howner]
  refine ⟨i, msg, record.artifact.info, hi, hof.connId.symm.trans hconn, hbody, ?_⟩
  rw [← howner]
  exact h.kept op record hrecord

/-- An owner was told that its operation started. -/
theorem told_of_owner (hk : Known s) (htells : Tells s) {op : OpId} {c : ConnId}
    (howner : s.opOwners op = some (callerToken c)) :
    ∃ j, s.starter? op = some j ∧ j.connId = c ∧
      (c, .opStarted j.request.req op) ∈ saidIn s.log := by
  obtain ⟨x, hx, hxowner⟩ := hk.opOwners op _ howner
  have hconn : x.connId = c := by
    refine callerToken_injective ?_
    rw [← hk.owner hx, hxowner]
  obtain ⟨j, hj, hof⟩ := starter_of_ops hk hx
  refine ⟨j, hj, hof.connId.symm.trans hconn, ?_⟩
  cases htells.telling op with
  | unborn hnone =>
    rw [hx] at hnone
    cases hnone
  | @born x' i sent rest hx' hunder =>
    obtain rfl := Option.some.inj (hx.symm.trans hx')
    have hsame : s.starter? op = some i := Option.bind_eq_some_iff.2 ⟨x, hx, hunder.request⟩
    obtain rfl := Option.some.inj (hj.symm.trans hsame)
    have hmem : (x.connId, .opStarted j.request.req op) ∈ opSaid op s.log := by
      rw [hunder.said]
      exact List.mem_cons_self
    rw [hconn] at hmem
    exact (List.mem_filter.1 hmem).1

theorem kept_turn (h : Private s) (hg : Grows s t deeds) (hturn : RecoveryTurn s t deeds) :
    ∀ op record, t.signResults op = some record →
      .stashed op record.owner record.artifact ∈ t.log := by
  intro op record hrecord
  rw [hg.log]
  have hold : s.signResults op = some record →
      .stashed op record.owner record.artifact ∈ s.log ++ deeds :=
    fun hs => List.mem_append_left _ (h.kept op record hs)
  cases hturn with
  | idle hrequests hresults hdeeds => exact hold (hresults ▸ hrecord)
  | cancelled hi hbody hrequests hresults hdeeds => exact hold (hresults ▸ hrecord)
  | fetched hi hbody hrequests hresults hanswer hdeeds => exact hold (hresults ▸ hrecord)
  | stashed hknown hrequests hresults hdeeds =>
    rw [hresults] at hrecord
    rcases Known.of_update hrecord with ⟨rfl, rfl⟩ | hs
    · rw [hdeeds]
      exact List.mem_append_right _ List.mem_cons_self
    · exact hold hs
  | expired hrequests hops hresults hdeeds =>
    rw [hresults] at hrecord
    exact hold (Known.of_erase hrecord)
  | evicted hrequests hresults hdeeds =>
    rw [hresults] at hrecord
    exact hold (Option.filter_eq_some_iff.1 hrecord).1

theorem carried_turn (h : Private s) (hk : Known s) (hg : Grows s t deeds)
    (hturn : RecoveryTurn s t deeds) :
    ∀ n connId m op bytes sent, .replied n connId m (some (op, bytes)) sent ∈ t.log →
      t.SignedFor op bytes connId := by
  intro n connId m op bytes sent hd
  rw [hg.log] at hd
  refine signedFor_grows hg ?_
  rcases List.mem_append.1 hd with hold | hnew
  · exact h.carried n connId m op bytes sent hold
  · cases hturn with
    | idle hrequests hresults hdeeds => exact absurd (hdeeds _ hnew).1 (by simp)
    | cancelled hi hbody hrequests hresults hdeeds => simp [hdeeds] at hnew
    | @fetched i op' fits m' carries hi hbody hrequests hresults hanswer hdeeds =>
      simp only [hdeeds, List.mem_cons, reduceCtorEq, Deed.replied.injEq, List.not_mem_nil,
        or_false, false_or] at hnew
      obtain ⟨-, rfl, rfl, rfl, -⟩ := hnew
      obtain ⟨rfl, artifact, hdocument, rfl⟩ := recover_carries hanswer
      exact h.signedFor_of_document hk hdocument
    | stashed hknown hrequests hresults hdeeds => simp [hdeeds] at hnew
    | expired hrequests hops hresults hdeeds => simp [hdeeds] at hnew
    | evicted hrequests hresults hdeeds => simp [hdeeds] at hnew

theorem cancelled_turn (h : Private s) (hk : Known s) (htells : Tells s) (hg : Grows s t deeds)
    (hturn : RecoveryTurn s t deeds) : Accounted t.CancelsOwn t.log := by
  have hold : Accounted t.CancelsOwn s.log := by
    refine h.cancelled.mono fun before d hown n op hd => ?_
    obtain ⟨i, j, hi, hj, hconn, hsaid⟩ := hown n op hd
    refine ⟨i, j, ?_, hg.starter? hj, hconn, hsaid⟩
    rw [hg.getElem? (List.getElem?_eq_some_iff.1 hi).1, hi]
  -- a deed that is no cancel
  have hother : ∀ {d : Deed}, (∀ n op called, d ≠ .cancel n op called) →
      ∀ before, t.CancelsOwn before d := fun hne before n op hd => absurd hd (hne n op true)
  rw [hg.log]
  cases hturn with
  | idle hrequests hresults hdeeds =>
    refine hold.append fun before d hd => hother ?_ before
    rintro n op called rfl
    exact hdeeds _ hd
  | @cancelled i op hi hbody hrequests hresults hdeeds =>
    have hcancel : t.CancelsOwn s.log
        (.cancel s.requests.length op (s.opOwners op = some i.caller)) := by
      intro n op' hd
      simp only [Deed.cancel.injEq, decide_eq_true_eq] at hd
      obtain ⟨rfl, rfl, howner⟩ := hd
      rw [hi.caller] at howner
      obtain ⟨j, hj, hconn, hsaid⟩ := told_of_owner hk htells howner
      refine ⟨i, j, ?_, hg.starter? hj, hconn, hsaid⟩
      rw [hrequests, List.getElem?_concat_length]
    -- the cancel, and the acknowledgement behind it
    rw [hdeeds, ← List.singleton_append, ← List.append_assoc]
    exact (hold.snoc hcancel).snoc (hother (by simp) _)
  | fetched hi hbody hrequests hresults hanswer hdeeds =>
    refine hold.append fun before d hd => hother ?_ before
    rintro n op called rfl
    simp [hdeeds] at hd
  | stashed hknown hrequests hresults hdeeds =>
    rw [hdeeds]
    exact hold.snoc (hother (by simp) _)
  | expired hrequests hops hresults hdeeds =>
    rw [hdeeds]
    exact hold.snoc (hother (by simp) _)
  | evicted hrequests hresults hdeeds =>
    rw [hdeeds]
    exact hold.snoc (hother (by simp) _)

/-- **A turn keeps operations private.** -/
theorem turn (h : Private s) (hk : Known s) (htells : Tells s) (hl : Lives A s)
    (hg : Grows s t deeds) (hturn : RecoveryTurn s t deeds) : Private t where
  answered := h.answered.turn hg hturn
  solo c := by
    rw [hturn.solo hk hl hg, h.solo c, dealings_grows hk hl hg]
    exact (List.foldl_append ..).symm
  kept := h.kept_turn hg hturn
  carried := h.carried_turn hk hg hturn
  cancelled := h.cancelled_turn hk htells hg hturn

end Private

/-- A move of the transport is a turn that does nothing. -/
theorem Shifted.idle (hm : Shifted A s t) : Grows s t [] ∧ RecoveryTurn s t [] := by
  refine ⟨.of_ops hm.ops (by rw [hm.log, List.append_nil]) (by rw [hm.requests]),
    .idle (fun n hn => ?_) hm.signResults (by simp)⟩
  rwa [namesOp_congr hm.requests] at hn

theorem closed_private : Closed A fun s =>
    (((Known s ∧ Tells s) ∧ Pruned s) ∧ Lives A s) ∧ Private s := by
  refine (closed_tells.and closed_lives).along (fun store => ?_) ?_ ?_
  · refine ⟨fun n hn => ?_, fun c => rfl, ?_, ?_, .nil⟩
    · simp [FrontendState.namesOp, FrontendState.start] at hn
    · simp [FrontendState.start]
    · simp [FrontendState.start]
  · rintro s t - - hm ⟨⟨⟨hk, htells⟩, -⟩, hl⟩ h
    exact h.turn hk htells hl hm.idle.1 hm.idle.2
  · rintro s input t - hturn ⟨⟨⟨hk, htells⟩, -⟩, hl⟩ h
    obtain ⟨deeds, hg, hrecovery⟩ := hturn.recovery hk hl h.answered
    exact h.turn hk htells hl hg hrecovery

/-- **Seen from one connection, the frontend has one client**: what it keeps
for it and what it answered is made of the client's own dealings. -/
theorem reachable_solo (h : (frontend A).Reachable s) (c : ConnId) :
    s.solo c = Solo.fresh.replay (s.dealings c) :=
  (closed_private.reachable h).2.solo c

/-- All messages of an operation go to the connection that started it. -/
theorem said_starter (hk : Known s) (htells : Tells s) {op : OpId} {i : Inbound} {m : Message}
    {c : ConnId} (hi : s.starter? op = some i) (hop : m.op? = some op)
    (hsaid : (c, m) ∈ saidIn s.log) : c = i.connId := by
  have hmem : (c, m) ∈ opSaid op s.log := List.mem_filter.2 ⟨hsaid, by simpa using hop⟩
  cases htells.telling op with
  | unborn hnone hempty =>
    rw [hempty] at hmem
    cases hmem
  | @born x j sent rest hx hunder =>
    rw [hunder.said] at hmem
    obtain ⟨m', -, heq⟩ := List.mem_map.1 hmem
    obtain ⟨i', hi', hof⟩ := starter_of_ops hk hx
    obtain rfl := Option.some.inj (hi.symm.trans hi')
    rw [← hof.connId]
    exact (Prod.mk.inj heq).1.symm

/-- **Operations are private to their connection**: in two runs in which a
client deals alike it is answered alike; a document goes to the connection
whose signature it is; and an operation is cancelled for no connection but
the one that was told before that it started. -/
theorem operations_private (A : Agent V Trust) :
    (∀ s t : FrontendState V, (frontend A).Reachable s → (frontend A).Reachable t →
      ∀ c, s.dealings c = t.dealings c → s.recoveries c = t.recoveries c) ∧
    ∀ s : FrontendState V, (frontend A).Reachable s →
      (∀ n connId m op bytes sent, .replied n connId m (some (op, bytes)) sent ∈ s.log →
        s.SignedFor op bytes connId) ∧
      (∀ op connId m carries sent, .delivered op connId m carries sent ∈ s.log →
        ∃ i, s.starter? op = some i ∧ i.connId = connId) ∧
      ∀ before n op after, s.log = before ++ .cancel n op true :: after →
        ∃ i j, s.requests[n]? = some i ∧ s.starter? op = some j ∧ j.connId = i.connId ∧
          (i.connId, .opStarted j.request.req op) ∈ saidIn before ∧
          ∀ c req, (c, .opStarted req op) ∈ saidIn s.log → c = i.connId := by
  refine ⟨fun s t hs ht c hdealings => ?_, fun s hs => ?_⟩
  · have hsame : s.solo c = t.solo c := by
      rw [reachable_solo hs c, reachable_solo ht c, hdealings]
    exact congrArg Solo.answers hsame
  · obtain ⟨⟨⟨⟨hk, htells⟩, -⟩, hl⟩, hprivate⟩ := closed_private.reachable hs
    refine ⟨hprivate.carried, fun op connId m carries sent hd => ?_, ?_⟩
    · obtain ⟨x, hx, rfl, -⟩ := hk.log _ hd
      obtain ⟨i, hi, hof⟩ := starter_of_ops hk hx
      exact ⟨i, hi, hof.connId.symm⟩
    · intro before n op after hlog
      obtain ⟨i, j, hi, hj, hconn, hsaid⟩ := hprivate.cancelled before _ after hlog n op rfl
      refine ⟨i, j, hi, hj, hconn, hsaid, fun c req hmem => ?_⟩
      rw [← hconn]
      exact said_starter hk htells hj rfl hmem

/-- What a client does about two operations, of which it started the
first. -/
def recoversTwo : List FrontendInput :=
  sendsRequest 1 [1, 9, 5] [] quietOutside ++ sendsRequest 1 [1, 10, 6] [] quietOutside ++
    sendsRequest 1 [0, 11, 6] [] quietOutside ++ sendsRequest 1 [0, 12, 5] [] quietOutside

/-- The other one is of a second client, whose document is kept first. -/
def signsBeside : List FrontendInput :=
  [connects, connects, insertsCard] ++ sendsRequest 1 [3, 7] [4] (plainOutside 5 []) ++
    sendsRequest 2 [3, 8] [4] (plainOutside 6 []) ++
    [.emit 6 (.result (.artifact [2]) ⟨"pades", "b-b", false, true⟩) fun _ => some 9,
      .emit 5 (.result (.artifact [1]) ⟨"pades", "b-b", false, true⟩) fun _ => some 9,
      .run quietOutside, .run quietOutside, .run quietOutside, .run quietOutside] ++ recoversTwo

/-- Or there is none. -/
def signsAlone : List FrontendInput :=
  [connects, insertsCard] ++ sendsRequest 1 [3, 7] [4] (plainOutside 5 []) ++
    [.emit 5 (.result (.artifact [1]) ⟨"pades", "b-b", false, true⟩) fun _ => some 9,
      .run quietOutside, .run quietOutside] ++ recoversTwo

/-- The client's dealings, in the one run as in the other. -/
def dealsTwo : List Dealing :=
  [.stashed 5 ⟨[1], ⟨"pades", "b-b", false, true⟩⟩, .getSignResult 9 5 quietOutside.fits,
    .getSignResult 10 6 quietOutside.fits, .cancelOp 11 6, .cancelOp 12 5]

theorem operations_private_beside :
    ∃ s t, (frontend plainAgent).run (.start 0) signsBeside = some s ∧
      (frontend plainAgent).run (.start 0) signsAlone = some t ∧ (s.starter? 6).isSome ∧
      t.starter? 6 = none ∧ s.recoveries 1 = t.recoveries 1 ∧
      t.recoveries 1 =
        [(.signRecovery 9 0 ⟨"pades", "b-b", false, true⟩, some (5, [1])),
          (syncErrorReply 10 .noResult, none), (.ack 11, none), (.ack 12, none)] ∧
      s.SignedFor 5 [1] 1 ∧ (∃ i, s.starter? 6 = some i ∧ i.connId = 2) ∧
      ∃ i j, s.requests[5]? = some i ∧ s.starter? 5 = some j ∧ j.connId = i.connId := by
  obtain ⟨htwo, hone⟩ := operations_private plainAgent
  have hsame : ∀ s t, (frontend plainAgent).run (.start 0) signsBeside = some s →
      (frontend plainAgent).run (.start 0) signsAlone = some t →
      s.dealings 1 = dealsTwo → t.dealings 1 = dealsTwo → s.recoveries 1 = t.recoveries 1 :=
    fun s t hs ht hs₁ ht₁ => htwo s t ⟨_, _, ⟨0, rfl⟩, hs⟩ ⟨_, _, ⟨0, rfl⟩, ht⟩ 1 (hs₁.trans ht₁.symm)
  have hown : ∀ s info, (frontend plainAgent).run (.start 0) signsBeside = some s →
      s.log[17]? = some (.replied 2 1 (.signRecovery 9 0 info) (some (5, [1])) true) →
      s.log[13]? = some (.delivered 6 2 (.opResultReady 6 (.sign 0)) [[2]] true) →
      s.log[22]? = some (.cancel 5 5 true) →
      s.SignedFor 5 [1] 1 ∧ (∃ i, s.starter? 6 = some i ∧ i.connId = 2) ∧
        ∃ i j, s.requests[5]? = some i ∧ s.starter? 5 = some j ∧ j.connId = i.connId := by
    intro s info hrun hreplied hdelivered hcancelled
    obtain ⟨hcarried, hevents, hcancels⟩ := hone s ⟨_, _, ⟨0, rfl⟩, hrun⟩
    obtain ⟨before, after, hlog⟩ := List.append_of_mem (List.mem_of_getElem? hcancelled)
    obtain ⟨i, j, hi, hj, hconn, -⟩ := hcancels before 5 5 after hlog
    exact ⟨hcarried _ _ _ _ _ _ (List.mem_of_getElem? hreplied),
      hevents _ _ _ _ _ (List.mem_of_getElem? hdelivered), i, j, hi, hj, hconn⟩
  exact ⟨_, _, rfl, rfl, rfl, rfl, hsame _ _ rfl rfl rfl rfl, rfl, hown _ _ rfl rfl rfl rfl⟩

end Frontend

end LibreDarwin
