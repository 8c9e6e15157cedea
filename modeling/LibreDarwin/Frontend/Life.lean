import LibreDarwin.Frontend.Model.Life

/-!
# The handlers follow the life of a request

Each handler's script follows the life of its request from its entry, and
ends where its last act may be done (`handle_follows`). The gates and the
reads have a rule each, the loop of a batch carries the documents read so
far, and a handler's own rule is these put together in the order of its
text.
-/

namespace LibreDarwin

namespace Frontend

open Wire Transport Script

variable {V Trust : Type*} {C : AgentCore V Trust} {o : Outside} {s : FrontendState V}
variable {n : ℕ} {i : Inbound}

/-- Where an error may still be the reply of the dispatch. -/
def Phase.Refuses : Phase → Prop
  | .entered | .authorized _ | .allowed _ _ | .refused => True
  | _ => False

/-- Where a handler's last act may be done. An artifact sink is given to the
operations of `Sign` alone. -/
def Ending.Permitted (C : AgentCore V Trust) (i : Inbound) (φ : Phase) : Ending → Prop
  | .reply m _ _ | .sendThenClose m | .hello _ m =>
    φ = .entered ∧ m.req? = some i.request.req ∧ m.op? = none
  | .launch _ spec onSignArtifact =>
    φ.Launches C i spec ∧ (onSignArtifact = true → ∃ msg, i.request.body = .sign msg)
  | .confirm x => φ = .allowed .configureTrust [] ∧ i.change? = some x
  | .apply x =>
    φ = .authorized .configure ∧ i.change? = some x ∧ C.mutability x.key = some .dbusMutable
  | .broker _ _ => φ = .entered

/-- A part of a handler, from a phase. -/
def Serves {α : Type} (C : AgentCore V Trust) (n : ℕ) (i : Inbound) (φ : Phase)
    (x : Script Deed SyncError α) (Q : Phase → α → Prop) : Prop :=
  Follows (life C i n) φ x Q fun φ' _ => φ'.Refuses

/-- A handler whole. -/
def Handles (C : AgentCore V Trust) (n : ℕ) (i : Inbound) (x : Handling) : Prop :=
  Serves C n i .entered x (Ending.Permitted C i)

/-- A deed of the life of request `n` is its own, and one its phase
takes. -/
theorem life_step {φ φ' : Phase} {d : Deed} :
    (life C i n).step φ d = some φ' ↔ d.number? = some n ∧ φ.next C i d = some φ' := by
  simp [life]

theorem next_replied {φ φ' : Phase} {m : Nat} {connId : ConnId} {reply : Message}
    {carries : Option (OpId × Bytes)} {sent : Bool} :
    φ.next C i (.replied m connId reply carries sent) = some φ' ↔
      φ.Replies i reply ∧ connId = i.connId ∧ reply.req? = some i.request.req ∧ φ' = .over := by
  simp [Phase.next, eq_comm, and_assoc]

section Rules

variable {α β : Type} {φ : Phase} {Q : Phase → β → Prop}

theorem Serves.pure {b : β} (h : Q φ b) : Serves C n i φ (pure b : Script Deed SyncError β) Q :=
  Follows.pure h

theorem Serves.refuse {code : SyncError} (h : φ.Refuses) :
    Serves C n i φ (refuse code : Script Deed SyncError β) Q := Follows.refuse h

/-- A check that writes nothing down. -/
theorem serves_refuseIf {bad : Bool} {code : SyncError} {f : Unit → Script Deed SyncError β}
    (h : φ.Refuses) (hf : bad = false → Serves C n i φ (f ()) Q) :
    Serves C n i φ (refuseIf bad code >>= f) Q := by
  refine Follows.bind (P := fun φ' _ => φ' = φ ∧ bad = false)
    (Follows.refuseIf (fun hok => ⟨rfl, hok⟩) h) ?_
  rintro _ _ ⟨rfl, hok⟩
  exact hf hok

theorem serves_ofExcept {result : Except SyncError α} {f : α → Script Deed SyncError β}
    (h : φ.Refuses) (hf : ∀ a, result = .ok a → Serves C n i φ (f a) Q) :
    Serves C n i φ (ofExcept result >>= f) Q := by
  refine Follows.bind (P := fun φ' a => φ' = φ ∧ result = .ok a)
    (Follows.ofExcept (fun _ heq => ⟨rfl, heq⟩) fun _ _ => h) ?_
  rintro _ a ⟨rfl, ha⟩
  exact hf a ha

theorem serves_ofOption {value : Option α} {code : SyncError} {f : α → Script Deed SyncError β}
    (h : φ.Refuses) (hf : ∀ a, value = some a → Serves C n i φ (f a) Q) :
    Serves C n i φ (ofOption value code >>= f) Q := by
  refine Follows.bind (P := fun φ' a => φ' = φ ∧ value = some a)
    (Follows.ofOption (fun _ heq => ⟨rfl, heq⟩) h) ?_
  rintro _ a ⟨rfl, ha⟩
  exact hf a ha

/-- A deed the life of the request takes. -/
theorem serves_tell {d : Deed} (φ' : Phase) {f : Unit → Script Deed SyncError β}
    (hstep : (life C i n).step φ d = some φ') (hf : Serves C n i φ' (f ()) Q) :
    Serves C n i φ (tell d >>= f) Q := by
  refine Follows.bind (P := fun φ'' _ => φ'' = φ') (Follows.tell hstep rfl) ?_
  rintro _ _ rfl
  exact hf

theorem serves_card {handle : Handle} {bit : ℕ} {f : CardRouting → Script Deed SyncError β}
    (h : φ.Refuses) (hf : ∀ routing, Serves C n i φ (f routing) Q) :
    Serves C n i φ (card s handle bit >>= f) Q := by
  have hcard : Follows (life C i n) φ (card s handle bit) (fun φ' _ => φ' = φ)
      fun φ' _ => φ'.Refuses :=
    serves_ofOption h fun routing _ => serves_refuseIf h fun _ => .pure rfl
  refine Follows.bind hcard ?_
  rintro _ routing rfl
  exact hf routing

/-- **The authorizer** opens the way to the limiter, or to a refusal. -/
theorem serves_authorize {action : AuthAction} {f : Unit → Script Deed SyncError β}
    (h : action = (i.request.body.gate C).getD .configure)
    (hf : Serves C n i (.authorized action) (f ()) Q) :
    Serves C n i .entered (authorize o n i action >>= f) Q := by
  have hstep : (life C i n).step .entered (.authorized n action (o.authorize action i.caller)) =
      some (if o.authorize action i.caller = .granted then .authorized action else .refused) := by
    simp [life, Phase.next, Deed.number?, h]
  have hasked : Follows (life C i n) .entered (authorize o n i action)
      (fun φ' _ => φ' = .authorized action) fun φ' _ => φ'.Refuses := by
    refine serves_tell _ hstep ?_
    cases houtcome : o.authorize action i.caller with
    | granted => exact .pure rfl
    | denied => exact .refuse trivial
    | undecided => exact .refuse trivial
  refine Follows.bind hasked ?_
  rintro _ _ rfl
  exact hf

/-- **The limiter** is asked after the authorizer granted the gate's
action. -/
theorem serves_limit {action : AuthAction} {f : Unit → Script Deed SyncError β}
    (h : i.request.body.gate C = some action)
    (hf : Serves C n i (.allowed action []) (f ()) Q) :
    Serves C n i (.authorized action) (limit o n i >>= f) Q := by
  have hstep : (life C i n).step (.authorized action) (.allowed n (o.allow i.caller)) =
      some (if o.allow i.caller then .allowed action [] else .refused) := by
    simp [life, Phase.next, Deed.number?, h]
  have hasked : Follows (life C i n) (.authorized action) (limit o n i)
      (fun φ' _ => φ' = .allowed action []) fun φ' _ => φ'.Refuses := by
    refine serves_tell _ hstep ?_
    cases hok : o.allow i.caller with
    | true => exact Follows.pure rfl
    | false => exact Follows.refuse trivial
  refine Follows.bind hasked ?_
  rintro _ _ rfl
  exact hf

/-- **A read**: a document that will do is one more, any other ends the
request. -/
theorem serves_readDocument {action : AuthAction} {reads : List (Fd × Bytes)} {cap index : ℕ}
    {f : Bytes → Script Deed SyncError β}
    (hf : ∀ fd bytes, i.fds[index]? = some fd →
      Serves C n i (.allowed action (reads ++ [(fd, bytes)])) (f bytes) Q) :
    Serves C n i (.allowed action reads) (readDocument o n i cap index >>= f) Q := by
  have hread : Follows (life C i n) (.allowed action reads) (readDocument o n i cap index)
      (fun φ' bytes => ∃ fd, i.fds[index]? = some fd ∧
        φ' = .allowed action (reads ++ [(fd, bytes)])) fun φ' _ => φ'.Refuses := by
    refine serves_ofOption trivial fun fd hfd => ?_
    cases hdoc : documentOf (o.readBoundedRegularFd fd cap) with
    | ok bytes =>
      refine serves_tell (.allowed action (reads ++ [(fd, bytes)])) ?_ ?_
      · simp [life, Phase.next, Deed.number?, hdoc]
      · rw [hdoc]
        exact .pure ⟨fd, hfd, rfl⟩
    | error code =>
      refine serves_tell .refused ?_ ?_
      · simp [life, Phase.next, Deed.number?, hdoc]
      · rw [hdoc]
        exact .refuse trivial
  refine Follows.bind hread ?_
  rintro _ bytes ⟨fd, hfd, rfl⟩
  exact hf fd bytes hfd

/-- The documents of a batch read so far: the descriptors its entries name,
and what was in them. -/
def BatchRead (i : Inbound) (φ : Phase) (entries : List BatchEntry)
    (inputs : List BatchDocumentInput) : Prop :=
  ∃ reads, φ = .allowed .sign reads ∧
    (reads.map fun r => some r.1) = entries.map (fun entry => i.fds[entry.fdIndex]?) ∧
    reads.map Prod.snd = inputs.map BatchDocumentInput.bytes

/-- **The loop of a batch.** -/
theorem serves_readEntries {A : Agent V Trust} {entries : List BatchEntry}
    {f : List BatchDocumentInput → Script Deed SyncError β}
    (hf : ∀ φ' inputs, BatchRead i φ' entries inputs → Serves C n i φ' (f inputs) Q) :
    Serves C n i (.allowed .sign []) (forEach (readEntry A o n i) entries >>= f) Q := by
  have hstart : BatchRead i (.allowed .sign []) [] [] := ⟨[], rfl, rfl, rfl⟩
  have hloop := Follows.forEach (M := life C i n) (I := BatchRead i)
    (R := fun φ' _ => φ'.Refuses) (f := readEntry A o n i) ?_ entries hstart
  · exact Follows.bind hloop fun φ' inputs h => hf φ' inputs (by simpa using h)
  · rintro _ done inputs entry ⟨reads, rfl, hfds, hbytes⟩
    refine serves_readDocument fun fd bytes hfd => ?_
    exact .pure ⟨_, rfl, by simp [hfds, hfd], by simp [hbytes]⟩

end Rules

section Handlers

variable {A : Agent V Trust}

/-- The shape of the reads and the listing: nothing but the card is asked. -/
theorem handles_read {handle : Handle} {bit : ℕ} {spec : LaunchSpec}
    (h : i.request.body.gate C = none) : Handles C n i (handleRead o s i handle bit spec) :=
  serves_card trivial fun _ => .pure ⟨h, by simp⟩

/-- A handler that replies, whatever it was asked. -/
theorem handles_plain {m : Message} {fds : List Fd} {carries : Option (OpId × Bytes)}
    (h : m.req? = some i.request.req) (hop : m.op? = none) :
    Handles C n i (pure (.reply m fds carries)) :=
  .pure ⟨rfl, h, hop⟩

theorem handles_broker {reader : Handle} {verb : BrokerVerb} :
    Handles C n i (pure (.broker reader verb)) := .pure rfl

theorem handles_hello {msg : Hello} : Handles C n i (handleHello A i msg) := by
  unfold handleHello
  split
  · exact .pure ⟨rfl, rfl, rfl⟩
  · exact .pure ⟨rfl, rfl, rfl⟩

theorem handles_layoutVisual {msg : LayoutVisual} :
    Handles C n i (handleLayoutVisual A i msg) :=
  serves_refuseIf trivial fun _ => handles_plain rfl rfl

theorem handles_getAppearanceFont : Handles C n i (handleGetAppearanceFont A o i) :=
  serves_ofOption trivial fun _ _ => handles_plain rfl rfl

theorem handles_sign {msg : Sign} (h : i.request.body = .sign msg) :
    Handles C n i (handleSign A o s n i msg) := by
  have hgate : i.request.body.gate C = some .sign := by rw [h]; rfl
  refine serves_card trivial fun routing => serves_refuseIf trivial fun _ => ?_
  refine serves_authorize (by rw [hgate]; rfl) (serves_limit hgate ?_)
  refine serves_readDocument fun fd doc hfd => serves_ofExcept trivial fun resolved _ => ?_
  refine .pure ⟨⟨hgate, ?_, rfl⟩, fun _ => ⟨msg, h⟩⟩
  simp [Inbound.documents, h, hfd]

theorem handles_signBatch {msg : SignBatch} (h : i.request.body = .signBatch msg) :
    Handles C n i (handleSignBatch A o s n i msg) := by
  have hgate : i.request.body.gate C = some .sign := by rw [h]; rfl
  refine serves_card trivial fun routing => serves_refuseIf trivial fun _ => ?_
  refine serves_authorize (by rw [hgate]; rfl) (serves_limit hgate ?_)
  refine serves_refuseIf trivial fun _ => serves_readEntries ?_
  rintro _ inputs ⟨reads, rfl, hfds, hbytes⟩
  refine serves_ofExcept trivial fun resolved _ => .pure ⟨⟨hgate, ?_, hbytes⟩, by simp⟩
  rw [hfds, Inbound.documents, h]

theorem handles_managePin {msg : ManagePin} (h : i.request.body = .managePin msg) :
    Handles C n i (handleManagePin A o s n i msg) := by
  have hgate : i.request.body.gate C = some .credentialsManage := by rw [h]; rfl
  refine serves_card trivial fun routing => ?_
  refine serves_authorize (by rw [hgate]; rfl) (serves_limit hgate ?_)
  refine serves_refuseIf trivial fun _ => ?_
  dsimp only
  split
  · exact .refuse trivial
  · exact .pure ⟨⟨hgate, by rw [Inbound.documents, h]; rfl, rfl⟩, by simp⟩

theorem handles_activateSigningKey {handle : Handle}
    (h : i.request.body = .activateSigningKey handle) :
    Handles C n i (handleActivateSigningKey A o s n i handle) := by
  have hgate : i.request.body.gate C = some .credentialsManage := by rw [h]; rfl
  refine serves_card trivial fun routing => ?_
  refine serves_authorize (by rw [hgate]; rfl) (serves_limit hgate ?_)
  exact .pure ⟨⟨hgate, by rw [Inbound.documents, h]; rfl, rfl⟩, by simp⟩

theorem handles_cancel {op : OpId} : Handles C n i (handleCancel s n i op) := by
  refine serves_tell .entered ?_ (handles_plain rfl rfl)
  simp [life, Phase.next, Deed.number?]

theorem handles_getSignResult {op : OpId} : Handles C n i (handleGetSignResult o s n i op) := by
  refine serves_tell .entered ?_ ?_
  · simp [life, Phase.next, Deed.number?]
  · exact serves_ofOption trivial fun _ _ => serves_ofOption trivial fun _ _ => handles_plain rfl rfl

/-- A change of a key: the trust tier goes to a person, any other tier that
may be written is written. -/
theorem handles_change {x : Apply} (hx : i.change? = some x)
    (hgate : i.request.body.gate A.core = trustGate A.core x.key) :
    Handles A.core n i (handleChange A o n i x) := by
  refine serves_ofOption trivial fun tier htier => serves_refuseIf trivial fun hwritable => ?_
  split
  next htrust =>
    have hconfirmed : i.request.body.gate A.core = some .configureTrust := by
      rw [hgate, trustGate, htier, htrust, if_pos rfl]
    refine serves_authorize (by rw [hconfirmed]; rfl) (serves_limit hconfirmed ?_)
    exact .pure ⟨rfl, hx⟩
  next htrust =>
    have hdirect : i.request.body.gate A.core = none := by
      rw [hgate, trustGate, htier, if_neg (by simpa using htrust)]
    refine serves_authorize (by rw [hdirect]; rfl) (.pure ⟨rfl, hx, ?_⟩)
    rw [htier]
    cases tier <;> first | rfl | simp at hwritable htrust

theorem handles_importCscaMasterList {msg : ImportCscaMasterList}
    (h : i.request.body = .importCscaMasterList msg) :
    Handles C n i (handleImportCscaMasterList o n i msg) := by
  have hgate : i.request.body.gate C = some .configureTrust := by rw [h]; rfl
  refine serves_authorize (by rw [hgate]; rfl) (serves_limit hgate ?_)
  refine serves_ofOption trivial fun held hheld => .pure ⟨rfl, ?_⟩
  simp [Inbound.change?, h, hheld]

/-- The verbs that name a mechanism. -/
theorem handles_mechanism {reader : Handle} {mechanism : Option ℕ} {verb : ℕ → BrokerVerb} :
    Handles C n i (do
      let mechanism ← ofOption mechanism .invalidRequest
      pure (.broker reader (verb mechanism))) :=
  serves_ofOption trivial fun _ _ => handles_broker

/-- **Every handler follows the life of its request**, and ends where its
last act may be done. -/
theorem handle_follows : Handles A.core n i (handle A o s n i) := by
  unfold handle
  split
  next => exact handles_hello
  next => exact handles_plain rfl rfl
  next h => exact handles_read (by rw [h]; rfl)
  next h => exact handles_read (by rw [h]; rfl)
  next h => exact handles_read (by rw [h]; rfl)
  next h => exact handles_read (by rw [h]; rfl)
  next h => exact handles_sign h
  next h => exact handles_signBatch h
  next h => exact handles_read (by rw [h]; rfl)
  next h => exact handles_managePin h
  next h => exact handles_activateSigningKey h
  next => exact handles_broker
  next => exact handles_plain rfl rfl
  next h => exact handles_change (by simp [Inbound.change?, h]) (by rw [h]; rfl)
  next h => exact handles_change (by simp [Inbound.change?, h]) (by rw [h]; rfl)
  next => exact handles_cancel
  next => exact handles_getSignResult
  next => exact handles_broker
  next => exact handles_plain rfl rfl
  next => exact handles_plain rfl rfl
  next => exact handles_broker
  next => exact handles_mechanism
  next => exact handles_mechanism
  next => exact handles_broker
  next => exact handles_layoutVisual
  next => exact handles_getAppearanceFont
  next h => exact handles_importCscaMasterList h

/-- A launch may be refused, and then the error is the reply. -/
theorem refuses_of_launches {φ : Phase} {spec : LaunchSpec}
    (h : φ.Launches C i spec) : φ.Refuses := by
  cases φ with
  | entered => trivial
  | allowed action reads => trivial
  | _ => exact h.elim

/-- Where the last act may be done, an error may still be the reply. -/
theorem refuses_of_permitted {φ : Phase} {ending : Ending} (h : ending.Permitted C i φ) :
    φ.Refuses := by
  cases ending with
  | reply m fds carries =>
    obtain ⟨rfl, -⟩ := h
    trivial
  | sendThenClose m =>
    obtain ⟨rfl, -⟩ := h
    trivial
  | hello wantsEvents m =>
    obtain ⟨rfl, -⟩ := h
    trivial
  | launch target spec onSignArtifact => exact refuses_of_launches h.1
  | confirm x =>
    obtain ⟨rfl, -⟩ := h
    trivial
  | apply x =>
    obtain ⟨rfl, -⟩ := h
    trivial
  | broker reader verb =>
    obtain rfl := h
    trivial

/-- So a handler's script does no last act, however it ends. -/
theorem handle_refuses : ∃ φ, (life A.core i n).run .entered (handle A o s n i).log = some φ ∧
    φ.Refuses := by
  obtain ⟨φ, hrun, hres⟩ := handle_follows (A := A) (o := o) (s := s) (n := n) (i := i)
  refine ⟨φ, hrun, ?_⟩
  cases hresult : (handle A o s n i).result with
  | error code =>
    rw [hresult] at hres
    exact hres
  | ok ending =>
    rw [hresult] at hres
    exact refuses_of_permitted hres

end Handlers

end Frontend

end LibreDarwin
