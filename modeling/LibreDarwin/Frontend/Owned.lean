import LibreDarwin.Frontend.Waiting

/-!
# What the frontend holds of its clients

Everything the frontend holds for an operation names an operation that was
launched, and what it names of its client is what the launch was given: the
owner map, the recovery store, the blocks its worker posted, the timers.
And a client whose eviction is posted, or done, is gone for good. `Known`
says so of a whole state; it is kept because what a launch fixed of an
operation never changes (`Extends`), and because each thing a turn adds is
made from one that was there before.
-/

namespace LibreDarwin

namespace Frontend

open Wire Transport OperationChannel Script

variable {V Trust : Type*} {A : Agent V Trust} {o : Outside} {s t : FrontendState V}

/-- The client of a connection that is gone. -/
def FrontendState.Gone (s : FrontendState V) (caller : CallerToken) : Prop :=
  ∃ c, caller = callerToken c ∧ c < s.transport.nextConnId ∧ c ∉ s.transport.connections

/-- A block that names a client or an operation names one there is. -/
def Block.Known (s : FrontendState V) : Block → Prop
  | .event op connId m _ _ =>
    ∃ x, s.ops op = some x ∧ x.connId = connId ∧ m.op? = some op ∧ m.req? = none
  | .stash op owner _ => ∃ x, s.ops op = some x ∧ x.owner = owner ∧ x.onSignArtifact = true
  | .prune op => ∃ x, s.ops op = some x ∧ x.finished = true
  | .evictSignResult op => ∃ x, s.ops op = some x
  | .evictClient caller => s.Gone caller
  | _ => True

/-- And so does a deed. -/
def Deed.Known (s : FrontendState V) : Deed → Prop
  | .launched n op _ _ => ∃ x, s.ops op = some x ∧ x.n = n
  | .emitted op m => (∃ x, s.ops op = some x) ∧ m.op? = some op
  | .delivered op connId m _ _ =>
    ∃ x, s.ops op = some x ∧ x.connId = connId ∧ m.op? = some op ∧ m.req? = none
  | .stashed op owner _ => ∃ x, s.ops op = some x ∧ x.owner = owner ∧ x.onSignArtifact = true
  | .pruned op => ∃ x, s.ops op = some x ∧ x.finished = true
  | .evictedSignResult op => ∃ x, s.ops op = some x
  | .evictedClient caller => s.Gone caller
  | _ => True

/-- A launched operation, and the request that launched it. -/
structure Operation.Of (x : Operation) (i : Inbound) : Prop where
  connId : x.connId = i.connId
  owner : x.owner = i.caller
  sign : x.onSignArtifact = true → ∃ msg, i.request.body = .sign msg

/-- **What the frontend holds, it knows.** -/
structure Known (s : FrontendState V) : Prop where
  requests : ∀ i ∈ s.requests, i.caller = callerToken i.connId ∧ i.connId < s.transport.nextConnId
  ops : ∀ op x, s.ops op = some x → ∃ i, s.requests[x.n]? = some i ∧ x.Of i
  opOwners : ∀ op caller, s.opOwners op = some caller → ∃ x, s.ops op = some x ∧ x.owner = caller
  signResults : ∀ op record, s.signResults op = some record →
    ∃ x, s.ops op = some x ∧ x.owner = record.owner ∧ x.onSignArtifact = true
  posted : ∀ block ∈ s.posted, block.Known s
  delayed : ∀ op ∈ s.delayed, ∃ x, s.ops op = some x
  log : ∀ d ∈ s.log, d.Known s

/-- What was launched stays what it was, a worker that finished stays so,
and whoever is gone stays gone. -/
structure Extends (s t : FrontendState V) : Prop where
  ops : ∀ op x, s.ops op = some x → ∃ y, t.ops op = some y ∧ y.n = x.n ∧ y.connId = x.connId ∧
    y.owner = x.owner ∧ y.onSignArtifact = x.onSignArtifact ∧ (x.finished = true → y.finished = true)
  gone : ∀ caller, s.Gone caller → t.Gone caller

theorem Shifted.extends (h : Shifted A s t) : Extends s t := by
  refine ⟨fun op x hx => ⟨x, by rw [h.ops, hx], rfl, rfl, rfl, rfl, id⟩, ?_⟩
  rintro caller ⟨c, rfl, hused, hgone⟩
  obtain ⟨hused', hgone'⟩ := h.gone hused hgone
  exact ⟨c, rfl, hused', hgone'⟩

theorem Block.Known.extends (h : Extends s t) {block : Block} (hb : block.Known s) :
    block.Known t := by
  cases block with
  | event op connId m fds carries =>
    obtain ⟨x, hx, hconn, hm⟩ := hb
    obtain ⟨y, hy, -, hyconn, -⟩ := h.ops op x hx
    exact ⟨y, hy, hyconn.trans hconn, hm⟩
  | stash op owner artifact =>
    obtain ⟨x, hx, howner, hsign⟩ := hb
    obtain ⟨y, hy, -, -, hyowner, hysign, -⟩ := h.ops op x hx
    exact ⟨y, hy, hyowner.trans howner, hysign.trans hsign⟩
  | prune op =>
    obtain ⟨x, hx, hfinished⟩ := hb
    obtain ⟨y, hy, -, -, -, -, hyfinished⟩ := h.ops op x hx
    exact ⟨y, hy, hyfinished hfinished⟩
  | evictSignResult op =>
    obtain ⟨x, hx⟩ := hb
    obtain ⟨y, hy, -⟩ := h.ops op x hx
    exact ⟨y, hy⟩
  | evictClient caller => exact h.gone caller hb
  | answered ask verdict => trivial
  | reply n connId m => trivial

theorem Deed.Known.extends (h : Extends s t) {d : Deed} (hd : d.Known s) : d.Known t := by
  cases d with
  | launched n op target spec =>
    obtain ⟨x, hx, hn⟩ := hd
    obtain ⟨y, hy, hyn, -⟩ := h.ops op x hx
    exact ⟨y, hy, hyn.trans hn⟩
  | emitted op m =>
    obtain ⟨⟨x, hx⟩, hm⟩ := hd
    obtain ⟨y, hy, -⟩ := h.ops op x hx
    exact ⟨⟨y, hy⟩, hm⟩
  | delivered op connId m carries sent =>
    have hb : (Block.event op connId m [] carries).Known s := hd
    exact hb.extends h
  | stashed op owner artifact =>
    have hb : (Block.stash op owner artifact).Known s := hd
    exact hb.extends h
  | pruned op =>
    have hb : (Block.prune op).Known s := hd
    exact hb.extends h
  | evictedSignResult op =>
    have hb : (Block.evictSignResult op).Known s := hd
    exact hb.extends h
  | evictedClient caller => exact h.gone caller hd
  | _ => trivial

namespace Known

/-- What is known is known also when operations went on, a new one was
launched, or clients left. -/
theorem carry (h : Known s) (hext : Extends s t)
    (hnext : s.transport.nextConnId ≤ t.transport.nextConnId)
    (hops : ∀ op x, t.ops op = some x → (∃ y, s.ops op = some y) ∨
      ∃ i, s.requests[x.n]? = some i ∧ x.Of i)
    (hrequests : t.requests = s.requests) (howners : t.opOwners = s.opOwners)
    (hresults : t.signResults = s.signResults) (hdelayed : t.delayed = s.delayed)
    (hlog : t.log = s.log) (hposted : ∀ block ∈ t.posted, block ∈ s.posted ∨ block.Known t) :
    Known t where
  requests i hi := by
    rw [hrequests] at hi
    obtain ⟨hcaller, hused⟩ := h.requests i hi
    exact ⟨hcaller, Nat.lt_of_lt_of_le hused hnext⟩
  ops op x hx := by
    rw [hrequests]
    rcases hops op x hx with ⟨y, hy⟩ | hnew
    · obtain ⟨i, hi, hconn, howner, hsign⟩ := h.ops op y hy
      obtain ⟨y', hy', hn, hconn', howner', hsign', -⟩ := hext.ops op y hy
      obtain rfl := Option.some.inj (hx.symm.trans hy')
      exact ⟨i, hn ▸ hi, hconn'.trans hconn, howner'.trans howner, fun hs => hsign (hsign' ▸ hs)⟩
    · exact hnew
  opOwners op caller hc := by
    rw [howners] at hc
    obtain ⟨x, hx, howner⟩ := h.opOwners op caller hc
    obtain ⟨y, hy, -, -, hyowner, -⟩ := hext.ops op x hx
    exact ⟨y, hy, hyowner.trans howner⟩
  signResults op record hr := by
    rw [hresults] at hr
    obtain ⟨x, hx, howner, hsign⟩ := h.signResults op record hr
    obtain ⟨y, hy, -, -, hyowner, hysign, -⟩ := hext.ops op x hx
    exact ⟨y, hy, hyowner.trans howner, hysign.trans hsign⟩
  posted block hb := by
    rcases hposted block hb with hold | hnew
    · exact (h.posted block hold).extends hext
    · exact hnew
  delayed op hop := by
    rw [hdelayed] at hop
    obtain ⟨x, hx⟩ := h.delayed op hop
    obtain ⟨y, hy, -⟩ := hext.ops op x hx
    exact ⟨y, hy⟩
  log d hd := by
    rw [hlog] at hd
    exact (h.log d hd).extends hext

theorem moved (h : Known s) (ht : (transport A.wire).Reachable t.transport) (hm : Shifted A s t) :
    Known t := by
  refine h.carry hm.extends hm.nextConnId_le (fun op x hx => .inl ⟨x, by rw [← hm.ops, hx]⟩) hm.requests
    hm.opOwners hm.signResults hm.delayed hm.log fun block hb => ?_
  obtain ⟨gone, hposted, hgone⟩ := hm.posted
  rw [hposted, List.mem_append, List.mem_map] at hb
  rcases hb with hold | ⟨caller, hcaller, rfl⟩
  · exact .inl hold
  · obtain ⟨c, hc⟩ := hgone caller hcaller
    exact .inr ⟨c, gone_of_heard ht hc⟩

/-- Writing down what is known. -/
theorem did (h : Known s) {deeds : List Deed} (hdeeds : ∀ d ∈ deeds, d.Known s) :
    Known (s.did deeds) :=
  { h with
    log := fun d hd => (List.mem_append.1 hd).elim (h.log d) (hdeeds d) }

theorem post (h : Known s) {blocks : List Block} (hblocks : ∀ block ∈ blocks, block.Known s) :
    Known { s with posted := s.posted ++ blocks } :=
  { h with
    posted := fun block hb => (List.mem_append.1 hb).elim (h.posted block) (hblocks block) }

/-- The block at the head of the queue. -/
theorem pop (h : Known s) {block : Block} {rest : List Block} (hposted : s.posted = block :: rest) :
    block.Known s ∧ Known { s with posted := rest } :=
  ⟨h.posted block (by rw [hposted]; exact List.mem_cons_self),
    { h with
      posted := fun b hb => h.posted b (by rw [hposted]; exact List.mem_cons_of_mem _ hb) }⟩

/-- A request that came, and what its handler's script wrote down. -/
theorem handled (h : Known s) (hs : (transport A.wire).Reachable s.transport) {i : Inbound}
    (hi : Arrives s i) : Known (s.handled A o i) := by
  have hscript : ∀ d ∈ (handle A o s s.requests.length i).log, d.Known s := by
    intro d hd
    obtain ⟨φ, hrun, -⟩ :=
      handle_refuses (A := A) (o := o) (s := s) (n := s.requests.length) (i := i)
    have hnumber := number_of_run hrun hd
    have hquiet := not_acts_handle hd
    cases d with
    | launched n op target spec => exact absurd trivial hquiet
    | _ => trivial
  have hindex : ∀ {n : ℕ} {j : Inbound}, s.requests[n]? = some j → (s.requests ++ [i])[n]? = some j := by
    intro n j hj
    rw [List.getElem?_append_left (List.getElem?_eq_some_iff.1 hj).1]
    exact hj
  have hcame : Known { s with requests := s.requests ++ [i] } :=
    { h with
      requests := fun j hj => by
        rcases List.mem_append.1 hj with hold | hnew
        · exact h.requests j hold
        · rw [List.mem_singleton.1 hnew]
          exact ⟨hi.caller, used_of_mem (reachable_orderly hs) hi.sends.2⟩
      ops := fun op x hx => by
        obtain ⟨j, hj, hof⟩ := h.ops op x hx
        exact ⟨j, hindex hj, hof⟩ }
  exact hcame.did hscript

end Known

/-! ## What a worker's emissions are about -/

/-- A block an operation's worker may post. -/
def Block.From (op : OpId) (x : Operation) : Block → Prop
  | .event op' connId m _ _ =>
    op' = op ∧ connId = x.connId ∧ m.op? = some op ∧ m.req? = none
  | .stash op' owner _ => op' = op ∧ owner = x.owner ∧ x.onSignArtifact = true
  | .prune op' => op' = op ∧ x.finished = true
  | _ => False

/-- The operation after an emission. -/
structure Operation.Next (x y : Operation) : Prop where
  n : y.n = x.n
  connId : y.connId = x.connId
  owner : y.owner = x.owner
  onSignArtifact : y.onSignArtifact = x.onSignArtifact
  finished : x.finished = true → y.finished = true

theorem Operation.Next.refl (x : Operation) : x.Next x := ⟨rfl, rfl, rfl, rfl, id⟩

theorem Operation.Next.trans {x y z : Operation} (h : x.Next y) (h' : y.Next z) : x.Next z :=
  ⟨h'.n.trans h.n, h'.connId.trans h.connId, h'.owner.trans h.owner,
    h'.onSignArtifact.trans h.onSignArtifact, fun hx => h'.finished (h.finished hx)⟩

theorem Block.From.next {op : OpId} {x y : Operation} (h : x.Next y) {block : Block}
    (hb : block.From op x) : block.From op y := by
  cases block with
  | event op' connId m fds carries => exact ⟨hb.1, hb.2.1.trans h.connId.symm, hb.2.2⟩
  | stash op' owner artifact =>
    exact ⟨hb.1, hb.2.1.trans h.owner.symm, h.onSignArtifact.trans hb.2.2⟩
  | prune op' => exact ⟨hb.1, h.finished hb.2⟩
  | _ => exact hb.elim

theorem emitResult_names {anonFdFromBytes : Bytes → Option Fd} {op : OpId} {payload : ResultPayload}
    {m : Message} {fds : List Fd} (h : emitResult anonFdFromBytes op payload = some (m, fds)) :
    m.op? = some op ∧ m.req? = none := by
  cases payload with
  | cardRead identity => cases h; exact ⟨rfl, rfl⟩
  | certs certs => cases h; exact ⟨rfl, rfl⟩
  | credentials body => cases h; exact ⟨rfl, rfl⟩
  | photos photos =>
    obtain ⟨out, -, heq⟩ := Option.map_eq_some_iff.1 h
    cases heq
    exact ⟨rfl, rfl⟩
  | artifact bytes =>
    obtain ⟨fd, -, heq⟩ := Option.map_eq_some_iff.1 h
    cases heq
    exact ⟨rfl, rfl⟩
  | batch rows =>
    obtain ⟨out, -, heq⟩ := Option.map_eq_some_iff.1 h
    cases heq
    exact ⟨rfl, rfl⟩

/-- **What an emission posts** is of its operation. -/
theorem from_emission {anonFdFromBytes : Bytes → Option Fd} {op : OpId} {x : Operation}
    {e : Emission} {block : Block} (h : block ∈ emissionBlocks anonFdFromBytes op x e) :
    block.From op { x with finished := e.IsFinished } := by
  cases e with
  | progress phase =>
    obtain rfl := List.mem_singleton.1 h
    exact ⟨rfl, rfl, rfl, rfl⟩
  | group groupKey fields =>
    obtain rfl := List.mem_singleton.1 h
    exact ⟨rfl, rfl, rfl, rfl⟩
  | result payload info =>
    simp only [emissionBlocks] at h
    cases hres : emitResult anonFdFromBytes op payload with
    | none => rw [hres] at h; cases h
    | some out =>
      obtain ⟨m, fds⟩ := out
      rw [hres] at h
      rcases List.mem_append.1 h with hstash | hevent
      · unfold stashBlock at hstash
        split at hstash
        · split at hstash
          next hsign =>
            obtain rfl := List.mem_singleton.1 hstash
            exact ⟨rfl, rfl, hsign⟩
          · cases hstash
        · cases hstash
      · obtain rfl := List.mem_singleton.1 hevent
        exact ⟨rfl, rfl, emitResult_names hres⟩
  | finished status code msgKey msgFallback =>
    rcases List.mem_cons.1 h with rfl | hprune
    · exact ⟨rfl, rfl, rfl, rfl⟩
    · obtain rfl := List.mem_singleton.1 hprune
      exact ⟨rfl, rfl⟩

/-- **Emissions in a row** go on with the operation, and are of it. -/
theorem from_emitAll (anonFdFromBytes : Bytes → Option Fd) (op : OpId) (es : List Emission)
    (x : Operation) :
    x.Next (emitAll anonFdFromBytes op x es).2 ∧
      ∀ block ∈ (emitAll anonFdFromBytes op x es).1,
        block.From op (emitAll anonFdFromBytes op x es).2 := by
  induction es generalizing x with
  | nil => exact ⟨.refl x, by simp [emitAll]⟩
  | cons e es ih =>
    unfold emitAll
    split
    next hfinished => exact ⟨.refl x, by simp⟩
    next hfinished =>
      obtain ⟨hnext, hblocks⟩ := ih { x with finished := e.IsFinished }
      have hstep : x.Next { x with finished := e.IsFinished } :=
        ⟨rfl, rfl, rfl, rfl, fun hx => absurd hx hfinished⟩
      refine ⟨hstep.trans hnext, fun block hb => ?_⟩
      rcases List.mem_append.1 hb with hnew | hrest
      · exact (from_emission hnew).next hnext
      · exact hblocks block hrest

namespace Known

theorem block_of_from {op : OpId} {x : Operation} (hx : s.ops op = some x) {block : Block}
    (hb : block.From op x) : block.Known s := by
  cases block with
  | event op' connId m fds carries =>
    obtain ⟨rfl, rfl, hm⟩ := hb
    exact ⟨x, hx, rfl, hm⟩
  | stash op' owner artifact =>
    obtain ⟨rfl, rfl, hsign⟩ := hb
    exact ⟨x, hx, rfl, hsign⟩
  | prune op' =>
    obtain ⟨rfl, hfinished⟩ := hb
    exact ⟨x, hx, hfinished⟩
  | _ => exact hb.elim

/-- What an operation's worker emits. -/
theorem emitted (h : Known s) {op : OpId} {x y : Operation} {blocks : List Block}
    (hx : s.ops op = some x) (hnext : x.Next y) (hblocks : ∀ block ∈ blocks, block.From op y) :
    Known (s.emitted op (blocks, y)) := by
  have hops : Function.update s.ops op (some y) op = some y := Function.update_self ..
  have hext : Extends s { s with ops := Function.update s.ops op (some y) } := by
    refine ⟨fun op' x' hx' => ?_, fun caller hgone => hgone⟩
    by_cases hop : op' = op
    · subst hop
      obtain rfl := Option.some.inj (hx.symm.trans hx')
      exact ⟨y, hops, hnext.n, hnext.connId, hnext.owner, hnext.onSignArtifact, hnext.finished⟩
    · exact ⟨x', by rw [← hx']; exact Function.update_of_ne hop .., rfl, rfl, rfl, rfl, id⟩
  have hcarry : Known { s with ops := Function.update s.ops op (some y) } := by
    refine h.carry hext (Nat.le_refl _) (fun op' x' hx' => .inl ?_) rfl rfl rfl rfl rfl
      fun block hb => .inl hb
    by_cases hop : op' = op
    · subst hop
      exact ⟨x, hx⟩
    · refine ⟨x', ?_⟩
      rw [← hx']
      exact (Function.update_of_ne hop ..).symm
  refine (hcarry.post fun block hb => block_of_from hops (hblocks block hb)).did fun d hd => ?_
  simp only [emittedDeeds, List.mem_filterMap] at hd
  obtain ⟨block, hb, heq⟩ := hd
  cases block <;> simp at heq
  subst heq
  obtain ⟨rfl, rfl, hm, -⟩ := hblocks _ hb
  exact ⟨⟨y, hops⟩, hm⟩

theorem of_update {α : Type*} {f : OpId → Option α} {op op' : OpId} {a b : α}
    (h : Function.update f op (some a) op' = some b) : op' = op ∧ b = a ∨ f op' = some b := by
  by_cases hop : op' = op
  · subst hop
    rw [Function.update_self] at h
    exact .inl ⟨rfl, (Option.some.inj h).symm⟩
  · rw [Function.update_of_ne hop] at h
    exact .inr h

theorem of_erase {α : Type*} {f : OpId → Option α} {op op' : OpId} {b : α}
    (h : Function.update f op none op' = some b) : f op' = some b := by
  by_cases hop : op' = op
  · subst hop
    rw [Function.update_self] at h
    cases h
  · rwa [Function.update_of_ne hop] at h

/-- A launch: the operation is new, and is what the request makes it. -/
theorem launched (h : Known s) {op : OpId} {x : Operation} {i : Inbound}
    (hfresh : s.ops op = none) (hi : s.requests[x.n]? = some i) (hx : x.Of i) :
    Known { s with ops := Function.update s.ops op (some x) } := by
  have hext : Extends s { s with ops := Function.update s.ops op (some x) } := by
    refine ⟨fun op' x' hx' => ⟨x', ?_, rfl, rfl, rfl, rfl, id⟩, fun caller hgone => hgone⟩
    have hop : op' ≠ op := by
      rintro rfl
      rw [hfresh] at hx'
      cases hx'
    exact (Function.update_of_ne hop ..).trans hx'
  refine h.carry hext (Nat.le_refl _) (fun op' x' hx' => ?_) rfl rfl rfl rfl rfl
    fun block hb => .inl hb
  rcases of_update hx' with ⟨-, rfl⟩ | hold
  · exact .inr ⟨i, hi, hx⟩
  · exact .inl ⟨x', hold⟩

/-- Entering an owner. -/
theorem own (h : Known s) (op : OpId) {x : Operation} (hx : s.ops op = some x) :
    Known { s with opOwners := Function.update s.opOwners op (some x.owner) } :=
  { h with
    opOwners := fun op' caller hc => by
      rcases of_update hc with ⟨rfl, rfl⟩ | hold
      · exact ⟨x, hx, rfl⟩
      · exact h.opOwners op' caller hold }

/-- A signed artifact kept for its client. -/
theorem keep (h : Known s) {op : OpId} {owner : CallerToken} {artifact : SignedArtifact}
    (hknown : (Block.stash op owner artifact).Known s) :
    Known (s.stashSignArtifact op owner artifact) := by
  have hx : ∃ x, s.ops op = some x := hknown.imp fun x hx => hx.1
  refine did ?_ (List.forall_mem_singleton.2 hknown)
  exact { h with
    signResults := fun op' record hr => by
      rcases of_update hr with ⟨rfl, rfl⟩ | hold
      · exact hknown
      · exact h.signResults op' record hold
    delayed := fun op' hop => by
      rcases List.mem_append.1 hop with hold | hnew
      · exact h.delayed op' hold
      · rw [List.mem_singleton.1 hnew]
        exact hx }

/-- **A turn keeps what is known.** -/
theorem turn (h : Known s) (hs : (transport A.wire).Reachable s.transport) {input : FrontendInput}
    (hturn : FrontendTurn A s input t) : Known t := by
  cases hturn with
  | idle => exact h
  | replied hi hsaying => exact (h.handled hs hi).did (by simp [Deed.Known])
  | @changed event o i hi x hok =>
    have hhandled := h.handled (o := o) hs hi
    refine did ?_ (by simp [Deed.Known])
    exact { hhandled with }
  | @launched event o i hi target spec onSignArtifact hok op early hlaunched hfresh =>
    set x : Operation := ⟨s.requests.length, i.connId, i.caller, onSignArtifact, false⟩
    obtain ⟨φ, -, -, hsign⟩ := permitted_of_ok hok
    have hnew : (s.requests ++ [i])[s.requests.length]? = some i := by simp
    have hlaunch := (h.handled (o := o) hs hi).launched (x := x) hfresh hnew
      ⟨rfl, rfl, hsign⟩
    have hops : Function.update s.ops op (some x) op = some x := Function.update_self ..
    obtain ⟨hnext, hblocks⟩ := from_emitAll o.anonFdFromBytes op early x
    set out := emitAll o.anonFdFromBytes op x early
    have hwritten : Known (FrontendState.did _ [.launched s.requests.length op target spec]) :=
      hlaunch.did (List.forall_mem_singleton.2 ⟨x, hops, rfl⟩)
    have hemitted := hwritten.emitted hops hnext hblocks
    have hentered := hemitted.own op (Function.update_self ..)
    have howner : out.2.owner = i.caller := hnext.owner
    refine did ?_ (by simp [Deed.Known])
    simpa [FrontendState.emitted, FrontendState.did, FrontendState.handled, howner] using hentered
  | @asked event o i hi x hok copy hcopy hfree =>
    have hhandled := h.handled (o := o) hs hi
    refine did ?_ (by simp [Deed.Known])
    exact { hhandled with }
  | @brokered event o i hi reader verb hok =>
    have hhandled := h.handled (o := o) hs hi
    refine did ?_ (by simp [Deed.Known])
    exact { hhandled with }
  | @answer idx verdict ask hask =>
    have hpost : Known { s with
        posted := s.posted ++ if s.alive then [Block.answered ask verdict] else [] } := by
      refine h.post fun block hb => ?_
      split at hb
      · obtain rfl := List.mem_singleton.1 hb
        trivial
      · cases hb
    refine did ?_ (by simp [Deed.Known])
    exact { hpost with }
  | @emit op x hx e anonFdFromBytes =>
    obtain ⟨hnext, hblocks⟩ := from_emitAll anonFdFromBytes op [e] x
    exact h.emitted hx hnext hblocks
  | @broker idx result call hcall =>
    have hpost : Known { s with posted := s.posted ++
        [.reply call.n call.connId (FrontendState.brokerReply call.req result)] } :=
      h.post (by simp [Block.Known])
    exact { hpost with }
  | @due idx op hop =>
    have hpost : Known { s with posted := s.posted ++ [.evictSignResult op] } := by
      refine h.post fun block hb => ?_
      obtain rfl := List.mem_singleton.1 hb
      exact h.delayed op (List.mem_of_getElem? hop)
    exact { hpost with
      delayed := fun op' hop' => h.delayed op' (List.mem_of_mem_eraseIdx hop') }
  | dropped hposted hwhy => exact (h.pop hposted).2
  | reply hposted hcan => exact (h.pop hposted).2.did (by simp [Deed.Known])
  | event hposted hcan =>
    obtain ⟨hknown, hpop⟩ := h.pop hposted
    exact hpop.did (List.forall_mem_singleton.2 hknown)
  | confirmed hposted hcan halive =>
    have hpop := (h.pop hposted).2
    refine did ?_ (by simp [Deed.Known])
    exact { hpop with }
  | declined hposted hcan halive hverdict =>
    have hpop := (h.pop hposted).2
    refine did ?_ (by simp [Deed.Known])
    exact { hpop with }
  | stashed hposted hcan halive =>
    obtain ⟨hknown, hpop⟩ := h.pop hposted
    exact hpop.keep hknown
  | pruned hposted hcan halive =>
    obtain ⟨hknown, hpop⟩ := h.pop hposted
    refine did ?_ (List.forall_mem_singleton.2 hknown)
    exact { hpop with opOwners := fun op' caller hc => h.opOwners op' caller (of_erase hc) }
  | expired hposted hcan halive =>
    obtain ⟨hknown, hpop⟩ := h.pop hposted
    refine did ?_ (List.forall_mem_singleton.2 hknown)
    exact { hpop with signResults := fun op' record hr => h.signResults op' record (of_erase hr) }
  | evicted hposted hcan halive =>
    obtain ⟨hknown, hpop⟩ := h.pop hposted
    refine did ?_ (List.forall_mem_singleton.2 hknown)
    exact { hpop with
      opOwners := fun op' caller hc => h.opOwners op' caller (Option.filter_eq_some_iff.1 hc).1
      signResults := fun op' record hr =>
        h.signResults op' record (Option.filter_eq_some_iff.1 hr).1 }
  | destroy => exact { h with }

end Known

/-- **The frontend knows all it holds.** -/
theorem closed_known : Closed A Known where
  start store := ⟨by simp [FrontendState.start], by simp [FrontendState.start],
    by simp [FrontendState.start], by simp [FrontendState.start], by simp [FrontendState.start],
    by simp [FrontendState.start], by simp [FrontendState.start]⟩
  moved _ _ _ ht hm h := h.moved ht hm
  turn _ _ _ hs hturn h := h.turn hs hturn

end Frontend

end LibreDarwin
