import LibreDarwin.Common.Ledger
import LibreDarwin.Frontend.Phases
import LibreDarwin.Frontend.Turn

/-!
# What a request waits for

A request that was not answered by its dispatch waits: for a person, for
the broker, or for a block that is posted. What it waits for holds its life
at the phase it has come to (`Waiting.At`), and captured the request's own
connection and number. So the frontend's log keeps the lives of all its
requests (`reachable_lives`), whatever the order of answers and blocks.
-/

namespace LibreDarwin

namespace Frontend

open Wire Transport OperationChannel Script

variable {V Trust : Type*} {A : Agent V Trust} {o : Outside} {s t : FrontendState V}

/-- **What a request waits for.** -/
inductive Waiting
  | asked (ask : Ask)
  | brokered (call : BrokerCall)
  | answered (ask : Ask) (verdict : PromptReplyStatus)
  | reply (n : ℕ) (connId : ConnId) (m : Message)

/-- The request that waits. -/
def Waiting.n : Waiting → ℕ
  | .asked ask | .answered ask _ => ask.n
  | .brokered call => call.n
  | .reply n _ _ => n

/-- A block that a request waits for. -/
def Block.waiting? : Block → Option Waiting
  | .answered ask verdict => some (.answered ask verdict)
  | .reply n connId m => some (.reply n connId m)
  | _ => none

/-- The blocks that requests wait for. -/
def waitingBlocks (blocks : List Block) : List Waiting := blocks.filterMap Block.waiting?

@[simp] theorem waitingBlocks_append (a b : List Block) :
    waitingBlocks (a ++ b) = waitingBlocks a ++ waitingBlocks b := List.filterMap_append

/-- Who is asked, what the broker was called for, and what is posted. -/
def waitingOf (asks : List Ask) (calls : List BrokerCall) (blocks : List Block) : List Waiting :=
  asks.map Waiting.asked ++ calls.map Waiting.brokered ++ waitingBlocks blocks

def FrontendState.waiting (s : FrontendState V) : List Waiting :=
  waitingOf s.asks s.brokerCalls s.posted

section WaitingOf

variable (asks : List Ask) (calls : List BrokerCall) (blocks : List Block)

theorem waitingOf_ask {asks asks' : List Ask} {ask : Ask} (h : asks.Perm (ask :: asks')) :
    (waitingOf asks calls blocks).Perm (.asked ask :: waitingOf asks' calls blocks) := by
  have hmap := h.map Waiting.asked
  rw [List.map_cons] at hmap
  exact (hmap.append_right _).append_right _

theorem waitingOf_call {calls calls' : List BrokerCall} {call : BrokerCall} (h : calls.Perm (call :: calls')) :
    (waitingOf asks calls blocks).Perm (.brokered call :: waitingOf asks calls' blocks) := by
  have hmap := h.map Waiting.brokered
  rw [List.map_cons] at hmap
  have hcalls : (asks.map Waiting.asked ++ calls.map Waiting.brokered).Perm
      (.brokered call :: (asks.map Waiting.asked ++ calls'.map Waiting.brokered)) :=
    (hmap.append_left _).trans List.perm_middle
  exact hcalls.append_right _

/-- The block at the head of the queue. -/
theorem waitingOf_cons (block : Block) :
    (waitingOf asks calls (block :: blocks)).Perm
      (block.waiting?.toList ++ waitingOf asks calls blocks) := by
  unfold waitingOf waitingBlocks
  rw [List.filterMap_cons]
  cases block.waiting? with
  | none => exact .refl _
  | some x => exact List.perm_middle

theorem waitingOf_append (posted : List Block) :
    (waitingOf asks calls (blocks ++ posted)).Perm
      (waitingBlocks posted ++ waitingOf asks calls blocks) := by
  unfold waitingOf
  rw [waitingBlocks_append, ← List.append_assoc]
  exact List.perm_append_comm

/-- Blocks that no request waits for. -/
theorem waitingOf_quiet {posted : List Block} (h : waitingBlocks posted = []) :
    (waitingOf asks calls (blocks ++ posted)).Perm (waitingOf asks calls blocks) := by
  have happend := waitingOf_append asks calls blocks posted
  rw [h, List.nil_append] at happend
  exact happend

end WaitingOf

theorem perm_eraseIdx {α : Type*} {l : List α} {idx : ℕ} {a : α} (h : l[idx]? = some a) :
    l.Perm (a :: l.eraseIdx idx) := by
  obtain ⟨hlt, rfl⟩ := List.getElem?_eq_some_iff.1 h
  exact (List.getElem_cons_eraseIdx_perm hlt).symm

/-- Whether what requests wait for may be dropped. -/
def FrontendState.Lost (s : FrontendState V) : Prop :=
  s.alive = false ∨ s.transport.loopQuiesced = true

/-- A confirmation captured its own request. -/
structure Ask.Fits (ask : Ask) (i : Inbound) : Prop where
  connId : ask.connId = i.connId
  req : ask.req = i.request.req
  caller : ask.caller = i.caller
  apply : i.change? = some ask.apply

/-- Where a request is when it waits for this. -/
def Waiting.At (i : Inbound) : Waiting → Phase → Prop
  | .asked ask, φ => φ = .asked ∧ ask.Fits i
  | .brokered call, φ => φ = .brokered ∧ call.connId = i.connId ∧ call.req = i.request.req
  | .answered ask verdict, φ => φ = .answered verdict ∧ ask.Fits i
  | .reply _ connId m, φ =>
    φ = .brokered ∧ connId = i.connId ∧ m.req? = some i.request.req ∧ m.op? = none

/-- **How the frontend keeps the lives of its requests.** -/
def lives (A : Agent V Trust) : Ledger Inbound Deed Phase Waiting where
  life i n := life A.core i n
  number? := Deed.number?
  start := .entered
  Over φ := φ = .over
  key := Waiting.n
  At := Waiting.At

/-- Every request's life is in the log, over or waiting. -/
def Lives (A : Agent V Trust) (s : FrontendState V) : Prop :=
  (lives A).Kept s.Lost s.requests s.log s.waiting

theorem Waiting.not_over {i : Inbound} {x : Waiting} {φ : Phase} (h : x.At i φ) : φ ≠ .over := by
  rintro rfl
  cases x with
  | asked ask => exact absurd h.1 (by simp)
  | brokered call => exact absurd h.1 (by simp)
  | answered ask verdict => exact absurd h.1 (by simp)
  | reply n connId m => exact absurd h.1 (by simp)

/-! ## What the ends of a dispatch take from a life -/

/-- What a change replies is the answer to its request. -/
theorem reply_run (x : Apply) (req : ℕ) (store : V) :
    (x.run A o req store).reply.req? = some req ∧ (x.run A o req store).reply.op? = none := by
  have hchange : ∀ ok, (changeReply req ok).req? = some req ∧ (changeReply req ok).op? = none := by
    intro ok
    cases ok <;> exact ⟨rfl, rfl⟩
  cases x with
  | configWrite msg =>
    simp only [Apply.run, applyConfigWrite]
    cases configWrite msg with
    | error code => exact ⟨rfl, rfl⟩
    | ok write => exact hchange _
  | configReset msg => exact hchange _
  | importAnchors held =>
    simp only [Apply.run, applyImport]
    cases o.readBoundedRegularFd held A.library.kMaxMasterListBytes with
    | ok bytes =>
      dsimp only
      rcases A.core.importMasterList bytes o.now store with ⟨reason | imported, store'⟩
      · exact ⟨rfl, rfl⟩
      · exact ⟨rfl, rfl⟩
    | _ => exact ⟨rfl, rfl⟩

/-- So is what the broker answers. -/
theorem reply_broker (req : ℕ) (result : Except SyncError BrokerResult) :
    (FrontendState.brokerReply req result).req? = some req ∧
      (FrontendState.brokerReply req result).op? = none := by
  rcases result with code | result
  · exact ⟨rfl, rfl⟩
  · cases result <;> exact ⟨rfl, rfl⟩

/-- **What a change does** is what it is for. -/
theorem does_run (x : Apply) (req : ℕ) (store : V) : x.Does (x.run A o req store).effects := by
  cases x with
  | configWrite msg =>
    simp only [Apply.run, applyConfigWrite, Apply.Does, SetConfig.effects]
    cases configWrite msg <;> rfl
  | configReset msg => rfl
  | importAnchors held =>
    simp only [Apply.run, applyImport]
    cases o.readBoundedRegularFd held A.library.kMaxMasterListBytes with
    | ok bytes =>
      dsimp only
      rcases A.core.importMasterList bytes o.now store with ⟨reason | imported, store'⟩
      · exact rfl
      · exact rfl
    | _ => exact rfl

theorem replies_of_refuses {i : Inbound} {φ : Phase} (h : φ.Refuses) {m : Message}
    (hm : m.op? = none) : φ.Replies i m := by
  cases φ with
  | entered => exact hm
  | authorized action => exact hm
  | allowed action reads => exact hm
  | refused => exact hm
  | _ => exact h.elim

/-- The end a handler came to is one its request's life permits. -/
theorem permitted_of_ok {i : Inbound} {n : ℕ} {ending : Ending}
    (h : (handle A o s n i).result = .ok ending) :
    ∃ φ, (life A.core i n).run .entered (handle A o s n i).log = some φ ∧
      ending.Permitted A.core i φ := by
  obtain ⟨φ, hrun, hres⟩ := handle_follows (A := A) (o := o) (s := s) (n := n) (i := i)
  rw [h] at hres
  exact ⟨φ, hrun, hres⟩

theorem refuses_of_error {i : Inbound} {n : ℕ} {code : SyncError}
    (h : (handle A o s n i).result = .error code) :
    ∃ φ, (life A.core i n).run .entered (handle A o s n i).log = some φ ∧ φ.Refuses := by
  obtain ⟨φ, hrun, hres⟩ := handle_follows (A := A) (o := o) (s := s) (n := n) (i := i)
  rw [h] at hres
  exact ⟨φ, hrun, hres⟩

/-- **A dispatch that replies** may. -/
theorem replies_of_says {i : Inbound} {m : Message} {carries : Option (OpId × Bytes)}
    (h : Says A o s i m carries) :
    ∃ φ, (life A.core i s.requests.length).run .entered
        (handle A o s s.requests.length i).log = some φ ∧
      φ.Replies i m ∧ m.req? = some i.request.req := by
  cases h with
  | refused h =>
    obtain ⟨φ, hrun, hφ⟩ := refuses_of_error h
    exact ⟨φ, hrun, replies_of_refuses hφ rfl, rfl⟩
  | reply h =>
    obtain ⟨φ, hrun, rfl, hreq, hop⟩ := permitted_of_ok h
    exact ⟨_, hrun, hop, hreq⟩
  | sendThenClose h =>
    obtain ⟨φ, hrun, rfl, hreq, hop⟩ := permitted_of_ok h
    exact ⟨_, hrun, hop, hreq⟩
  | hello h =>
    obtain ⟨φ, hrun, rfl, hreq, hop⟩ := permitted_of_ok h
    exact ⟨_, hrun, hop, hreq⟩
  | notLaunched h =>
    obtain ⟨φ, hrun, hφ⟩ := permitted_of_ok h
    exact ⟨φ, hrun, replies_of_refuses (refuses_of_permitted hφ) rfl, rfl⟩
  | notAsked h =>
    obtain ⟨φ, hrun, rfl, -⟩ := permitted_of_ok h
    exact ⟨_, hrun, rfl, rfl⟩

/-! ## The log keeps every life -/

section Rests

variable {lost : Prop} {i : Inbound}

theorem rests_asked (ask : Ask) (h : ask.Fits i) :
    (lives A).Rests lost i ask.n .asked [.asked ask] := .held rfl ⟨rfl, h⟩

theorem rests_answered {ask : Ask} (h : ask.Fits i) (verdict : PromptReplyStatus) :
    (lives A).Rests lost i ask.n (.answered verdict) [.answered ask verdict] := .held rfl ⟨rfl, h⟩

theorem rests_brokered (call : BrokerCall) (hconn : call.connId = i.connId)
    (hreq : call.req = i.request.req) :
    (lives A).Rests lost i call.n .brokered [.brokered call] := .held rfl ⟨rfl, hconn, hreq⟩

theorem rests_reply {n : ℕ} {m : Message} (hreq : m.req? = some i.request.req)
    (hop : m.op? = none) : (lives A).Rests lost i n .brokered [.reply n i.connId m] :=
  .held rfl ⟨rfl, rfl, hreq, hop⟩

end Rests

section Kept

variable {i : Inbound} {n : ℕ}

theorem own_of_run {deeds : List Deed} {φ φ' : Phase} {C : AgentCore V Trust}
    (h : (life C i n).run φ deeds = some φ') : (lives A).own n deeds = deeds := by
  exact List.filter_eq_self.2 fun d hd => decide_eq_true (number_of_run h hd)

theorem of_run {deeds : List Deed} {φ φ' : Phase} {C : AgentCore V Trust}
    (h : (life C i n).run φ deeds = some φ') : (lives A).Of n deeds :=
  fun _ hd => .inl (number_of_run h hd)

/-- A request enters with deeds of its own, and comes to rest. -/
theorem Lives.enter (h : Lives A s) (deeds : List Deed) {φ : Phase} {xs : List Waiting}
    (hof : (lives A).Of s.requests.length deeds)
    (hrun : (life A.core i s.requests.length).run .entered
      ((lives A).own s.requests.length deeds) = some φ)
    (hrests : (lives A).Rests s.Lost i s.requests.length φ xs)
    (hrequests : t.requests = s.requests ++ [i]) (hlog : t.log = s.log ++ deeds)
    (hwaiting : (s.waiting ++ xs).Perm t.waiting) (hlost : t.Lost = s.Lost) : Lives A t := by
  unfold Lives
  rw [hrequests, hlog, hlost]
  exact (Ledger.Kept.enter h hof hrun hrests).perm hwaiting

/-- A request enters, and all that is done is done for it. -/
theorem Lives.dispatched (h : Lives A s) {deeds : List Deed} {φ : Phase} {xs : List Waiting}
    (hrun : (life A.core i s.requests.length).run .entered deeds = some φ)
    (hrests : (lives A).Rests s.Lost i s.requests.length φ xs)
    (hrequests : t.requests = s.requests ++ [i]) (hlog : t.log = s.log ++ deeds)
    (hwaiting : (s.waiting ++ xs).Perm t.waiting) (hlost : t.Lost = s.Lost) : Lives A t := by
  have hown : (lives A).own s.requests.length deeds = deeds := own_of_run hrun
  exact h.enter deeds (of_run hrun) (by rw [hown]; exact hrun) hrests hrequests hlog hwaiting hlost

/-- What a request waited for comes, and the request goes on. -/
theorem Lives.advance (h : Lives A s) (x : Waiting) (deeds : List Deed) (xs : List Waiting)
    {rest : List Waiting}
    (hwaits : s.waiting.Perm (x :: rest))
    (hgo : ∀ i φ, s.requests[x.n]? = some i → x.At i φ →
      ∃ φ', (life A.core i x.n).run φ deeds = some φ' ∧ (lives A).Rests s.Lost i x.n φ' xs)
    (hrequests : t.requests = s.requests) (hlog : t.log = s.log ++ deeds)
    (hwaiting : (xs ++ rest).Perm t.waiting) (hlost : t.Lost = s.Lost) : Lives A t := by
  have hkept : (lives A).Kept s.Lost s.requests s.log (x :: rest) := Ledger.Kept.perm h hwaits
  obtain ⟨i, φ, hi, -, hat⟩ := hkept.holders x List.mem_cons_self
  obtain ⟨φ', hrun, -⟩ := hgo i φ hi hat
  have hown : (lives A).own x.n deeds = deeds := own_of_run hrun
  unfold Lives
  rw [hrequests, hlog, hlost]
  refine (hkept.advance (of_run hrun) fun i' φ₁ hi' hat' => ?_).perm hwaiting
  obtain ⟨φ₂, hrun', hrests⟩ := hgo i' φ₁ hi' hat'
  refine ⟨φ₂, ?_, hrests⟩
  change (life A.core i' x.n).run φ₁ ((lives A).own x.n deeds) = some φ₂
  rw [hown]
  exact hrun'

/-- What is no request's own comes in between. -/
theorem Lives.quiet (h : Lives A s) (deeds : List Deed) (hdeeds : ∀ d ∈ deeds, d.number? = none)
    (hrequests : t.requests = s.requests) (hlog : t.log = s.log ++ deeds)
    (hwaiting : s.waiting.Perm t.waiting) (hlost : t.Lost = s.Lost) : Lives A t := by
  unfold Lives
  rw [hrequests, hlog, hlost]
  exact (Ledger.Kept.quiet h hdeeds).perm hwaiting

end Kept

/-- Two deeds in a row. -/
theorem life_run_snoc {C : AgentCore V Trust} {i : Inbound} {n : ℕ} {φ φ₁ φ₂ : Phase}
    {deeds : List Deed} {d : Deed} (hrun : (life C i n).run φ deeds = some φ₁)
    (hnumber : d.number? = some n) (hnext : φ₁.next C i d = some φ₂) :
    (life C i n).run φ (deeds ++ [d]) = some φ₂ :=
  Machine.run_snoc_eq_some.2 ⟨φ₁, hrun, life_step.2 ⟨hnumber, hnext⟩⟩

/-- A reply ends a life. -/
theorem life_run_replied {C : AgentCore V Trust} {i : Inbound} {n : ℕ} {φ φ₁ : Phase}
    {deeds : List Deed} {m : Message} (hrun : (life C i n).run φ deeds = some φ₁)
    (h : φ₁.Replies i m) (hreq : m.req? = some i.request.req) (carries : Option (OpId × Bytes))
    (sent : Bool) :
    (life C i n).run φ (deeds ++ [.replied n i.connId m carries sent]) = some .over :=
  life_run_snoc hrun rfl (next_replied.2 ⟨h, rfl, hreq, rfl⟩)

/-- A change, and the reply it makes. -/
theorem life_run_applied {i : Inbound} {n : ℕ} {φ φ₁ : Phase} {deeds : List Deed} {x : Apply}
    {confirmed : Bool} (hrun : (life A.core i n).run φ deeds = some φ₁)
    (happlies : φ₁.Applies A.core i confirmed) (hx : i.change? = some x) (store : V) (sent : Bool) :
    (life A.core i n).run φ (deeds ++
      [.applied n i.connId i.request.req confirmed (x.run A o i.request.req store).effects,
        .replied n i.connId (x.run A o i.request.req store).reply none sent]) = some .over := by
  obtain ⟨hreq, hop⟩ := reply_run (A := A) (o := o) x i.request.req store
  have happlied := life_run_snoc (d := .applied n i.connId i.request.req confirmed
    (x.run A o i.request.req store).effects) hrun rfl <| next_applied.2
      ⟨happlies, rfl, rfl, ⟨x, hx, does_run x i.request.req store⟩, rfl⟩
  have hover := life_run_replied happlied hop hreq none sent
  rw [List.append_assoc] at hover
  exact hover

theorem waiting_emitted (op : OpId) (x : Operation) (anonFdFromBytes : Bytes → Option Fd)
    (es : List Emission) : waitingBlocks (emitAll anonFdFromBytes op x es).1 = [] := by
  have hone : ∀ (x : Operation) (e : Emission),
      waitingBlocks (emissionBlocks anonFdFromBytes op x e) = [] := by
    intro x e
    cases e with
    | result payload info =>
      simp only [emissionBlocks]
      cases emitResult anonFdFromBytes op payload with
      | none => rfl
      | some out =>
        have hstash : waitingBlocks (stashBlock op x info payload) = [] := by
          unfold stashBlock
          split
          · split <;> rfl
          · rfl
        simp only [waitingBlocks_append, hstash]
        rfl
    | _ => rfl
  induction es generalizing x with
  | nil => rfl
  | cons e es ih =>
    unfold emitAll
    split
    · rfl
    · rw [waitingBlocks_append, hone, ih]
      rfl

theorem number_emittedDeeds (op : OpId) (blocks : List Block) :
    ∀ d ∈ emittedDeeds op blocks, d.number? = none := by
  intro d hd
  simp only [emittedDeeds, List.mem_filterMap] at hd
  obtain ⟨block, -, heq⟩ := hd
  cases block <;> simp at heq
  subst heq
  rfl

theorem waiting_posted {block : Block} {rest : List Block} (h : s.posted = block :: rest) :
    s.waiting.Perm (block.waiting?.toList ++ waitingOf s.asks s.brokerCalls rest) := by
  unfold FrontendState.waiting
  rw [h]
  exact waitingOf_cons _ _ _ block

theorem mem_waiting {block : Block} {rest : List Block} {x : Waiting}
    (h : s.posted = block :: rest) (hx : block.waiting? = some x) : x ∈ s.waiting := by
  refine (waiting_posted h).mem_iff.2 (List.mem_append_left _ ?_)
  rw [hx]
  exact List.mem_singleton.2 rfl

/-- **A move of the transport** takes no life further. -/
theorem Lives.moved (hm : Shifted A s t) (h : Lives A s) : Lives A t := by
  obtain ⟨gone, hposted, -⟩ := hm.posted
  have hgone : waitingBlocks (gone.map Block.evictClient) = [] := by
    unfold waitingBlocks
    rw [List.filterMap_map]
    exact List.filterMap_eq_nil_iff.2 fun _ _ => rfl
  have hwaiting : t.waiting = s.waiting := by
    unfold FrontendState.waiting waitingOf
    rw [hm.asks, hm.brokerCalls, hposted, waitingBlocks_append, hgone, List.append_nil]
  unfold Lives
  rw [hm.requests, hm.log, hwaiting]
  exact Ledger.Kept.weaken h (Or.imp (fun halive => hm.alive.trans halive) hm.quiesced)

/-- **A turn keeps the lives of all requests.** -/
theorem Lives.turn {input : FrontendInput} (hturn : FrontendTurn A s input t) (h : Lives A s) :
    Lives A t := by
  cases hturn with
  | idle => exact h
  | @replied event o i hi m carries hsaying =>
    obtain ⟨φ, hrun, hreplies, hreq⟩ := replies_of_says hsaying
    have hover := life_run_replied hrun hreplies hreq carries true
    refine h.dispatched hover (.ended rfl) rfl (List.append_assoc ..) ?_ rfl
    rw [List.append_nil]
    exact .refl _
  | @changed event o i hi x hok =>
    obtain ⟨φ, hrun, hφ, hx, htier⟩ := permitted_of_ok hok
    have happlies : φ.Applies A.core i false := ⟨hφ, by rw [hx, Option.map_some, htier]⟩
    have hover := life_run_applied (o := o) hrun happlies hx s.store true
    refine h.dispatched hover (.ended rfl) rfl (List.append_assoc ..) ?_ rfl
    rw [List.append_nil]
    exact .refl _
  | @launched event o i hi target spec onSignArtifact hok op early hlaunched hfresh =>
    obtain ⟨φ, hrun, hlaunches, -⟩ := permitted_of_ok hok
    have hstarted := life_run_snoc (d := .launched s.requests.length op target spec) hrun rfl
      (next_launched.2 ⟨hlaunches, rfl⟩)
    have hover := life_run_replied (m := .opStarted i.request.req op) hstarted rfl rfl none true
    -- what the worker emitted meanwhile belongs to no request
    set x : Operation := ⟨s.requests.length, i.connId, i.caller, onSignArtifact, false⟩
    set out := emitAll o.anonFdFromBytes op x early
    have hemitted := number_emittedDeeds op out.1
    have hof : (lives A).Of s.requests.length (emittedDeeds op out.1) :=
      fun d hd => .inr (hemitted d hd)
    have hown : (lives A).own s.requests.length (emittedDeeds op out.1) = [] :=
      (lives A).own_eq_nil hemitted
    refine h.enter ((handle A o s s.requests.length i).log ++
      [.launched s.requests.length op target spec] ++ emittedDeeds op out.1 ++
      [.replied s.requests.length i.connId (.opStarted i.request.req op) none true])
      (((of_run hstarted).append hof).append ?_) ?_ (.ended rfl) rfl ?_ ?_ rfl
    · intro d hd
      rw [List.mem_singleton.1 hd]
      exact .inl rfl
    · rw [Ledger.own_append, Ledger.own_append, own_of_run hstarted, hown, List.append_nil,
        Ledger.own_cons, if_pos (by rfl)]
      exact hover
    · simp [FrontendState.did, FrontendState.emitted, FrontendState.handled, out, x]
    · rw [List.append_nil]
      exact (waitingOf_quiet _ _ _ (waiting_emitted op x o.anonFdFromBytes early)).symm
  | @asked event o i hi x hok copy hcopy hfree =>
    obtain ⟨φ, hrun, rfl, hx⟩ := permitted_of_ok hok
    have hasked := life_run_snoc (d := .asked s.requests.length i.connId i.request.req x.key) hrun
      rfl (next_asked.2 ⟨rfl, rfl, rfl, by rw [hx]; rfl, rfl⟩)
    refine h.dispatched hasked
      (rests_asked (Ask.mk s.requests.length i.connId i.request.req i.caller
        (confirmAction copy (o.requesterLabel i.caller) x.key) x) ⟨rfl, rfl, rfl, hx⟩)
      rfl (List.append_assoc ..) ?_ rfl
    exact List.perm_append_comm.trans (waitingOf_ask _ _ (List.perm_append_singleton ..)).symm
  | @brokered event o i hi reader verb hok =>
    obtain ⟨φ, hrun, rfl⟩ := permitted_of_ok hok
    have hasked := life_run_snoc (d := .brokered s.requests.length verb) hrun rfl
      (next_brokered.2 ⟨rfl, rfl⟩)
    refine h.dispatched hasked
      (rests_brokered (BrokerCall.mk s.requests.length i.connId i.request.req reader verb i.caller
        (o.requesterLabel i.caller)) rfl rfl) rfl (List.append_assoc ..) ?_ rfl
    exact List.perm_append_comm.trans (waitingOf_call _ _ (List.perm_append_singleton ..)).symm
  | @answer idx verdict ask hask =>
    have hwaits := waitingOf_ask s.brokerCalls s.posted (perm_eraseIdx hask)
    have hnext : ∀ i φ, (Waiting.asked ask).At i φ →
        (life A.core i ask.n).run φ [.answered ask.n verdict] = some (.answered verdict) := by
      rintro i _ ⟨rfl, -⟩
      exact life_run_snoc ((life A.core i ask.n).run_nil .asked) rfl (next_answered.2 ⟨rfl, rfl⟩)
    by_cases halive : s.alive = true
    · refine h.advance (.asked ask) _ _ hwaits
        (fun i φ _ hat => ⟨_, hnext i φ hat, rests_answered hat.2 verdict⟩) rfl rfl ?_ rfl
      have hposted := waitingOf_append (s.asks.eraseIdx idx) s.brokerCalls s.posted
        [.answered ask verdict]
      simp only [FrontendState.waiting, FrontendState.did, halive, if_true]
      exact hposted.symm
    · -- without a frontend the answer is not posted, and the request is lost
      have hlost : s.Lost := .inl (by simpa using halive)
      refine h.advance (.asked ask) _ [] hwaits
        (fun i φ _ hat => ⟨_, hnext i φ hat, .lost hlost⟩) rfl rfl ?_ rfl
      simp only [FrontendState.waiting, FrontendState.did, halive]
      exact (waitingOf_quiet _ _ _ rfl).symm
  | @emit op x hx e anonFdFromBytes =>
    refine h.quiet _ (number_emittedDeeds op _) rfl rfl ?_ rfl
    exact (waitingOf_quiet _ _ _ (waiting_emitted op x anonFdFromBytes [e])).symm
  | @broker idx result call hcall =>
    have hwaits := waitingOf_call s.asks s.posted (perm_eraseIdx hcall)
    refine h.advance (.brokered call) [] _ hwaits (fun i φ _ hat => ?_) rfl (List.append_nil _).symm
      (waitingOf_append s.asks (s.brokerCalls.eraseIdx idx) s.posted
        [.reply call.n call.connId (FrontendState.brokerReply call.req result)]).symm rfl
    obtain ⟨rfl, hconn, hreq⟩ := hat
    obtain ⟨hanswer, hop⟩ := reply_broker call.req result
    refine ⟨.brokered, rfl, ?_⟩
    rw [hconn]
    exact rests_reply (hanswer.trans (congrArg some hreq)) hop
  | due hop => exact h.quiet [] (by simp) rfl (by simp) (waitingOf_quiet _ _ _ rfl).symm rfl
  | @dropped o block rest hposted hwhy =>
    have hkept : (lives A).Kept s.Lost s.requests s.log _ :=
      Ledger.Kept.perm h (waiting_posted hposted)
    exact hkept.lose (hwhy.symm.imp And.left id) (List.sublist_append_right ..)
  | @reply o n connId m rest hposted hcan =>
    have hwaits := waiting_posted hposted
    refine h.advance (.reply n connId m) _ [] hwaits ?_ rfl rfl (.refl _) rfl
    rintro i _ - ⟨rfl, rfl, hreq, hop⟩
    have hhere := (life A.core i n).run_nil .brokered
    exact ⟨.over, life_run_replied hhere hop hreq none _, .ended rfl⟩
  | @event o op connId m fds carries rest hposted hcan =>
    exact h.quiet _ (by simp [Deed.number?]) rfl rfl (waiting_posted hposted) rfl
  | @confirmed o ask rest hposted hcan halive =>
    have hwaits := waiting_posted hposted
    refine h.advance (.answered ask .ok) _ [] hwaits ?_ rfl rfl (.refl _) rfl
    rintro i _ - ⟨rfl, hconn, hreq, -, hx⟩
    rw [hconn, hreq]
    have hhere := (life A.core i ask.n).run_nil (.answered .ok)
    have happlies : Phase.Applies A.core i true (.answered .ok) := rfl
    exact ⟨.over, life_run_applied hhere happlies hx s.store _, .ended rfl⟩
  | @declined o ask verdict rest hposted hcan halive hverdict =>
    have hwaits := waiting_posted hposted
    refine h.advance (.answered ask verdict) _ [] hwaits ?_ rfl rfl (.refl _) rfl
    rintro i _ - ⟨rfl, hconn, hreq, -, hx⟩
    rw [hconn, hreq]
    have hhere := (life A.core i ask.n).run_nil (.answered verdict)
    exact ⟨.over, life_run_replied hhere ⟨hverdict, rfl⟩ rfl none _, .ended rfl⟩
  | stashed hposted hcan halive =>
    exact h.quiet _ (by simp [Deed.number?]) rfl rfl (waiting_posted hposted) rfl
  | pruned hposted hcan halive =>
    exact h.quiet _ (by simp [Deed.number?]) rfl rfl (waiting_posted hposted) rfl
  | expired hposted hcan halive =>
    exact h.quiet _ (by simp [Deed.number?]) rfl rfl (waiting_posted hposted) rfl
  | evicted hposted hcan halive =>
    exact h.quiet _ (by simp [Deed.number?]) rfl rfl (waiting_posted hposted) rfl
  | destroy => exact Ledger.Kept.lose h (.inl rfl) (List.Sublist.refl _)

/-- **The frontend keeps the lives of its requests.** -/
theorem closed_lives : Closed A (Lives A) where
  start _ := Ledger.Kept.nil
  moved _ _ _ _ hm h := h.moved hm
  turn _ _ _ _ hturn h := h.turn hturn

end Frontend

end LibreDarwin
