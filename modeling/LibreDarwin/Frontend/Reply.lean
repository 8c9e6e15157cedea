import LibreDarwin.Frontend.Waiting

/-!
# One answer per request

Every request a client makes is answered at most once, on its own
connection and under its own number, and is answered or waits for what will
answer it, unless the frontend or its loop is gone. An answer that was not
handed over had no connection left to go to. What is handed over is the
mail of the connection (`reachable_mail`), so the replies counted here are
the frames the client gets.
-/

namespace LibreDarwin

namespace Frontend

open Wire Transport Script
open Std (ExtTreeMap)

variable {V Trust : Type*} {A : Agent V Trust} {o : Outside} {s t : FrontendState V}

/-- **The replies a log has for one request**: to whom, what, and whether
the connection was there to take it. -/
def repliesTo (n : ℕ) (log : List Deed) : List (ConnId × Message × Bool) :=
  log.filterMap fun
    | .replied m connId reply _ sent => if m = n then some (connId, reply, sent) else none
    | _ => none

/-- How many things will answer a request. -/
def FrontendState.waitsFor (s : FrontendState V) (n : ℕ) : ℕ := (s.waiting.map Waiting.n).count n

@[simp] theorem repliesTo_append (n : ℕ) (a b : List Deed) :
    repliesTo n (a ++ b) = repliesTo n a ++ repliesTo n b := List.filterMap_append

theorem repliesTo_eq_nil {n : ℕ} {log : List Deed}
    (h : ∀ connId m carries sent, .replied n connId m carries sent ∉ log) : repliesTo n log = [] := by
  refine List.filterMap_eq_nil_iff.2 fun d hd => ?_
  cases d with
  | replied m connId reply carries sent =>
    by_cases hm : m = n
    · exact absurd (hm ▸ hd) (h connId reply carries sent)
    · exact if_neg hm
  | _ => rfl

theorem mem_repliesTo {n : ℕ} {log : List Deed} {connId : ConnId} {m : Message} {sent : Bool} :
    (connId, m, sent) ∈ repliesTo n log ↔ ∃ carries, .replied n connId m carries sent ∈ log := by
  simp only [repliesTo, List.mem_filterMap]
  constructor
  · rintro ⟨d, hd, heq⟩
    cases d with
    | replied m' connId' reply carries sent' =>
      simp only [Option.ite_none_right_eq_some, Option.some.injEq, Prod.mk.injEq] at heq
      obtain ⟨rfl, rfl, rfl, rfl⟩ := heq
      exact ⟨carries, hd⟩
    | _ => cases heq
  · rintro ⟨carries, hd⟩
    exact ⟨_, hd, if_pos rfl⟩

/-- The replies to a request are among what was done for it. -/
theorem repliesTo_own (n : ℕ) (log : List Deed) :
    repliesTo n ((lives A).own n log) = repliesTo n log := by
  induction log with
  | nil => rfl
  | cons d log ih =>
    rw [Ledger.own_cons]
    split
    · rw [← List.singleton_append, repliesTo_append, ih, ← repliesTo_append, List.singleton_append]
    next hn =>
      have hnone : repliesTo n [d] = [] := by
        refine repliesTo_eq_nil fun connId m carries sent hmem => ?_
        obtain rfl := List.mem_singleton.1 hmem
        exact hn rfl
      rw [ih, ← List.singleton_append (l := log), repliesTo_append, hnone, List.nil_append]

/-- **The replies in a life**: one at its end, and none before. -/
theorem repliesTo_of_run {C : AgentCore V Trust} {i : Inbound} {n : ℕ} {φ : Phase}
    {deeds : List Deed} (h : (life C i n).run .entered deeds = some φ) :
    (φ ≠ .over ∧ repliesTo n deeds = []) ∨
      φ = .over ∧ ∃ m sent, repliesTo n deeds = [(i.connId, m, sent)] ∧
        m.req? = some i.request.req := by
  induction deeds using List.reverseRecOn generalizing φ with
  | nil =>
    obtain rfl := Option.some.inj h
    exact .inl ⟨by simp, rfl⟩
  | append_singleton before d ih =>
    obtain ⟨φ₁, hrun, hstep⟩ := Machine.run_snoc_eq_some.1 h
    obtain ⟨hnumber, hnext⟩ := life_step.1 hstep
    -- the life was not over before its last deed
    have hbefore : repliesTo n before = [] := by
      rcases ih hrun with ⟨-, hnone⟩ | ⟨rfl, -⟩
      · exact hnone
      · rw [next_over] at hnext
        cases hnext
    rw [repliesTo_append, hbefore, List.nil_append]
    cases d with
    | replied m connId reply carries sent =>
      obtain rfl : m = n := by simpa [Deed.number?] using hnumber
      obtain ⟨-, rfl, hreq, rfl⟩ := next_replied.1 hnext
      exact .inr ⟨rfl, reply, sent, by simp [repliesTo], hreq⟩
    | _ =>
      refine .inl ⟨?_, rfl⟩
      rintro rfl
      simpa using next_phase hnext

/-- A handler's script replies nothing. -/
theorem not_replied_handle {i : Inbound} {k : ℕ} (n : ℕ) (connId : ConnId) (m : Message)
    (carries : Option (OpId × Bytes)) (sent : Bool) :
    .replied n connId m carries sent ∉ (handle A o s k i).log := by
  intro hd
  obtain ⟨φ, hrun, hφ⟩ := handle_refuses (A := A) (o := o) (s := s) (n := k) (i := i)
  obtain rfl : n = k := by simpa [Deed.number?] using number_of_run hrun hd
  rcases repliesTo_of_run hrun with ⟨-, hnone⟩ | ⟨rfl, -⟩
  · have hmem := mem_repliesTo.2 ⟨carries, hd⟩
    rw [hnone] at hmem
    cases hmem
  · exact not_over_of_refuses hφ rfl

/-! ## Whoever was not told is gone -/

/-- A reply that was not handed over had no connection to go to. -/
structure Informed (s : FrontendState V) : Prop where
  used : ∀ i ∈ s.requests, i.connId < s.transport.nextConnId
  gone : ∀ n connId m carries, .replied n connId m carries false ∈ s.log →
    connId < s.transport.nextConnId ∧ connId ∉ s.transport.connections

namespace Informed

theorem moved (hm : Shifted A s t) (h : Informed s) : Informed t := by
  obtain ⟨is, his⟩ := hm.run
  have hle : s.transport.nextConnId ≤ t.transport.nextConnId :=
    Machine.run_invariant (I := fun v : State Envelope => s.transport.nextConnId ≤ v.nextConnId)
      (fun _ _ _ hv hst => Nat.le_trans hv (nextConnId_step hst)) (Nat.le_refl _) his
  refine ⟨fun i hi => ?_, fun n connId m carries hd => ?_⟩
  · rw [hm.requests] at hi
    exact Nat.lt_of_lt_of_le (h.used i hi) hle
  · rw [hm.log] at hd
    obtain ⟨hused, hgone⟩ := h.gone n connId m carries hd
    exact hm.gone hused hgone

/-- What a turn leaves of it: requests that just came, and replies to
connections that are gone. -/
theorem of_log (h : Informed s) (hs : (transport A.wire).Reachable s.transport) (deeds : List Deed)
    (ht : t.transport = s.transport)
    (hrequests : ∀ i ∈ t.requests, i ∈ s.requests ∨ i.connId ∈ s.transport.connections)
    (hlog : t.log = s.log ++ deeds)
    (hdeeds : ∀ n connId m carries, .replied n connId m carries false ∈ deeds →
      connId < s.transport.nextConnId ∧ connId ∉ s.transport.connections) : Informed t := by
  refine ⟨fun i hi => ?_, fun n connId m carries hd => ?_⟩
  · rw [ht]
    rcases hrequests i hi with hold | hnew
    · exact h.used i hold
    · exact used_of_mem (reachable_orderly hs) hnew
  · rw [ht]
    rw [hlog] at hd
    rcases List.mem_append.1 hd with hold | hnew
    · exact h.gone n connId m carries hold
    · exact hdeeds n connId m carries hnew

/-- A request that came, and was dispatched without a failed reply. -/
theorem came (h : Informed s) (hs : (transport A.wire).Reachable s.transport) {i : Inbound}
    (hi : Arrives s i) (deeds : List Deed) (ht : t.transport = s.transport)
    (hrequests : t.requests = s.requests ++ [i])
    (hlog : t.log = s.log ++ ((handle A o s s.requests.length i).log ++ deeds))
    (hdeeds : ∀ n connId m carries, .replied n connId m carries false ∉ deeds) : Informed t := by
  refine h.of_log hs _ ht (fun j hj => ?_) hlog fun n connId m carries hd => ?_
  · rw [hrequests] at hj
    rcases List.mem_append.1 hj with hold | hnew
    · exact .inl hold
    · rw [List.mem_singleton.1 hnew]
      exact .inr hi.sends.2
  · rcases List.mem_append.1 hd with hhandle | hend
    · exact absurd hhandle (not_replied_handle n connId m carries false)
    · exact absurd hend (hdeeds n connId m carries)

/-- What is no reply. -/
theorem quiet (h : Informed s) (hs : (transport A.wire).Reachable s.transport) (deeds : List Deed)
    (ht : t.transport = s.transport) (hrequests : t.requests = s.requests)
    (hlog : t.log = s.log ++ deeds)
    (hdeeds : ∀ n connId m carries, .replied n connId m carries false ∉ deeds) : Informed t :=
  h.of_log hs deeds ht (fun _ hi => .inl (hrequests ▸ hi)) hlog
    fun n connId m carries hd => absurd hd (hdeeds n connId m carries)

/-- A reply from a block goes to a connection that made a request. -/
theorem told (h : Informed s) (hs : (transport A.wire).Reachable s.transport) (deeds : List Deed)
    {connId : ConnId} (hcan : s.transport.CanAct)
    (hconn : ∃ i ∈ s.requests, connId = i.connId) (ht : t.transport = s.transport)
    (hrequests : t.requests = s.requests) (hlog : t.log = s.log ++ deeds)
    (hdeeds : ∀ n c m carries, .replied n c m carries false ∈ deeds →
      c = connId ∧ ¬ s.Sends connId) : Informed t := by
  refine h.of_log hs deeds ht (fun i hi => .inl (hrequests ▸ hi)) hlog fun n c m carries hd => ?_
  obtain ⟨rfl, hsends⟩ := hdeeds n c m carries hd
  obtain ⟨i, hi, rfl⟩ := hconn
  exact ⟨h.used i hi, fun hmem => hsends ⟨hcan, hmem⟩⟩

/-- What a request waits for goes to the request's connection. -/
theorem waits_connId (hl : Lives A s) {x : Waiting} (hx : x ∈ s.waiting) :
    ∃ i ∈ s.requests, ∃ φ, x.At i φ := by
  obtain ⟨i, φ, hi, -, hat⟩ := Ledger.Kept.holders hl x hx
  exact ⟨i, List.mem_of_getElem? hi, φ, hat⟩

theorem turn (hs : (transport A.wire).Reachable s.transport) {input : FrontendInput}
    (hturn : FrontendTurn A s input t) (hl : Lives A s) (h : Informed s) : Informed t := by
  cases hturn with
  | idle => exact h
  | replied hi hsaying => exact h.came hs hi _ rfl rfl (List.append_assoc ..) (by simp)
  | changed hi hok => exact h.came hs hi _ rfl rfl (List.append_assoc ..) (by simp)
  | @launched event o i hi target spec onSignArtifact hok op early hlaunched hfresh =>
    set x : Operation := ⟨s.requests.length, i.connId, i.caller, onSignArtifact, false⟩
    set out := emitAll o.anonFdFromBytes op x early
    refine h.came (o := o) hs hi ([.launched s.requests.length op target spec] ++
      emittedDeeds op out.1 ++
      [.replied s.requests.length i.connId (.opStarted i.request.req op) none true]) rfl rfl ?_ ?_
    · simp [FrontendState.did, FrontendState.emitted, FrontendState.handled, out, x]
    · intro n connId m carries hd
      simp only [List.mem_append, List.mem_singleton, reduceCtorEq, false_or, Deed.replied.injEq,
        Bool.false_eq_true, and_false, or_false] at hd
      exact absurd (number_emittedDeeds op _ _ hd) (by simp [Deed.number?])
  | asked hi hok hcopy hfree => exact h.came hs hi _ rfl rfl (List.append_assoc ..) (by simp)
  | brokered hi hok => exact h.came hs hi _ rfl rfl (List.append_assoc ..) (by simp)
  | answer hask => exact h.quiet hs _ rfl rfl rfl (by simp)
  | @emit op x hx e anonFdFromBytes =>
    refine h.quiet hs _ rfl rfl rfl fun n connId m carries hd => ?_
    exact absurd (number_emittedDeeds op _ _ hd) (by simp [Deed.number?])
  | broker hcall => exact h.quiet hs [] rfl rfl (List.append_nil _).symm (by simp)
  | due hop => exact h.quiet hs [] rfl rfl (List.append_nil _).symm (by simp)
  | dropped hposted hwhy => exact h.quiet hs [] rfl rfl (List.append_nil _).symm (by simp)
  | @reply o n connId m rest hposted hcan =>
    have hx : Waiting.reply n connId m ∈ s.waiting := mem_waiting hposted rfl
    obtain ⟨i, hi, φ, -, hconn, -⟩ := waits_connId hl hx
    refine h.told hs _ hcan ⟨i, hi, hconn⟩ rfl rfl rfl fun n' c m' carries hd => ?_
    simp at hd
    exact ⟨hd.2.1, hd.2.2.2.2⟩
  | event hposted hcan => exact h.quiet hs _ rfl rfl rfl (by simp)
  | @confirmed o ask rest hposted hcan halive =>
    have hx : Waiting.answered ask .ok ∈ s.waiting := mem_waiting hposted rfl
    obtain ⟨i, hi, φ, -, hfits⟩ := waits_connId hl hx
    refine h.told hs _ hcan ⟨i, hi, hfits.connId⟩ rfl rfl rfl fun n' c m' carries hd => ?_
    simp at hd
    exact ⟨hd.2.1, hd.2.2.2.2⟩
  | @declined o ask verdict rest hposted hcan halive hverdict =>
    have hx : Waiting.answered ask verdict ∈ s.waiting := mem_waiting hposted rfl
    obtain ⟨i, hi, φ, -, hfits⟩ := waits_connId hl hx
    refine h.told hs _ hcan ⟨i, hi, hfits.connId⟩ rfl rfl rfl fun n' c m' carries hd => ?_
    simp at hd
    exact ⟨hd.2.1, hd.2.2.2.2⟩
  | stashed hposted hcan halive => exact h.quiet hs _ rfl rfl rfl (by simp)
  | pruned hposted hcan halive => exact h.quiet hs _ rfl rfl rfl (by simp)
  | expired hposted hcan halive => exact h.quiet hs _ rfl rfl rfl (by simp)
  | evicted hposted hcan halive => exact h.quiet hs _ rfl rfl rfl (by simp)
  | destroy => exact h.quiet hs [] rfl rfl (List.append_nil _).symm (by simp)

end Informed

theorem closed_told : Closed A fun s => Lives A s ∧ Informed s := by
  refine closed_lives.along (fun store => ⟨by simp [FrontendState.start], by simp [FrontendState.start]⟩)
    (fun s t hs _ hm _ h => h.moved hm) ?_
  intro s input t hs hturn hl h
  exact h.turn hs hturn hl

/-! ## One answer -/

/-- **How a request stands with its answer.** -/
structure AnsweredOnce (s : FrontendState V) (n : ℕ) (i : Inbound) : Prop where
  /-- to its own connection, under its own number -/
  own : ∀ connId m sent, (connId, m, sent) ∈ repliesTo n s.log →
    connId = i.connId ∧ m.req? = some i.request.req
  /-- answered, or waiting for one thing that will answer it -/
  once : (repliesTo n s.log).length + s.waitsFor n ≤ 1
  /-- nothing is forgotten while there is a frontend and its loop -/
  kept : s.alive = true → s.transport.loopQuiesced = false →
    (repliesTo n s.log).length + s.waitsFor n = 1
  /-- and no answer is lost while the connection is open -/
  sent : i.connId ∈ s.transport.connections →
    ∀ connId m sent, (connId, m, sent) ∈ repliesTo n s.log → sent = true

/-- **One answer per request**, whatever its family, the state it came in
and what it was asked on the way; and what the log says was handed over is
what the connection was given. -/
theorem one_answer (h : (frontend A).Reachable s) :
    (∀ n i, s.requests[n]? = some i → AnsweredOnce s n i) ∧
      ∀ c, mailIn (s.transport.seen c) = mailFor c (saidIn s.log) := by
  obtain ⟨hlives, htold⟩ := closed_told.reachable h
  refine ⟨fun n i hi => ?_, reachable_mail h⟩
  obtain ⟨φ, hrun, hrests⟩ := Ledger.Kept.phase hlives n i hi
  have hreplies := repliesTo_of_run hrun
  rw [repliesTo_own] at hreplies
  have hwaits : 0 < s.waitsFor n → φ ≠ .over := fun hpos =>
    Ledger.Kept.open_of_held hlives (fun _ _ _ hat => Waiting.not_over hat) hi hrun
      (List.count_pos_iff.1 hpos)
  have hcount : s.waitsFor n ≤ 1 := List.nodup_iff_count_le_one.1 hlives.nodup n
  rcases hreplies with ⟨hopen, hnone⟩ | ⟨hover, m', sent', hone, hreq⟩
  · have hlen : (repliesTo n s.log).length = 0 := by rw [hnone, List.length_nil]
    refine ⟨by simp [hnone], by omega, fun halive hquiesced => ?_, by simp [hnone]⟩
    -- it is not over and not lost, so something holds it
    have hheld : n ∈ s.waiting.map Waiting.n := by
      refine (hrests.resolve_left hopen).resolve_left ?_
      rintro (hdead | hstopped)
      · rw [halive] at hdead
        cases hdead
      · rw [hquiesced] at hstopped
        cases hstopped
    have hpos : 0 < s.waitsFor n := List.count_pos_iff.2 hheld
    omega
  · have hlen : (repliesTo n s.log).length = 1 := by rw [hone, List.length_singleton]
    have hzero : s.waitsFor n = 0 := by
      by_contra hne
      exact hwaits (Nat.pos_of_ne_zero hne) hover
    refine ⟨?_, by omega, fun _ _ => by omega, fun hthere connId m sent hmem => ?_⟩
    · intro connId m sent hmem
      rw [hone, List.mem_singleton, Prod.mk.injEq, Prod.mk.injEq] at hmem
      obtain ⟨rfl, rfl, rfl⟩ := hmem
      exact ⟨rfl, hreq⟩
    · obtain ⟨carries, hd⟩ := mem_repliesTo.1 hmem
      rw [hone, List.mem_singleton, Prod.mk.injEq, Prod.mk.injEq] at hmem
      obtain ⟨rfl, rfl, rfl⟩ := hmem
      cases sent with
      | true => rfl
      | false => exact absurd hthere (htold.gone n _ m carries hd).2

/-- A client asks for a login and for a trust change, and the broker is
done before the person is. -/
def loginAndTrust : List FrontendInput :=
  [connects] ++ sendsRequest 1 [4, 7] [] quietOutside ++ sendsRequest 1 [2, 8] [] quietOutside ++
    [.broker 0 (.ok .loggedIn), .run quietOutside]

theorem one_answer_loginAndTrust :
    ∃ s i, (frontend plainAgent).run (.start 0) loginAndTrust = some s ∧
      s.requests[0]? = some i ∧ AnsweredOnce s 0 i ∧ repliesTo 0 s.log = [(1, .ack 7, true)] ∧
      repliesTo 1 s.log = [] ∧ s.waitsFor 1 = 1 := by
  have hanswered : ∀ s i, (frontend plainAgent).run (.start 0) loginAndTrust = some s →
      s.requests[0]? = some i → AnsweredOnce s 0 i :=
    fun s i hrun hi => (one_answer ⟨_, _, ⟨0, rfl⟩, hrun⟩).1 0 i hi
  exact ⟨_, _, rfl, rfl, hanswered _ _ rfl rfl, rfl, rfl, rfl⟩

end Frontend

end LibreDarwin
