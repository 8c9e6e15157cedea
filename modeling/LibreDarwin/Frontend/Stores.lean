import LibreDarwin.Frontend.Owned

/-!
# What a turn does to the stores

The owner map, the recovery store and the set of waiting questions change
in few turns, and each of them says so in the log. `StoreTurn` lists them
once, and the theorems about what the stores hold of a client are a case
analysis of it.
-/

namespace LibreDarwin

namespace Frontend

open Wire Transport Script

variable {V Trust : Type*} {A : Agent V Trust} {o : Outside} {s t : FrontendState V}

/-- A deed by which something is kept, or is kept no longer. -/
def Deed.Stores : Deed → Prop
  | .stashed _ _ _ | .pruned _ | .evictedSignResult _ | .evictedClient _ => True
  | _ => False

/-- Whether the loop runs a block. -/
def FrontendInput.runs : FrontendInput → Bool
  | .run _ => true
  | _ => false

/-- **What a turn does to the stores**, and what it writes down. -/
inductive StoreTurn (s : FrontendState V) (input : FrontendInput) (t : FrontendState V)
    (deeds : List Deed) : Prop
  /-- nothing -/
  | same (howners : t.opOwners = s.opOwners) (hresults : t.signResults = s.signResults)
      (hconfirms : t.confirmsInFlight = s.confirmsInFlight) (hdeeds : ∀ d ∈ deeds, ¬ d.Stores)
  /-- a launch enters its owner -/
  | entered {i : Inbound} {op : OpId} (hi : Arrives s i) (hfresh : s.ops op = none)
      (howners : t.opOwners = Function.update s.opOwners op (some i.caller))
      (hresults : t.signResults = s.signResults)
      (hconfirms : t.confirmsInFlight = s.confirmsInFlight) (hdeeds : ∀ d ∈ deeds, ¬ d.Stores)
  /-- a client has a question -/
  | asked {i : Inbound} (hi : Arrives s i) (howners : t.opOwners = s.opOwners)
      (hresults : t.signResults = s.signResults)
      (hconfirms : t.confirmsInFlight = i.caller :: s.confirmsInFlight)
      (hdeeds : ∀ d ∈ deeds, ¬ d.Stores)
  /-- and has it no longer -/
  | answered {caller : CallerToken} (howners : t.opOwners = s.opOwners)
      (hresults : t.signResults = s.signResults)
      (hconfirms : t.confirmsInFlight = s.confirmsInFlight.filter fun c => c ≠ caller)
      (hdeeds : ∀ d ∈ deeds, ¬ d.Stores)
  /-- a signed document is stashed -/
  | stashed {op : OpId} {owner : CallerToken} {artifact : SignedArtifact} {rest : List Block}
      (hruns : input.runs = true) (hposted : s.posted = .stash op owner artifact :: rest)
      (halive : s.alive = true)
      (hgoing : s.transport.loopQuiesced = false) (howners : t.opOwners = s.opOwners)
      (hresults : t.signResults = Function.update s.signResults op (some ⟨artifact, owner⟩))
      (hconfirms : t.confirmsInFlight = s.confirmsInFlight)
      (hdeeds : deeds = [.stashed op owner artifact])
  /-- the owner of a finished operation leaves -/
  | pruned {op : OpId} {rest : List Block} (hposted : s.posted = .prune op :: rest)
      (howners : t.opOwners = Function.update s.opOwners op none)
      (hresults : t.signResults = s.signResults)
      (hconfirms : t.confirmsInFlight = s.confirmsInFlight) (hdeeds : deeds = [.pruned op])
  /-- a document's time is over -/
  | expired {op : OpId} {rest : List Block} (hposted : s.posted = .evictSignResult op :: rest)
      (howners : t.opOwners = s.opOwners)
      (hresults : t.signResults = Function.update s.signResults op none)
      (hconfirms : t.confirmsInFlight = s.confirmsInFlight)
      (hdeeds : deeds = [.evictedSignResult op])
  /-- a client's sweep -/
  | evicted {caller : CallerToken} {rest : List Block} (hposted : s.posted = .evictClient caller :: rest)
      (howners : t.opOwners = fun op => (s.opOwners op).filter fun owner => owner ≠ caller)
      (hresults : t.signResults =
        fun op => (s.signResults op).filter fun record => record.owner ≠ caller)
      (hconfirms : t.confirmsInFlight = s.confirmsInFlight.filter fun c => c ≠ caller)
      (hdeeds : deeds = [.evictedClient caller])

/-- A handler's script keeps nothing. -/
theorem not_stores_handle {i : Inbound} {n : ℕ} : ∀ d ∈ (handle A o s n i).log, ¬ d.Stores := by
  intro d hd
  obtain ⟨φ, hrun, -⟩ := handle_refuses (A := A) (o := o) (s := s) (n := n) (i := i)
  have hnumber := number_of_run hrun hd
  cases d <;> simp [Deed.number?, Deed.Stores] at hnumber ⊢

theorem not_stores_emittedDeeds (op : OpId) (blocks : List Block) :
    ∀ d ∈ emittedDeeds op blocks, ¬ d.Stores := by
  intro d hd
  simp only [emittedDeeds, List.mem_filterMap] at hd
  obtain ⟨block, -, heq⟩ := hd
  cases block <;> simp at heq
  subst heq
  exact id

/-- **Every turn is one of these.** -/
theorem FrontendTurn.stores {input : FrontendInput} (hturn : FrontendTurn A s input t) :
    ∃ deeds, t.log = s.log ++ deeds ∧ StoreTurn s input t deeds := by
  -- a dispatch: its script, and what it ends with
  have hscript : ∀ {o : Outside} {i : Inbound} {ends : List Deed}, (∀ d ∈ ends, ¬ d.Stores) →
      ∀ d ∈ (handle A o s s.requests.length i).log ++ ends, ¬ d.Stores := by
    intro o i ends hends d hd
    exact (List.mem_append.1 hd).elim (not_stores_handle d) (hends d)
  cases hturn with
  | idle => exact ⟨[], (List.append_nil _).symm, .same rfl rfl rfl (by simp)⟩
  | replied hi hsaying =>
    exact ⟨_, List.append_assoc .., .same rfl rfl rfl (hscript (by simp [Deed.Stores]))⟩
  | changed hi hok =>
    exact ⟨_, List.append_assoc .., .same rfl rfl rfl (hscript (by simp [Deed.Stores]))⟩
  | @launched event o i hi target spec onSignArtifact hok op early hlaunched hfresh =>
    set x : Operation := ⟨s.requests.length, i.connId, i.caller, onSignArtifact, false⟩
    set out := emitAll o.anonFdFromBytes op x early
    refine ⟨(handle A o s s.requests.length i).log ++
      ([.launched s.requests.length op target spec] ++ emittedDeeds op out.1 ++
        [.replied s.requests.length i.connId (.opStarted i.request.req op) none true]), ?_,
      .entered hi hfresh rfl rfl rfl (hscript fun d hd => ?_)⟩
    · simp [FrontendState.did, FrontendState.emitted, FrontendState.handled, out, x]
    · simp only [List.mem_append, List.mem_singleton] at hd
      rcases hd with (rfl | hmem) | rfl
      · exact id
      · exact not_stores_emittedDeeds op _ d hmem
      · exact id
  | asked hi hok hcopy hfree =>
    exact ⟨_, List.append_assoc .., .asked hi rfl rfl rfl (hscript (by simp [Deed.Stores]))⟩
  | brokered hi hok =>
    exact ⟨_, List.append_assoc .., .same rfl rfl rfl (hscript (by simp [Deed.Stores]))⟩
  | answer hask => exact ⟨_, rfl, .same rfl rfl rfl (by simp [Deed.Stores])⟩
  | emit hx e anonFdFromBytes =>
    exact ⟨_, rfl, .same rfl rfl rfl (not_stores_emittedDeeds _ _)⟩
  | broker hcall => exact ⟨[], (List.append_nil _).symm, .same rfl rfl rfl (by simp)⟩
  | due hop => exact ⟨[], (List.append_nil _).symm, .same rfl rfl rfl (by simp)⟩
  | dropped hposted hwhy => exact ⟨[], (List.append_nil _).symm, .same rfl rfl rfl (by simp)⟩
  | reply hposted hcan => exact ⟨_, rfl, .same rfl rfl rfl (by simp [Deed.Stores])⟩
  | event hposted hcan => exact ⟨_, rfl, .same rfl rfl rfl (by simp [Deed.Stores])⟩
  | confirmed hposted hcan halive => exact ⟨_, rfl, .answered rfl rfl rfl (by simp [Deed.Stores])⟩
  | declined hposted hcan halive hverdict =>
    exact ⟨_, rfl, .answered rfl rfl rfl (by simp [Deed.Stores])⟩
  | stashed hposted hcan halive =>
    exact ⟨_, rfl, .stashed rfl hposted halive hcan.1 rfl rfl rfl rfl⟩
  | pruned hposted hcan halive => exact ⟨_, rfl, .pruned hposted rfl rfl rfl rfl⟩
  | expired hposted hcan halive => exact ⟨_, rfl, .expired hposted rfl rfl rfl rfl⟩
  | evicted hposted hcan halive => exact ⟨_, rfl, .evicted hposted rfl rfl rfl rfl⟩
  | destroy => exact ⟨[], (List.append_nil _).symm, .same rfl rfl rfl (by simp)⟩

/-- An operation whose finished sink ran on the loop has no owner. -/
def Pruned (s : FrontendState V) : Prop := ∀ op, .pruned op ∈ s.log → s.opOwners op = none

theorem Pruned.turn (h : Pruned s) (hk : Known s) {input : FrontendInput}
    (hturn : FrontendTurn A s input t) : Pruned t := by
  obtain ⟨deeds, hlog, hstore⟩ := hturn.stores
  intro op hop
  rw [hlog] at hop
  have hold : (∀ d ∈ deeds, ¬ d.Stores) → s.opOwners op = none := fun hdeeds =>
    (List.mem_append.1 hop).elim (h op) fun hnew => absurd trivial (hdeeds _ hnew)
  have hsingle : ∀ {d}, deeds = [d] → d ≠ .pruned op → s.opOwners op = none := by
    rintro d rfl hne
    exact (List.mem_append.1 hop).elim (h op) fun hnew => absurd (List.mem_singleton.1 hnew).symm hne
  cases hstore with
  | same howners hresults hconfirms hdeeds => rw [howners, hold hdeeds]
  | @entered i op' hi hfresh howners hresults hconfirms hdeeds =>
    -- an operation that was pruned was launched, and is not launched again
    have hne : op ≠ op' := by
      rintro rfl
      have hmem : .pruned op ∈ s.log :=
        (List.mem_append.1 hop).resolve_right fun hnew => absurd trivial (hdeeds _ hnew)
      obtain ⟨x, hx, -⟩ := hk.log _ hmem
      rw [hfresh] at hx
      cases hx
    rw [howners, Function.update_of_ne hne, hold hdeeds]
  | asked hi howners hresults hconfirms hdeeds => rw [howners, hold hdeeds]
  | answered howners hresults hconfirms hdeeds => rw [howners, hold hdeeds]
  | stashed hruns hposted halive hgoing howners hresults hconfirms hdeeds =>
    rw [howners, hsingle hdeeds (by simp)]
  | @pruned op' rest hposted howners hresults hconfirms hdeeds =>
    rw [howners]
    by_cases heq : op = op'
    · rw [heq, Function.update_self]
    · rw [Function.update_of_ne heq]
      exact hsingle hdeeds (by simpa using Ne.symm heq)
  | expired hposted howners hresults hconfirms hdeeds => rw [howners, hsingle hdeeds (by simp)]
  | evicted hposted howners hresults hconfirms hdeeds =>
    have hnone := hsingle hdeeds (by simp)
    simp [howners, hnone]

end Frontend

end LibreDarwin
