import LibreDarwin.Frontend.Stores

/-!
# A client that is gone

A client's disconnect is heard once, and posts one sweep of what the
frontend holds of it. Ownership and a question are entered in the handler
of a request, whose connection is open, and whoever was swept is gone for
good (`Known`), so neither comes back. A signed document is put into the
store by a block a worker posted, which asks nobody whether the client is
still there: what is kept is kept in the runs where no such block comes
late (`departed_forgotten`), and a run with a late one shows what it leaves
(`departed_artifact`).
-/

namespace LibreDarwin

namespace Frontend

open Wire Transport Script

variable {V Trust : Type*} {A : Agent V Trust} {o : Outside} {s t : FrontendState V}

/-- The clients whose eviction a log has. -/
def departedIn (log : List Deed) : List CallerToken :=
  log.filterMap fun
    | .evictedClient caller => some caller
    | _ => none

namespace FrontendState

variable (s : FrontendState V)

/-- The clients whose eviction was done. -/
def departed : List CallerToken := departedIn s.log

/-- **What the frontend holds of a client**: an operation in the owner map,
a signed document in the recovery store, a question that waits. -/
inductive Holds (caller : CallerToken) : Prop
  | operation (op : OpId) (h : s.opOwners op = some caller)
  | artifact (op : OpId) (record : SignRecord) (h : s.signResults op = some record)
      (howner : record.owner = caller)
  | question (h : caller ∈ s.confirmsInFlight)

/-- Whom the loop stashes a signed document for next. -/
def stashesFor : Option CallerToken :=
  match s.posted with
  | .stash _ owner _ :: _ => if s.alive && !s.transport.loopQuiesced then some owner else none
  | _ => none

/-- The loop stashes a signed document of a client whose eviction was
done. -/
def StashesLate (input : FrontendInput) : Prop :=
  input.runs = true ∧ ∃ caller ∈ s.departed, s.stashesFor = some caller

instance (input : FrontendInput) : Decidable (s.StashesLate input) :=
  inferInstanceAs (Decidable (_ ∧ _))

end FrontendState

theorem departedIn_append (a b : List Deed) :
    departedIn (a ++ b) = departedIn a ++ departedIn b := List.filterMap_append

theorem mem_departedIn {log : List Deed} {caller : CallerToken} :
    caller ∈ departedIn log ↔ .evictedClient caller ∈ log := by
  simp only [departedIn, List.mem_filterMap]
  constructor
  · rintro ⟨d, hd, heq⟩
    cases d <;> simp at heq
    subst heq
    exact hd
  · intro hd
    exact ⟨_, hd, rfl⟩

theorem evicted_of_departed {callers : List CallerToken} (h : s.departed = callers)
    {caller : CallerToken} (hmem : caller ∈ callers) : .evictedClient caller ∈ s.log := by
  subst h
  exact mem_departedIn.1 hmem

/-- What is no eviction departs nobody. -/
theorem departedIn_eq_nil {log : List Deed} (h : ∀ caller, .evictedClient caller ∉ log) :
    departedIn log = [] := by
  rw [List.eq_nil_iff_forall_not_mem]
  intro caller hmem
  exact h caller (mem_departedIn.1 hmem)

/-- Whoever departed is gone. -/
theorem gone_of_departed (hk : Known s) {caller : CallerToken} (h : caller ∈ s.departed) :
    s.Gone caller := hk.log _ (mem_departedIn.1 h)

/-- So a request at the sink is of a client that did not depart. -/
theorem Arrives.not_departed (hk : Known s) {i : Inbound} (hi : Arrives s i) :
    i.caller ∉ s.departed := by
  intro hmem
  obtain ⟨c, hc, -, hgone⟩ := gone_of_departed hk hmem
  rw [hi.caller] at hc
  rw [← callerToken_injective hc] at hgone
  exact hgone hi.sends.2

/-- What comes late after a move of the transport, came late before it. -/
theorem FrontendState.StashesLate.before (hm : Shifted A s t) {input : FrontendInput}
    (h : t.StashesLate input) : s.StashesLate input := by
  obtain ⟨hruns, caller, hcaller, hnext⟩ := h
  refine ⟨hruns, caller, ?_, ?_⟩
  · unfold FrontendState.departed at hcaller ⊢
    rwa [hm.log] at hcaller
  · unfold FrontendState.stashesFor at hnext ⊢
    split at hnext
    next op owner artifact rest hposted =>
      obtain ⟨rest', hs⟩ := hm.head hposted (by simp)
      rw [hs]
      simp only [Bool.and_eq_true, Bool.not_eq_true', Option.ite_none_right_eq_some] at hnext ⊢
      exact ⟨⟨hm.alive ▸ hnext.1.1, hm.going hnext.1.2⟩, hnext.2⟩
    next => cases hnext

/-- **Whoever departed is forgotten.** -/
def Forgotten (s : FrontendState V) : Prop := ∀ caller ∈ s.departed, ¬ s.Holds caller

namespace Forgotten

/-- Nobody departs, and what is new is of those who did not. -/
theorem keep (h : Forgotten s) {deeds : List Deed} (hlog : t.log = s.log ++ deeds)
    (hdeeds : departedIn deeds = [])
    (hnew : ∀ caller, t.Holds caller → s.Holds caller ∨ caller ∉ s.departed) : Forgotten t := by
  have hsame : t.departed = s.departed := by
    unfold FrontendState.departed
    rw [hlog, departedIn_append, hdeeds, List.append_nil]
  intro caller hcaller hholds
  rw [hsame] at hcaller
  rcases hnew caller hholds with hold | hfresh
  · exact h caller hcaller hold
  · exact hfresh hcaller

/-- Nothing new is held. -/
theorem fewer (h : Forgotten s) {deeds : List Deed} (hlog : t.log = s.log ++ deeds)
    (hdeeds : departedIn deeds = [])
    (howners : ∀ op caller, t.opOwners op = some caller → s.opOwners op = some caller)
    (hresults : ∀ op record, t.signResults op = some record → s.signResults op = some record)
    (hconfirms : t.confirmsInFlight ⊆ s.confirmsInFlight) : Forgotten t := by
  refine h.keep hlog hdeeds fun caller hholds => .inl ?_
  cases hholds with
  | operation op hop => exact .operation op (howners op caller hop)
  | artifact op record hrecord howner => exact .artifact op record (hresults op record hrecord) howner
  | question hmem => exact .question (hconfirms hmem)

/-- The sweep forgets one client more. -/
theorem swept (h : Forgotten s) {caller : CallerToken} (hlog : t.log = s.log ++ [.evictedClient caller])
    (hleft : ∀ c, t.Holds c → s.Holds c ∧ c ≠ caller) : Forgotten t := by
  intro c hc hholds
  unfold FrontendState.departed at hc
  rw [hlog, departedIn_append, List.mem_append] at hc
  obtain ⟨hold, hne⟩ := hleft c hholds
  rcases hc with hc | hc
  · exact h c hc hold
  · exact hne (List.mem_singleton.1 hc)

theorem moved (hm : Shifted A s t) (h : Forgotten s) : Forgotten t := by
  have hlog : t.log = s.log ++ [] := by rw [hm.log, List.append_nil]
  refine h.fewer hlog rfl ?_ ?_ ?_
  · rw [hm.opOwners]
    exact fun _ _ hop => hop
  · rw [hm.signResults]
    exact fun _ _ hrecord => hrecord
  · rw [hm.confirmsInFlight]
    exact List.Subset.refl _

/-- **A turn that stashes nothing late keeps it.** -/
theorem turn (h : Forgotten s) (hk : Known s) {input : FrontendInput}
    (hlate : ¬ s.StashesLate input) (hturn : FrontendTurn A s input t) : Forgotten t := by
  obtain ⟨deeds, hlog, hstore⟩ := hturn.stores
  have hquiet : (∀ d ∈ deeds, ¬ d.Stores) → departedIn deeds = [] := fun hdeeds =>
    departedIn_eq_nil fun caller hmem => hdeeds _ hmem trivial
  cases hstore with
  | same howners hresults hconfirms hdeeds =>
    exact h.fewer hlog (hquiet hdeeds) (by simp [howners]) (by simp [hresults]) (by simp [hconfirms])
  | @entered i op hi hfresh howners hresults hconfirms hdeeds =>
    refine h.keep hlog (hquiet hdeeds) fun caller hholds => ?_
    cases hholds with
    | operation op' hop =>
      rw [howners] at hop
      rcases Known.of_update hop with ⟨-, rfl⟩ | hold
      · exact .inr (hi.not_departed hk)
      · exact .inl (.operation op' hold)
    | artifact op' record hrecord howner => exact .inl (.artifact op' record (hresults ▸ hrecord) howner)
    | question hmem => exact .inl (.question (hconfirms ▸ hmem))
  | @asked i hi howners hresults hconfirms hdeeds =>
    refine h.keep hlog (hquiet hdeeds) fun caller hholds => ?_
    cases hholds with
    | operation op hop => exact .inl (.operation op (howners ▸ hop))
    | artifact op record hrecord howner => exact .inl (.artifact op record (hresults ▸ hrecord) howner)
    | question hmem =>
      rw [hconfirms] at hmem
      rcases List.mem_cons.1 hmem with rfl | hold
      · exact .inr (hi.not_departed hk)
      · exact .inl (.question hold)
  | answered howners hresults hconfirms hdeeds =>
    refine h.fewer hlog (hquiet hdeeds) (by simp [howners]) (by simp [hresults]) ?_
    rw [hconfirms]
    exact List.filter_sublist.subset
  | @stashed op owner artifact rest hruns hposted halive hgoing howners hresults hconfirms hdeeds =>
    subst hdeeds
    refine h.keep hlog rfl fun caller hholds => ?_
    cases hholds with
    | operation op' hop => exact .inl (.operation op' (howners ▸ hop))
    | artifact op' record hrecord howner =>
      rw [hresults] at hrecord
      rcases Known.of_update hrecord with ⟨-, rfl⟩ | hold
      · -- the document that just came is of a client that has not departed
        subst howner
        refine .inr fun hdeparted => hlate ⟨hruns, owner, hdeparted, ?_⟩
        simp [FrontendState.stashesFor, hposted, halive, hgoing]
      · exact .inl (.artifact op' record hold howner)
    | question hmem => exact .inl (.question (hconfirms ▸ hmem))
  | pruned hposted howners hresults hconfirms hdeeds =>
    subst hdeeds
    refine h.fewer hlog rfl (fun op caller hop => ?_) (by simp [hresults]) (by simp [hconfirms])
    rw [howners] at hop
    exact Known.of_erase hop
  | expired hposted howners hresults hconfirms hdeeds =>
    subst hdeeds
    refine h.fewer hlog rfl (by simp [howners]) (fun op record hrecord => ?_) (by simp [hconfirms])
    rw [hresults] at hrecord
    exact Known.of_erase hrecord
  | @evicted caller rest hposted howners hresults hconfirms hdeeds =>
    subst hdeeds
    refine h.swept hlog fun c hholds => ?_
    -- what is left was held before, and is not the swept client's
    cases hholds with
    | operation op hop =>
      rw [howners] at hop
      obtain ⟨hold, hne⟩ := Option.filter_eq_some_iff.1 hop
      exact ⟨.operation op hold, by simpa using hne⟩
    | artifact op record hrecord howner =>
      rw [hresults] at hrecord
      obtain ⟨hold, hne⟩ := Option.filter_eq_some_iff.1 hrecord
      exact ⟨.artifact op record hold howner, by simpa [howner] using hne⟩
    | question hmem =>
      rw [hconfirms] at hmem
      obtain ⟨hold, hne⟩ := List.mem_filter.1 hmem
      exact ⟨.question hold, by simpa using hne⟩

end Forgotten

/-- **A client that is gone is forgotten**, in every run in which no signed
document of a client is stashed behind the client's eviction. -/
theorem departed_forgotten {store : V} {is : List FrontendInput}
    (h : (frontend A).RunWhere (fun s input => ¬ s.StashesLate input) (.start store) is s) :
    ∀ caller, .evictedClient caller ∈ s.log →
      (∀ op, s.opOwners op ≠ some caller) ∧
      (∀ op record, s.signResults op = some record → record.owner ≠ caller) ∧
      caller ∉ s.confirmsInFlight := by
  have hforgotten : Forgotten s := by
    refine closed_known.runWhere (I := Forgotten) ?_ (fun s t _ _ hm _ h => h.moved hm)
      (fun s input t _ hlate hturn hk h => h.turn hk hlate hturn)
      (Machine.Reachable.of_init ⟨store, rfl⟩) (by rintro caller ⟨⟩) h
    intro s t input hm hlate
    exact fun hlate' => hlate (hlate'.before hm)
  intro caller hcaller
  have hnone := hforgotten caller (mem_departedIn.2 hcaller)
  exact ⟨fun op hop => hnone (.operation op hop),
    fun op record hrecord howner => hnone (.artifact op record hrecord howner),
    fun hmem => hnone (.question hmem)⟩

/-! ## Two signatures -/

/-- What the worker of a signature emits. -/
def signedDocument : Emission := .result (.artifact [1]) ⟨"pades", "b-b", false, true⟩

/-- A client signs a document, and leaves after it is stashed. -/
def signsAndLeaves : List FrontendInput :=
  [connects, insertsCard] ++ sendsRequest 1 [3, 7] [4] (plainOutside 5 []) ++
    [.emit 5 signedDocument fun _ => some 9, .run quietOutside, .run quietOutside] ++ leaves 1 ++
    [.run quietOutside]

theorem departed_forgotten_signs :
    ∃ s, (frontend plainAgent).run (.start 0) signsAndLeaves = some s ∧ s.delayed = [5] ∧
      .evictedClient (callerToken 1) ∈ s.log ∧ (∀ op, s.opOwners op ≠ some (callerToken 1)) ∧
      (∀ op record, s.signResults op = some record → record.owner ≠ callerToken 1) ∧
      callerToken 1 ∉ s.confirmsInFlight := by
  have hkept : ∀ s, ((frontend plainAgent).guarded fun s input => ¬ s.StashesLate input).run
      (.start 0) signsAndLeaves = some s → s.departed = [callerToken 1] →
      .evictedClient (callerToken 1) ∈ s.log ∧ (∀ op, s.opOwners op ≠ some (callerToken 1)) ∧
      (∀ op record, s.signResults op = some record → record.owner ≠ callerToken 1) ∧
      callerToken 1 ∉ s.confirmsInFlight := by
    intro s hrun hdeparted
    have hevicted := evicted_of_departed hdeparted List.mem_cons_self
    exact ⟨hevicted, departed_forgotten (Machine.runWhere_of_guarded hrun) _ hevicted⟩
  exact ⟨_, rfl, rfl, hkept _ rfl rfl⟩

/-- The same, and the worker is done when the client has left. -/
def leavesAndSigns : List FrontendInput :=
  [connects, insertsCard] ++ sendsRequest 1 [3, 7] [4] (plainOutside 5 []) ++ leaves 1 ++
    [.run quietOutside, .emit 5 signedDocument fun _ => some 9, .run quietOutside]

/-- **A document outlives its client's eviction.** -/
theorem departed_artifact :
    ∃ s record, (frontend plainAgent).run (.start 0) leavesAndSigns = some s ∧
      .evictedClient (callerToken 1) ∈ s.log ∧ s.signResults 5 = some record ∧
      record.owner = callerToken 1 :=
  ⟨_, _, rfl, evicted_of_departed rfl (List.mem_singleton.2 rfl), rfl, rfl⟩

end Frontend

end LibreDarwin
