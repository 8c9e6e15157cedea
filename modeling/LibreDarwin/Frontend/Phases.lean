import LibreDarwin.Frontend.Life

/-!
# What a phase says about the past

The life of a request has one way into each phase, so a phase says which
deeds came before it. `next_*` says what each deed takes and makes of a
phase; `run_*` reads a run that ends in a phase back to the phase before.
From these, what must have been done before a deed of a request is done is
read off the run up to it.
-/

namespace LibreDarwin

namespace Frontend

open Wire Transport Script

variable {V Trust : Type*} {C : AgentCore V Trust} {n : ℕ} {i : Inbound} {φ φ' : Phase}

/-! ## What a deed takes and makes -/

section Next

variable {m : ℕ}

theorem next_authorized {action : AuthAction} {outcome : AuthorizationOutcome} :
    φ.next C i (.authorized m action outcome) = some φ' ↔
      φ = .entered ∧ action = (i.request.body.gate C).getD .configure ∧
        φ' = if outcome = .granted then .authorized action else .refused := by
  simp [Phase.next, eq_comm, and_assoc]

theorem next_allowed {ok : Bool} :
    φ.next C i (.allowed m ok) = some φ' ↔
      ∃ action, φ = .authorized action ∧ i.request.body.gate C = some action ∧
        φ' = if ok then .allowed action [] else .refused := by
  cases φ <;> simp [Phase.next, eq_comm]

theorem next_readFd {fd : Fd} {outcome : ReadOutcome} :
    φ.next C i (.readFd m fd outcome) = some φ' ↔
      ∃ action reads, φ = .allowed action reads ∧
        ((∃ bytes, documentOf outcome = .ok bytes ∧ φ' = .allowed action (reads ++ [(fd, bytes)])) ∨
          (∃ code, documentOf outcome = .error code) ∧ φ' = .refused) := by
  cases φ with
  | allowed action reads =>
    simp only [Phase.next]
    cases documentOf outcome <;> simp [eq_comm]
  | _ => simp [Phase.next]

theorem next_launched {op : OpId} {target : OperationTarget} {spec : LaunchSpec} :
    φ.next C i (.launched m op target spec) = some φ' ↔
      φ.Launches C i spec ∧ φ' = .launched op := by
  simp [Phase.next, eq_comm]

theorem next_asked {connId : ConnId} {req : ℕ} {key : String} :
    φ.next C i (.asked m connId req key) = some φ' ↔
      φ = .allowed .configureTrust [] ∧ connId = i.connId ∧ req = i.request.req ∧
        i.change?.map Apply.key = some key ∧ φ' = .asked := by
  simp only [Phase.next, Option.ite_none_right_eq_some, Option.some.injEq, and_assoc]
  simp only [eq_comm (a := Phase.asked)]

theorem next_answered {verdict : PromptReplyStatus} :
    φ.next C i (.answered m verdict) = some φ' ↔ φ = .asked ∧ φ' = .answered verdict := by
  simp [Phase.next, eq_comm]

theorem next_applied {connId : ConnId} {req : ℕ} {confirmed : Bool} {effects : List Effect} :
    φ.next C i (.applied m connId req confirmed effects) = some φ' ↔
      φ.Applies C i confirmed ∧ connId = i.connId ∧ req = i.request.req ∧
        (∃ x ∈ i.change?, x.Does effects) ∧ φ' = .applied := by
  simp only [Phase.next, Option.ite_none_right_eq_some, Option.some.injEq, and_assoc]
  simp only [eq_comm (a := Phase.applied)]

theorem next_brokered {verb : BrokerVerb} :
    φ.next C i (.brokered m verb) = some φ' ↔ φ = .entered ∧ φ' = .brokered := by
  simp [Phase.next, eq_comm]

/-- **The phases a deed leads to.** -/
theorem next_phase {d : Deed} (h : φ.next C i d = some φ') :
    match d with
    | .authorized _ action _ => φ' = .authorized action ∨ φ' = .refused
    | .allowed _ _ => (∃ action, φ' = .allowed action []) ∨ φ' = .refused
    | .readFd _ _ _ => (∃ action reads, φ' = .allowed action reads) ∨ φ' = .refused
    | .cancel _ _ _ | .fetched _ _ _ => φ = .entered ∧ φ' = .entered
    | .launched _ op _ _ => φ' = .launched op
    | .asked _ _ _ _ => φ' = .asked
    | .answered _ verdict => φ' = .answered verdict
    | .applied _ _ _ _ _ => φ' = .applied
    | .brokered _ _ => φ' = .brokered
    | .replied _ _ _ _ _ => φ' = .over
    | _ => False := by
  cases d with
  | authorized m action outcome =>
    obtain ⟨-, -, rfl⟩ := next_authorized.1 h
    by_cases hgranted : outcome = .granted
    · exact .inl (if_pos hgranted)
    · exact .inr (if_neg hgranted)
  | allowed m ok =>
    obtain ⟨action, -, -, rfl⟩ := next_allowed.1 h
    cases ok with
    | true => exact .inl ⟨action, rfl⟩
    | false => exact .inr rfl
  | readFd m fd outcome =>
    obtain ⟨action, reads, -, ⟨bytes, -, rfl⟩ | ⟨-, rfl⟩⟩ := next_readFd.1 h
    · exact .inl ⟨action, _, rfl⟩
    · exact .inr rfl
  | cancel m op called =>
    simp only [Phase.next, Option.ite_none_right_eq_some, Option.some.injEq] at h
    exact ⟨h.1, h.2.symm⟩
  | fetched m op fits =>
    simp only [Phase.next, Option.ite_none_right_eq_some, Option.some.injEq] at h
    exact ⟨h.1, h.2.symm⟩
  | launched m op target spec => exact (next_launched.1 h).2
  | asked m connId req key => exact (next_asked.1 h).2.2.2.2
  | answered m verdict => exact (next_answered.1 h).2
  | applied m connId req confirmed effects => exact (next_applied.1 h).2.2.2.2
  | brokered m verb => exact (next_brokered.1 h).2
  | replied m connId reply carries sent => exact (next_replied.1 h).2.2.2
  | _ => simp [Phase.next] at h

end Next

/-! ## The way into a phase -/

section Run

variable {deeds : List Deed}

/-- A run of the life of a request ends with the deed that led into its
phase. -/
theorem run_life_snoc (h : (life C i n).run .entered deeds = some φ) (hφ : φ ≠ .entered) :
    ∃ before d φ₀, deeds = before ++ [d] ∧ (life C i n).run .entered before = some φ₀ ∧
      d.number? = some n ∧ φ₀.next C i d = some φ := by
  rcases List.eq_nil_or_concat deeds with rfl | ⟨before, d, rfl⟩
  · exact absurd (Option.some.inj h).symm hφ
  · rw [List.concat_eq_append] at h ⊢
    obtain ⟨φ₀, hrun, hstep⟩ := Machine.run_snoc_eq_some.1 h
    obtain ⟨hnumber, hnext⟩ := life_step.1 hstep
    exact ⟨before, d, φ₀, rfl, hrun, hnumber, hnext⟩

/-- **Every deed of a run is the request's own.** -/
theorem number_of_run (h : (life C i n).run φ deeds = some φ') {d : Deed} (hd : d ∈ deeds) :
    d.number? = some n := by
  induction deeds generalizing φ with
  | nil => cases hd
  | cons d' deeds ih =>
    obtain ⟨φ₁, hstep, hrun⟩ := Machine.run_cons_eq_some.1 h
    rcases List.mem_cons.1 hd with rfl | hd
    · exact (life_step.1 hstep).1
    · exact ih hrun hd

/-- A lookup is all there is before the first gate. -/
def Deed.IsLookup : Deed → Prop
  | .cancel _ _ _ | .fetched _ _ _ => True
  | _ => False

theorem run_entered (h : (life C i n).run .entered deeds = some .entered) :
    ∀ d ∈ deeds, d.IsLookup := by
  induction deeds using List.reverseRecOn with
  | nil => simp
  | append_singleton before d ih =>
    obtain ⟨φ₀, hrun, hstep⟩ := Machine.run_snoc_eq_some.1 h
    have hphase := next_phase (life_step.1 hstep).2
    have hlookup : d.IsLookup ∧ φ₀ = .entered := by
      cases d <;> simp at hphase
      all_goals exact ⟨trivial, hphase⟩
    obtain ⟨hlookup, rfl⟩ := hlookup
    intro d' hd'
    rcases List.mem_append.1 hd' with hd' | hd'
    · exact ih hrun d' hd'
    · rw [List.mem_singleton.1 hd']
      exact hlookup

theorem run_authorized {action : AuthAction}
    (h : (life C i n).run .entered deeds = some (.authorized action)) :
    ∃ looked, deeds = looked ++ [.authorized n action .granted] ∧ (∀ d ∈ looked, d.IsLookup) ∧
      action = (i.request.body.gate C).getD .configure := by
  obtain ⟨before, d, φ₀, rfl, hrun, hnumber, hnext⟩ := run_life_snoc h (by simp)
  have hphase := next_phase hnext
  cases d <;> simp at hphase
  next m action' outcome =>
    obtain rfl : m = n := by simpa [Deed.number?] using hnumber
    obtain ⟨rfl, haction, heq⟩ := next_authorized.1 hnext
    split at heq
    next hgranted =>
      cases heq
      subst hgranted
      exact ⟨before, rfl, run_entered hrun, haction⟩
    next => cases heq

/-- A document that was read, and is not empty. -/
def Deed.Reads (n : ℕ) (d : Deed) (read : Fd × Bytes) : Prop :=
  d = .readFd n read.1 (.ok read.2) ∧ read.2 ≠ []

theorem mem_opened {opened : List Deed} {reads : List (Fd × Bytes)}
    (h : List.Forall₂ (Deed.Reads n) opened reads) {r : Fd × Bytes} (hr : r ∈ reads) :
    .readFd n r.1 (.ok r.2) ∈ opened ∧ r.2 ≠ [] := by
  induction h with
  | nil => cases hr
  | cons hread _ ih =>
    rcases List.mem_cons.1 hr with rfl | hmem
    · exact ⟨hread.1 ▸ List.mem_cons_self, hread.2⟩
    · exact ⟨List.mem_cons_of_mem _ (ih hmem).1, (ih hmem).2⟩

theorem documentOf_eq_ok {outcome : ReadOutcome} {bytes : Bytes} :
    documentOf outcome = .ok bytes ↔ outcome = .ok bytes ∧ bytes ≠ [] := by
  cases outcome with
  | ok bytes' =>
    simp only [documentOf]
    split
    next hempty =>
      simp only [List.isEmpty_iff] at hempty
      simp only [reduceCtorEq, false_iff, not_and, not_not, ReadOutcome.ok.injEq]
      rintro rfl
      exact hempty
    next hempty =>
      simp only [List.isEmpty_iff] at hempty
      simp only [Except.ok.injEq, ReadOutcome.ok.injEq]
      exact ⟨fun heq => ⟨heq, heq ▸ hempty⟩, And.left⟩
  | _ => simp [documentOf]

/-- **Both gates are behind** a request that was allowed, and what was done
since are the reads of documents that will do. -/
theorem run_allowed {action : AuthAction} {reads : List (Fd × Bytes)}
    (h : (life C i n).run .entered deeds = some (.allowed action reads)) :
    ∃ looked opened, deeds = looked ++ [.authorized n action .granted, .allowed n true] ++ opened ∧
      (∀ d ∈ looked, d.IsLookup) ∧ i.request.body.gate C = some action ∧
      List.Forall₂ (Deed.Reads n) opened reads := by
  induction deeds using List.reverseRecOn generalizing reads with
  | nil => cases h
  | append_singleton before d ih =>
    obtain ⟨φ₀, hrun, hstep⟩ := Machine.run_snoc_eq_some.1 h
    obtain ⟨hnumber, hnext⟩ := life_step.1 hstep
    have hphase := next_phase hnext
    cases d <;> simp at hphase
    next m ok =>
      obtain rfl : m = n := by simpa [Deed.number?] using hnumber
      obtain ⟨action', rfl, hgate, heq⟩ := next_allowed.1 hnext
      cases ok with
      | true =>
        cases heq
        obtain ⟨looked, rfl, hlooked, -⟩ := run_authorized hrun
        exact ⟨looked, [], by simp, hlooked, hgate, .nil⟩
      | false => cases heq
    next m fd outcome =>
      obtain rfl : m = n := by simpa [Deed.number?] using hnumber
      obtain ⟨action', reads', rfl, ⟨bytes, hdoc, heq⟩ | ⟨-, heq⟩⟩ := next_readFd.1 hnext
      · cases heq
        obtain ⟨rfl, hbytes⟩ := documentOf_eq_ok.1 hdoc
        obtain ⟨looked, opened, rfl, hlooked, hgate, hopened⟩ := ih hrun
        refine ⟨looked, opened ++ [.readFd m fd (.ok bytes)], by simp, hlooked, hgate, ?_⟩
        exact List.rel_append hopened (.cons ⟨rfl, hbytes⟩ .nil)
      · cases heq

theorem run_asked (h : (life C i n).run .entered deeds = some .asked) :
    ∃ looked key, deeds = looked ++ [.authorized n .configureTrust .granted, .allowed n true,
        .asked n i.connId i.request.req key] ∧ (∀ d ∈ looked, d.IsLookup) ∧
      i.request.body.gate C = some .configureTrust ∧ i.change?.map Apply.key = some key := by
  obtain ⟨before, d, φ₀, rfl, hrun, hnumber, hnext⟩ := run_life_snoc h (by simp)
  have hphase := next_phase hnext
  cases d <;> simp at hphase
  next m connId req key =>
    obtain rfl : m = n := by simpa [Deed.number?] using hnumber
    obtain ⟨rfl, rfl, rfl, hkey, -⟩ := next_asked.1 hnext
    obtain ⟨looked, opened, rfl, hlooked, hgate, hopened⟩ := run_allowed hrun
    obtain rfl := List.forall₂_nil_right_iff.1 hopened
    exact ⟨looked, key, by simp, hlooked, hgate, hkey⟩

/-- **A person's answer** came to a question that was put after both gates
were open. -/
theorem run_answered {verdict : PromptReplyStatus}
    (h : (life C i n).run .entered deeds = some (.answered verdict)) :
    ∃ looked key, deeds = looked ++ [.authorized n .configureTrust .granted, .allowed n true,
        .asked n i.connId i.request.req key, .answered n verdict] ∧
      (∀ d ∈ looked, d.IsLookup) ∧ i.request.body.gate C = some .configureTrust ∧
      i.change?.map Apply.key = some key := by
  obtain ⟨before, d, φ₀, rfl, hrun, hnumber, hnext⟩ := run_life_snoc h (by simp)
  have hphase := next_phase hnext
  cases d <;> simp at hphase
  next m verdict' =>
    subst hphase
    obtain rfl : m = n := by simpa [Deed.number?] using hnumber
    obtain ⟨rfl, -⟩ := next_answered.1 hnext
    obtain ⟨looked, key, rfl, hlooked, hgate, hkey⟩ := run_asked hrun
    exact ⟨looked, key, by simp, hlooked, hgate, hkey⟩

end Run

/-! ## What cannot follow -/

/-- A deed that launches, asks a person or changes the store. -/
def Deed.Acts : Deed → Prop
  | .launched _ _ _ _ | .asked _ _ _ _ | .applied _ _ _ _ _ => True
  | _ => False

/-- The phases such a deed leads to, and those behind them. -/
def Phase.Acted : Phase → Prop
  | .launched _ | .asked | .answered _ | .applied | .over => True
  | _ => False

theorem acted_next {d : Deed} (h : φ.next C i d = some φ') (hφ : φ.Acted ∨ d.Acts) : φ'.Acted := by
  have hphase := next_phase h
  cases d with
  | authorized m action outcome =>
    obtain ⟨rfl, -⟩ := next_authorized.1 h
    exact hφ.elim False.elim False.elim
  | allowed m ok =>
    obtain ⟨action, rfl, -⟩ := next_allowed.1 h
    exact hφ.elim False.elim False.elim
  | readFd m fd outcome =>
    obtain ⟨action, reads, rfl, -⟩ := next_readFd.1 h
    exact hφ.elim False.elim False.elim
  | cancel m op called =>
    obtain ⟨rfl, -⟩ := hphase
    exact hφ.elim False.elim False.elim
  | fetched m op fits =>
    obtain ⟨rfl, -⟩ := hphase
    exact hφ.elim False.elim False.elim
  | brokered m verb =>
    obtain ⟨rfl, -⟩ := next_brokered.1 h
    exact hφ.elim False.elim False.elim
  | launched m op target spec => rw [hphase]; trivial
  | asked m connId req key => rw [hphase]; trivial
  | answered m verdict => rw [hphase]; trivial
  | applied m connId req confirmed effects => rw [hphase]; trivial
  | replied m connId reply carries sent => rw [hphase]; trivial
  | _ => exact hphase.elim

/-- **Whoever acted is past the gates.** -/
theorem acted_run {deeds : List Deed} (h : (life C i n).run φ deeds = some φ')
    (hφ : φ.Acted ∨ ∃ d ∈ deeds, d.Acts) : φ'.Acted := by
  induction deeds generalizing φ with
  | nil =>
    obtain rfl := Option.some.inj h
    simpa using hφ
  | cons d deeds ih =>
    obtain ⟨φ₁, hstep, hrun⟩ := Machine.run_cons_eq_some.1 h
    have hnext := (life_step.1 hstep).2
    refine ih hrun ?_
    rcases hφ with hφ | ⟨d', hd', hacts⟩
    · exact .inl (acted_next hnext (.inl hφ))
    · rcases List.mem_cons.1 hd' with rfl | hmem
      · exact .inl (acted_next hnext (.inr hacts))
      · exact .inr ⟨d', hmem, hacts⟩

/-- A handler's script acts on nothing. -/
theorem not_acts_handle {A : Agent V Trust} {o : Outside} {s : FrontendState V} {d : Deed}
    (hd : d ∈ (handle A o s n i).log) : ¬ d.Acts := by
  intro hacts
  obtain ⟨φ, hrun, hrefuses⟩ := handle_refuses (A := A) (o := o) (s := s) (n := n) (i := i)
  have hacted := acted_run hrun (.inr ⟨d, hd, hacts⟩)
  cases φ <;> first | exact hacted | exact hrefuses

/-- Once it was turned away, nothing is left to a request but its reply. -/
theorem run_from_refused {deeds : List Deed} (h : (life C i n).run .refused deeds = some φ) :
    ∀ d ∈ deeds, ∃ connId m carries sent, d = .replied n connId m carries sent := by
  cases deeds with
  | nil => simp
  | cons d deeds =>
    obtain ⟨φ₁, hstep, hrun⟩ := Machine.run_cons_eq_some.1 h
    obtain ⟨hnumber, hnext⟩ := life_step.1 hstep
    cases d with
    | replied m connId reply carries sent =>
      obtain rfl : m = n := by simpa [Deed.number?] using hnumber
      obtain ⟨-, -, -, rfl⟩ := next_replied.1 hnext
      cases deeds with
      | nil =>
        intro d hd
        exact ⟨connId, reply, carries, sent, List.mem_singleton.1 hd⟩
      | cons d' deeds =>
        obtain ⟨φ₂, hstep', -⟩ := Machine.run_cons_eq_some.1 hrun
        have hnext' := (life_step.1 hstep').2
        cases d' <;> simp [Phase.next, Phase.Launches, Phase.Replies, Phase.Applies] at hnext'
    | allowed m ok =>
      obtain ⟨action, heq, -⟩ := next_allowed.1 hnext
      cases heq
    | readFd m fd outcome =>
      obtain ⟨action, reads, heq, -⟩ := next_readFd.1 hnext
      cases heq
    | _ => simp [Phase.next, Phase.Launches, Phase.Applies] at hnext

end Frontend

end LibreDarwin
