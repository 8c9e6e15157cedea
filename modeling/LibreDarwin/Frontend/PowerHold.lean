import LibreDarwin.Frontend.Cards

/-!
# The power hold and its card

A probe may make the loop hold the card's reader, and the card-removed
hook releases it. The hook runs on the monitor thread and does not wait
for the loop, so it can run before the loop applies the probe: then the
hold is set for a card that is gone, and nothing releases it
(`hold_outlives_card`). Where no hold is set for a card whose hook has run
there is no stale hold (`no_stale_hold`).
-/

namespace LibreDarwin

namespace Frontend

open Wire Transport
open Std (ExtTreeMap)

variable {Attempts : Type*} {P : CardResolutionPolicy Attempts}
  {token : ReaderInterface → String} {s t : CardsState Attempts}

/-- Another card was published for the reader after the card was gone,
both for the monitor's hook and for the loop. -/
def Succeeded (trace : List Mark) (card : CoreCard) : Prop :=
  ∃ a card' b, trace = a ++ .call (.publishCard card') :: b ∧ card'.reader = card.reader ∧
    card'.id ≠ card.id ∧ .keyRemoved card.id ∈ a ∧ .call (.withdraw card.id) ∈ a

/-- **No hold outlives its card.** -/
def NoStaleHold (s : CardsState Attempts) : Prop :=
  ∀ card, .cardPublished card ∈ s.history → .keyRemoved card.id ∈ s.trace →
    .call (.withdraw card.id) ∈ s.trace → card.reader ∈ s.held → Succeeded s.trace card

/-- The probe's result would set a hold for the card. -/
def SetsHold (P : CardResolutionPolicy Attempts) (token : ReaderInterface → String)
    (s : CardsState Attempts) (card : CoreCard) (probe : CardProbe) : Prop :=
  ∃ pending attempts, s.pendingCards[card.id]? = some pending ∧
    P.retryAfter isRefusedSession probe pending.attempts = (none, attempts) ∧
    P.holdsReader probe (s.resolved token card probe).presence.roster card.id.repr = true

/-- The hook is the monitor thread's own: it has run for a card before the
next one is inserted. -/
def Prompt (s : CardsState Attempts) (i : CardsInput) : Prop :=
  ∀ card, i = .monitor (.cardPublished card) → ∀ old, .cardPublished old ∈ s.history →
    old.reader = card.reader → .keyRemoved old.id ∈ s.trace

/-- **No hold is set late**: the loop applies no probe that would hold the
reader for a card whose hook has run. -/
def NoLateHold (P : CardResolutionPolicy Attempts) (token : ReaderInterface → String)
    (s : CardsState Attempts) (i : CardsInput) : Prop :=
  ∀ queued card probe rest, i = .run queued → s.posted = .applyCardResolution card probe :: rest →
    SetsHold P token s card probe → .keyRemoved card.id ∉ s.trace

/-- **What a move does to the holds and the trace.** -/
inductive Turn (P : CardResolutionPolicy Attempts) (token : ReaderInterface → String)
    (s : CardsState Attempts) : CardsInput → CardsState Attempts → Prop
  | monitor {t : CardsState Attempts} (e : MonitorEvent)
      (hallows : (Bench.of s.history).Allows e) (hhistory : t.history = s.history ++ [e])
      (htrace : t.trace = s.trace) (hheld : t.held = s.held) (hworkers : t.workers = s.workers) :
      Turn P token s (.monitor e) t
  | hook (card : CoreCard) (hcard : .cardPublished card ∈ s.history) :
      Turn P token s (.keyRemoved card) (s.keyRemoved card)
  | other {i : CardsInput} {t : CardsState Attempts} (hhistory : t.history = s.history)
      (marks : List Mark) (htrace : t.trace = s.trace ++ marks)
      (hmarks : ∀ card, .call (.publishCard card) ∉ marks) (hhooks : ∀ id, .keyRemoved id ∉ marks)
      (hheld : ∀ r ∈ t.held, r ∈ s.held)
      (hworkers : (∀ r ∈ s.held, r ∈ s.workers) → ∀ r ∈ t.held, r ∈ t.workers) :
      Turn P token s i t
  | published {t : CardsState Attempts} (queued : Bool) (card : CoreCard) (probe : CardProbe)
      (rest : List Job) (hposted : s.posted = .applyCardResolution card probe :: rest)
      (hcard : .cardPublished card ∈ s.ran) (hhistory : t.history = s.history)
      (htrace : t.trace = s.trace ++ [.call (.publishCard (CardsState.refined card probe))])
      (hheld : ∀ r ∈ t.held, r ∈ s.held ∨ r = card.reader ∧ SetsHold P token s card probe)
      (hworkers : (∀ r ∈ s.held, r ∈ s.workers) → ∀ r ∈ t.held, r ∈ t.workers) :
      Turn P token s (.run queued) t

/-- Nothing that concerns the holds. -/
theorem Turn.same {i : CardsInput} (hhistory : t.history = s.history) (htrace : t.trace = s.trace)
    (hheld : t.held = s.held) (hworkers : ∀ r ∈ s.workers, r ∈ t.workers) :
    Turn P token s i t := by
  refine .other hhistory [] (by rw [htrace, List.append_nil]) (by simp) (by simp) ?_ ?_
  · intro r hr
    exact hheld ▸ hr
  · intro hsub r hr
    exact hworkers r (hsub r (hheld ▸ hr))

/-- Asking about a card concerns no hold. -/
theorem Turn.schedule {i : CardsInput} {u : CardsState Attempts} (card : CoreCard) (queued : Bool)
    (hhistory : u.history = s.history) (htrace : u.trace = s.trace) (hheld : u.held = s.held)
    (hworkers : u.workers = s.workers) :
    Turn P token s i (u.scheduleCardResolve P card queued) := by
  cases queued with
  | true =>
    refine .same hhistory htrace hheld fun r hr => ?_
    exact List.mem_cons_of_mem _ (hworkers ▸ hr)
  | false =>
    refine .same hhistory htrace hheld fun r hr => ?_
    exact hworkers ▸ hr

/-- **One of the monitor's events runs.** -/
theorem turn_observed {e : MonitorEvent} {rest : List Job}
    (hposted : s.posted = .observed e :: rest) (queued : Bool) {i : CardsInput} :
    Turn P token s i
      ({ s with posted := rest, ran := s.ran ++ [e] }.observed P token queued e) := by
  have hhistory : ({ s with posted := rest, ran := s.ran ++ [e] }).history = s.history := by
    simp [CardsState.history, hposted, Job.event?]
  have hcall : ∀ (u : CardsState Attempts) (call : Presence.Call), u.history = s.history →
      u.trace = s.trace → (∀ r ∈ u.held, r ∈ s.held) →
      ((∀ r ∈ s.held, r ∈ s.workers) → ∀ r ∈ u.held, r ∈ u.workers) →
      (∀ card, call ≠ .publishCard card) → Turn P token s i (u.publish token call) := by
    intro u call hhistory htrace hheld hworkers hcard
    refine .other hhistory [.call call] ?_ ?_ (by simp) hheld hworkers
    · rw [← htrace]
      rfl
    · intro card hmem
      have heq := List.mem_singleton.1 hmem
      injection heq with heq
      exact hcard card heq.symm
  cases e with
  | readerPublished reader =>
    refine hcall _ _ hhistory rfl (fun r hr => hr) (fun hsub => hsub) ?_
    rintro card ⟨⟩
  | cardPublished card => exact .schedule card queued hhistory rfl rfl rfl
  | withdrawn object =>
    simp only [CardsState.observed, CardsState.onWithdrawn]
    split
    · refine hcall _ _ hhistory rfl (fun r hr => (List.mem_filter.1 hr).1) (fun hsub r hr => ?_) ?_
      · obtain ⟨hr, hne⟩ := List.mem_filter.1 hr
        exact List.mem_filter.2 ⟨hsub r hr, hne⟩
      · rintro card ⟨⟩
    · refine hcall _ _ hhistory rfl (fun r hr => hr) (fun hsub => hsub) ?_
      rintro card ⟨⟩
  | readerPropertiesChanged reader delta =>
    refine hcall _ _ hhistory rfl (fun r hr => hr) (fun hsub => hsub) ?_
    rintro card ⟨⟩
  | readerRelabelled reader =>
    refine hcall _ _ hhistory rfl (fun r hr => hr) (fun hsub => hsub) ?_
    rintro card ⟨⟩

/-- **A probe's result is applied.** -/
theorem turn_applyCardResolution (h : Tracked s) {card : CoreCard} {probe : CardProbe}
    {rest : List Job} (hposted : s.posted = .applyCardResolution card probe :: rest)
    (queued : Bool) :
    Turn P token s (.run queued)
      ({ s with posted := rest }.applyCardResolution P token card probe) := by
  have hhistory : ({ s with posted := rest }).history = s.history :=
    CardsState.history_pop hposted rfl
  have hasked : .cardPublished card ∈ s.ran := by
    refine h.account.asked card (.inr (.inr ⟨probe, ?_⟩))
    rw [hposted]
    exact List.mem_cons_self
  unfold CardsState.applyCardResolution
  dsimp only
  cases hp : s.pendingCards[card.id]? with
  | none => exact .same hhistory rfl rfl fun r hr => hr
  | some pending =>
    dsimp only
    cases hretry : P.retryAfter isRefusedSession probe pending.attempts with
    | mk delay attempts =>
      cases delay with
      | some delay => exact .same hhistory rfl rfl fun r hr => hr
      | none =>
        dsimp only
        split
        · rename_i hholds
          have hsets : SetsHold P token s card probe := ⟨pending, attempts, hp, hretry, hholds⟩
          unfold CardsState.setReaderHold
          split
          · rename_i hworker
            refine .published queued card probe rest hposted hasked hhistory rfl ?_ ?_
            · intro r hr
              rcases List.mem_cons.1 hr with rfl | hr
              · exact .inr ⟨rfl, hsets⟩
              · exact .inl hr
            · intro hsub r hr
              rcases List.mem_cons.1 hr with rfl | hr
              · exact hworker
              · exact hsub r hr
          · exact .published queued card probe rest hposted hasked hhistory rfl
              (fun r hr => .inl hr) fun hsub => hsub
        · exact .published queued card probe rest hposted hasked hhistory rfl
            (fun r hr => .inl hr) fun hsub => hsub

/-- **Every move is one of these.** -/
theorem turn_step (h : Tracked s) {i : CardsInput} (hst : s.step P token i = some t) :
    Turn P token s i t := by
  cases i with
  | monitor e =>
    simp only [CardsState.step] at hst
    split at hst
    · rename_i hallows
      obtain rfl := Option.some.inj hst
      refine .monitor e hallows ?_ rfl rfl rfl
      simp [CardsState.history, Job.event?]
    · cases hst
  | keyRemoved card =>
    simp only [CardsState.step] at hst
    split at hst
    · rename_i hcard
      obtain rfl := Option.some.inj hst
      exact .hook card hcard
    · cases hst
  | run queued =>
    simp only [CardsState.step] at hst
    split at hst
    · cases hst
    · rename_i job rest hposted
      obtain rfl := Option.some.inj hst
      cases job with
      | observed e => exact turn_observed hposted queued
      | applyCardResolution card probe => exact turn_applyCardResolution h hposted queued
      | updateCardType handle cardType =>
        have hhistory : ({ s with posted := rest }).history = s.history :=
          CardsState.history_pop hposted rfl
        refine .other hhistory [.call (.updateCardType handle cardType)] rfl ?_ (by simp)
          (fun r hr => hr) fun hsub => hsub
        intro card hmem
        cases List.mem_singleton.1 hmem
  | probed i probe =>
    obtain ⟨e, -, rfl⟩ := Option.map_eq_some_iff.1 hst
    refine .same ?_ rfl rfl fun r hr => hr
    simp [CardsState.history, Job.event?]
  | fire i queued =>
    obtain ⟨card, -, rfl⟩ := Option.map_eq_some_iff.1 hst
    simp only [CardsState.retry]
    split
    · exact .schedule card queued rfl rfl rfl rfl
    · exact .same rfl rfl rfl fun r hr => hr
  | learned handle cardType =>
    obtain rfl := Option.some.inj hst
    refine .same ?_ rfl rfl fun r hr => hr
    simp [CardsState.history, Job.event?]

/-- **What is known of the holds** while none is set late: a held reader's
holder is published and its hook has not run; and of two cards of one
reader, the one whose hook has not run came after the other was gone. -/
structure Watched (s : CardsState Attempts) : Prop where
  tracked : Tracked s
  workers : ∀ r ∈ s.held, r ∈ s.workers
  holder : ∀ r ∈ s.held, ∃ card, .call (.publishCard card) ∈ s.trace ∧ card.reader = r ∧
    .keyRemoved card.id ∉ s.trace
  order : ∀ a y b, s.history = a ++ .cardPublished y :: b → ∀ x, .cardPublished x ∈ s.history →
    x.reader = y.reader → x.id ≠ y.id →
    .keyRemoved y.id ∈ s.trace ∨ .keyRemoved x.id ∈ s.trace ∧ .withdrawn x.id ∈ a
  since : ∀ a y b, s.trace = a ++ .call (.publishCard y) :: b →
    ∀ x, .cardPublished x ∈ s.history → x.reader = y.reader → x.id ≠ y.id →
    .keyRemoved y.id ∈ s.trace ∨ .keyRemoved x.id ∈ a ∧ .call (.withdraw x.id) ∈ a

/-- An element of a list with one more at the end. -/
theorem split_snoc {α : Type*} {l a b : List α} {x y : α} (h : l ++ [x] = a ++ y :: b) :
    (y = x ∧ a = l) ∨ ∃ b', l = a ++ y :: b' := by
  rcases List.eq_nil_or_concat b with rfl | ⟨b', z, rfl⟩
  · obtain ⟨rfl, hlast⟩ := List.append_inj' h rfl
    exact .inl ⟨(List.singleton_inj.1 hlast).symm, rfl⟩
  · have h : l ++ [x] = (a ++ y :: b') ++ [z] := by rw [h]; simp
    exact .inr ⟨b', (List.append_inj' h rfl).1⟩

/-- The same with any number of marks at the end, none of them it. -/
theorem split_append {α : Type*} {l a b marks : List α} {y : α} (hy : y ∉ marks)
    (h : l ++ marks = a ++ y :: b) : ∃ b', l = a ++ y :: b' := by
  induction marks using List.reverseRecOn generalizing b with
  | nil => exact ⟨b, by simpa using h⟩
  | append_singleton marks m ih =>
    have hm : y ≠ m := fun heq => hy (by simp [heq])
    rw [← List.append_assoc] at h
    rcases split_snoc h with ⟨heq, -⟩ | ⟨b', hb'⟩
    · exact absurd heq hm
    · exact ih (fun hmem => hy (List.mem_append_left _ hmem)) hb'

namespace Watched

theorem start : Watched (.start : CardsState Attempts) := by
  refine ⟨.start, ?_, ?_, ?_, ?_⟩
  · intro r hr
    cases hr
  · intro r hr
    cases hr
  · intro a y b h
    cases a <;> cases h
  · intro a y b h
    cases a <;> cases h

/-- A published card came with one of the monitor's events. -/
theorem inserted (h : Watched s) {y : CoreCard} (hy : .call (.publishCard y) ∈ s.trace) :
    ∃ c, .cardPublished c ∈ s.history ∧ c.id = y.id ∧ c.reader = y.reader := by
  obtain ⟨c, hran, hc⟩ := h.tracked.account.published y hy
  exact ⟨c, List.mem_append_left _ hran, hc⟩

/-- **One of the monitor's events is posted.** The hooks of the reader's
earlier cards have run, and they have been withdrawn. -/
theorem monitor (h : Watched s) (htracked : Tracked t) {e : MonitorEvent}
    (hprompt : Prompt s (.monitor e)) (hallows : (Bench.of s.history).Allows e)
    (hhistory : t.history = s.history ++ [e]) (htrace : t.trace = s.trace)
    (hheld : t.held = s.held) (hworkers : t.workers = s.workers) : Watched t := by
  have hearlier : ∀ z, e = .cardPublished z → ∀ x, .cardPublished x ∈ s.history →
      x.reader = z.reader → .keyRemoved x.id ∈ s.trace ∧ .withdrawn x.id ∈ s.history := by
    rintro z rfl x hx hreader
    refine ⟨hprompt z rfl x hx hreader, ?_⟩
    rcases card_on_bench hx with hbench | hgone
    · exact absurd hreader (hallows.2.2 _ hbench)
    · exact hgone
  refine ⟨htracked, ?_, ?_, ?_, ?_⟩
  · rw [hheld, hworkers]
    exact h.workers
  · rw [hheld, htrace]
    exact h.holder
  · rw [hhistory, htrace]
    intro a y b hsplit x hx hreader hid
    rcases split_snoc hsplit with ⟨heq, rfl⟩ | ⟨b', hb'⟩
    · rcases List.mem_append.1 hx with hx | hx
      · exact .inr (hearlier y heq.symm x hx hreader)
      · obtain rfl : x = y := by
          have hboth := (List.mem_singleton.1 hx).trans heq.symm
          injection hboth
        exact absurd rfl hid
    · rcases List.mem_append.1 hx with hx | hx
      · exact h.order a y b' hb' x hx hreader hid
      · have hy : .cardPublished y ∈ s.history := by simp [hb']
        exact .inl (hearlier x (List.mem_singleton.1 hx).symm y hy hreader.symm).1
  · rw [hhistory, htrace]
    intro a y b hsplit x hx hreader hid
    rcases List.mem_append.1 hx with hx | hx
    · exact h.since a y b hsplit x hx hreader hid
    · have hy : .call (.publishCard y) ∈ s.trace := by simp [hsplit]
      obtain ⟨c, hc, hcid, hcreader⟩ := h.inserted hy
      have hsame : c.reader = x.reader := hcreader.trans hreader.symm
      exact .inl (hcid ▸ (hearlier x (List.mem_singleton.1 hx).symm c hc hsame).1)

/-- More marks, none of them a publication. -/
theorem marks (h : Watched s) (htracked : Tracked t) (hhistory : t.history = s.history)
    {marks : List Mark} (htrace : t.trace = s.trace ++ marks)
    (hmarks : ∀ card, .call (.publishCard card) ∉ marks)
    (hworkers : ∀ r ∈ t.held, r ∈ t.workers)
    (hholder : ∀ r ∈ t.held, ∃ card, .call (.publishCard card) ∈ t.trace ∧ card.reader = r ∧
      .keyRemoved card.id ∉ t.trace) : Watched t := by
  refine ⟨htracked, hworkers, hholder, ?_, ?_⟩
  · rw [hhistory, htrace]
    intro a y b hsplit x hx hreader hid
    rcases h.order a y b hsplit x hx hreader hid with hy | ⟨hx', hgone⟩
    · exact .inl (List.mem_append_left _ hy)
    · exact .inr ⟨List.mem_append_left _ hx', hgone⟩
  · rw [hhistory, htrace]
    intro a y b hsplit x hx hreader hid
    obtain ⟨b', hb'⟩ := split_append (hmarks y) hsplit
    rcases h.since a y b' hb' x hx hreader hid with hy | hboth
    · exact .inl (List.mem_append_left _ hy)
    · exact .inr hboth

/-- **The hook runs**, and releases the reader. A reader still held is
another one, and so is its holder. -/
theorem hook (h : Watched s) {card : CoreCard} (hcard : .cardPublished card ∈ s.history)
    (htracked : Tracked (s.keyRemoved card)) : Watched (s.keyRemoved card) := by
  have hheld : ∀ r ∈ (s.keyRemoved card).held, r ∈ s.held ∧ r ≠ card.reader := by
    intro r hr
    simp only [CardsState.keyRemoved, CardsState.setReaderHold] at hr
    split at hr
    · simpa using hr
    · rename_i hnone
      refine ⟨hr, ?_⟩
      rintro rfl
      exact hnone (h.workers _ hr)
  have hfields : (s.keyRemoved card).history = s.history ∧
      (s.keyRemoved card).trace = s.trace ++ [.keyRemoved card.id] ∧
      (s.keyRemoved card).workers = s.workers := by
    simp only [CardsState.keyRemoved, CardsState.setReaderHold]
    split
    · exact ⟨rfl, rfl, rfl⟩
    · exact ⟨rfl, rfl, rfl⟩
  obtain ⟨hhistory, htrace, hworkers⟩ := hfields
  refine h.marks htracked hhistory htrace (by simp) (fun r hr => ?_) (fun r hr => ?_)
  · rw [hworkers]
    exact h.workers r (hheld r hr).1
  · obtain ⟨hr, hother⟩ := hheld r hr
    obtain ⟨y, hy, hreader, hstays⟩ := h.holder r hr
    refine ⟨y, htrace ▸ List.mem_append_left _ hy, hreader, ?_⟩
    rw [htrace, List.mem_append]
    rintro (hmem | hmem)
    · exact hstays hmem
    · obtain ⟨c, hc, hcid, hcreader⟩ := h.inserted hy
      injection List.mem_singleton.1 hmem with hid
      obtain rfl := h.tracked.valid.card_unique hc hcard (hcid.trans hid)
      exact hother (hreader.symm.trans hcreader.symm)

/-- **A card is published.** The other cards of its reader that the monitor
knows of are gone, or its own hook has run. -/
theorem published (h : Watched s) (htracked : Tracked t) {card : CoreCard} {probe : CardProbe}
    {rest : List Job} {queued : Bool}
    (hlate : NoLateHold P token s (.run queued))
    (hposted : s.posted = .applyCardResolution card probe :: rest)
    (hcard : .cardPublished card ∈ s.ran) (hhistory : t.history = s.history)
    (htrace : t.trace = s.trace ++ [.call (.publishCard (CardsState.refined card probe))])
    (hheld : ∀ r ∈ t.held, r ∈ s.held ∨ r = card.reader ∧ SetsHold P token s card probe)
    (hworkers : ∀ r ∈ t.held, r ∈ t.workers) : Watched t := by
  have hnokey : ∀ id, .keyRemoved id ∈ t.trace ↔ .keyRemoved id ∈ s.trace := by
    intro id
    rw [htrace]
    simp
  refine ⟨htracked, hworkers, fun r hr => ?_, ?_, ?_⟩
  · rcases hheld r hr with hr | ⟨rfl, hsets⟩
    · obtain ⟨y, hy, hreader, hstays⟩ := h.holder r hr
      refine ⟨y, htrace ▸ List.mem_append_left _ hy, hreader, ?_⟩
      rw [hnokey]
      exact hstays
    · refine ⟨CardsState.refined card probe, ?_, rfl, ?_⟩
      · rw [htrace]
        exact List.mem_append_right _ (List.mem_singleton_self _)
      · rw [hnokey]
        exact hlate queued card probe rest rfl hposted hsets
  · rw [hhistory]
    intro a y b hsplit x hx hreader hid
    rw [hnokey, hnokey]
    exact h.order a y b hsplit x hx hreader hid
  · rw [hhistory]
    intro a y b hsplit x hx hreader hid
    rw [hnokey]
    rw [htrace] at hsplit
    rcases split_snoc hsplit with ⟨heq, rfl⟩ | ⟨b', hb'⟩
    · -- the card just published: the monitor's order decides
      injection heq with heq
      injection heq with heq
      obtain rfl := heq
      obtain ⟨before, after, hran⟩ := List.append_of_mem hcard
      have hhist : s.history = before ++ .cardPublished card ::
          (after ++ s.posted.filterMap Job.event?) := by
        rw [CardsState.history, hran]
        simp
      rcases h.order _ card _ hhist x hx hreader hid with hy | ⟨hx', hgone⟩
      · exact .inl hy
      · refine .inr ⟨hx', (h.tracked.account.withdrawn x.id).2 ?_⟩
        rw [hran]
        exact List.mem_append_left _ hgone
    · exact h.since a y b' hb' x hx hreader hid

/-- **Every move keeps watch**, when the hook is prompt and no hold is set
late. -/
theorem step (h : Watched s) {i : CardsInput} (hprompt : Prompt s i)
    (hlate : NoLateHold P token s i) (hst : s.step P token i = some t) : Watched t := by
  have htracked := h.tracked.step hst
  cases turn_step h.tracked hst with
  | monitor e hallows hhistory htrace hheld hworkers =>
    exact h.monitor htracked hprompt hallows hhistory htrace hheld hworkers
  | hook card hcard => exact h.hook hcard htracked
  | other hhistory marks htrace hmarks hhooks hheld hworkers =>
    refine h.marks htracked hhistory htrace hmarks (hworkers h.workers) fun r hr => ?_
    obtain ⟨y, hy, hreader, hstays⟩ := h.holder r (hheld r hr)
    refine ⟨y, htrace ▸ List.mem_append_left _ hy, hreader, ?_⟩
    rw [htrace, List.mem_append]
    rintro (hmem | hmem)
    · exact hstays hmem
    · exact hhooks y.id hmem
  | published queued card probe rest hposted hcard hhistory htrace hheld hworkers =>
    exact h.published htracked hlate hposted hcard hhistory htrace hheld (hworkers h.workers)

end Watched

/-- **No hold outlives its card, where none is set late.** In every run in
which the hook is prompt and the loop applies no probe that would hold the
reader for a card whose hook has run: once a card's hook and its withdraw
have both run, its reader is held only if another card has since been
published for it. -/
theorem no_stale_hold {s : CardsState Attempts} {is : List CardsInput}
    (hrun : (cardResolution P token).RunWhere
      (fun s i => Prompt s i ∧ NoLateHold P token s i) .start is s) : NoStaleHold s := by
  have hwatched : Watched s := hrun.invariant (I := Watched)
    (fun s i t hs hok hst => hs.step hok.1 hok.2 hst) .start
  intro card hcard hhook hgone hheld
  obtain ⟨y, hy, hreader, hstays⟩ := hwatched.holder card.reader hheld
  have hother : card.id ≠ y.id := by
    intro hid
    exact hstays (hid ▸ hhook)
  obtain ⟨a, b, htrace⟩ := List.append_of_mem hy
  rcases hwatched.since a y b htrace card hcard hreader.symm hother with hy' | ⟨hbefore, hbefore'⟩
  · exact absurd hy' hstays
  · exact ⟨a, y, b, htrace, hreader, Ne.symm hother, hbefore, hbefore'⟩

/-- A card is probed, and its hold is set before it is removed. -/
def heldThenRemoved : List CardsInput :=
  [.monitor (.readerPublished ⟨1, "Reader", false, none, "", .unknown⟩),
   .monitor (.cardPublished ⟨2, 1, 0, 0, "", "3B"⟩), .run true, .run true,
   .probed 0 ⟨5, 1, "eMRTD", none⟩, .run true,
   .monitor (.withdrawn 2), .keyRemoved ⟨2, 1, 0, 0, "", "3B"⟩, .run true]

theorem no_stale_hold_heldThenRemoved :
    ∃ s, (cardResolution plainPolicy plainToken).run .start heldThenRemoved = some s ∧
      .keyRemoved 2 ∈ s.trace ∧ .call (.withdraw 2) ∈ s.trace ∧ NoStaleHold s := by
  have hprompt : ∀ (s : CardsState ℕ) i, (∀ card, i ≠ .monitor (.cardPublished card)) →
      Prompt s i := fun s i hi card heq => absurd heq (hi card)
  have hnohook : ∀ (s : CardsState ℕ) i, (∀ m ∈ s.trace, ∃ call, m = .call call) →
      NoLateHold plainPolicy plainToken s i := by
    intro s i hcalls queued card probe rest _ _ _ hmem
    obtain ⟨call, hcall⟩ := hcalls _ hmem
    cases hcall
  have hcalls : ∀ trace : List Mark, trace.all (· matches .call _) = true →
      ∀ m ∈ trace, ∃ call, m = .call call := by
    intro trace hall m hm
    have hm := List.all_eq_true.1 hall m hm
    cases m with
    | call call => exact ⟨call, rfl⟩
    | keyRemoved card => cases hm
  have hlast : ∀ (s : CardsState ℕ) e rest, s.posted = .observed e :: rest →
      NoLateHold plainPolicy plainToken s (.run true) := by
    intro s e rest hposted queued card probe rest' _ hposted'
    rw [hposted] at hposted'
    cases hposted'
  have hrun : ∀ s, (cardResolution plainPolicy plainToken).run .start heldThenRemoved = some s →
      (cardResolution plainPolicy plainToken).RunWhere
        (fun s i => Prompt s i ∧ NoLateHold plainPolicy plainToken s i) .start heldThenRemoved s := by
    rintro s ⟨⟩
    refine .cons ⟨hprompt _ _ (by rintro _ ⟨⟩), hnohook _ _ (hcalls _ rfl)⟩ rfl ?_
    refine .cons ⟨?_, hnohook _ _ (hcalls _ rfl)⟩ rfl ?_
    · rintro card ⟨⟩ old hold
      cases List.mem_singleton.1 hold
    refine .cons ⟨hprompt _ _ (by rintro _ ⟨⟩), hnohook _ _ (hcalls _ rfl)⟩ rfl ?_
    refine .cons ⟨hprompt _ _ (by rintro _ ⟨⟩), hnohook _ _ (hcalls _ rfl)⟩ rfl ?_
    refine .cons ⟨hprompt _ _ (by rintro _ ⟨⟩), hnohook _ _ (hcalls _ rfl)⟩ rfl ?_
    refine .cons ⟨hprompt _ _ (by rintro _ ⟨⟩), hnohook _ _ (hcalls _ rfl)⟩ rfl ?_
    refine .cons ⟨hprompt _ _ (by rintro _ ⟨⟩), hnohook _ _ (hcalls _ rfl)⟩ rfl ?_
    refine .cons ⟨hprompt _ _ (by rintro _ ⟨⟩), hnohook _ _ (hcalls _ rfl)⟩ rfl ?_
    exact .cons ⟨hprompt _ _ (by rintro _ ⟨⟩), hlast _ (.withdrawn 2) [] rfl⟩ rfl (.nil _)
  exact ⟨_, rfl, by decide, by decide, no_stale_hold (hrun _ rfl)⟩

/-- **A hold outlives its card.** The monitor removes a card whose probe
waits to be applied: the hook finds nothing to release, and the loop,
which has not run the withdraw yet, sets the hold. -/
theorem hold_outlives_card :
    ∃ s, (cardResolution plainPolicy plainToken).run .start
        [.monitor (.readerPublished ⟨1, "Reader", false, none, "", .unknown⟩),
         .monitor (.cardPublished ⟨2, 1, 0, 0, "", "3B"⟩), .run true, .run true,
         .probed 0 ⟨5, 1, "eMRTD", none⟩, .keyRemoved ⟨2, 1, 0, 0, "", "3B"⟩,
         .monitor (.withdrawn 2), .run true, .run true] = some s ∧
      1 ∈ s.held ∧ ¬ NoStaleHold s := by
  obtain ⟨s, hrun, htrace, hcard, hheld⟩ : ∃ s, (cardResolution plainPolicy plainToken).run .start
        [.monitor (.readerPublished ⟨1, "Reader", false, none, "", .unknown⟩),
         .monitor (.cardPublished ⟨2, 1, 0, 0, "", "3B"⟩), .run true, .run true,
         .probed 0 ⟨5, 1, "eMRTD", none⟩, .keyRemoved ⟨2, 1, 0, 0, "", "3B"⟩,
         .monitor (.withdrawn 2), .run true, .run true] = some s ∧
      s.trace = [.call (.publishReader ⟨1, "Reader", false, none, "", .unknown⟩), .keyRemoved 2,
        .call (.publishCard ⟨2, 1, 5, 1, "eMRTD", "3B"⟩), .call (.withdraw 2)] ∧
      .cardPublished ⟨2, 1, 0, 0, "", "3B"⟩ ∈ s.history ∧ 1 ∈ s.held :=
    ⟨_, rfl, rfl, by decide, by decide⟩
  refine ⟨s, hrun, hheld, fun hno => ?_⟩
  obtain ⟨a, y, b, hsplit, -, hid, -⟩ := hno _ hcard (by simp [htrace]) (by simp [htrace]) hheld
  have hy : .call (.publishCard y) ∈ s.trace := by simp [hsplit]
  -- the only card ever published is the one that is gone
  rw [htrace] at hy
  have hy : y = ⟨2, 1, 5, 1, "eMRTD", "3B"⟩ := by simpa using hy
  exact hid (by rw [hy])

end Frontend

end LibreDarwin
