import LibreDarwin.Frontend.Model.Cards
import LibreDarwin.Frontend.Shown

/-!
# The published cards

Between an insertion and its publication lie a worker's hop and any number
of timers, each of which may come back after the card is gone. What keeps
the loop right is `pendingCards`: an entry is made when the card is
inserted, and goes when the card is published or withdrawn (`Account`).
With the monitor's promise, at most one published card names a reader, and
that reader is published too (`one_card_per_reader`).
-/

namespace LibreDarwin

namespace Frontend

open Wire Transport
open Std (ExtTreeMap)

variable {Attempts : Type*}

/-- A card is published at most once, and never after it was withdrawn. -/
def Mark.Apart (x y : Mark) : Prop :=
  ∀ card, y = .call (.publishCard card) →
    x ≠ .call (.withdraw card.id) ∧ ∀ card', x = .call (.publishCard card') → card'.id ≠ card.id

/-- **The account of the cards**: what the monitor's events that ran, the
pending cards, the cards asked about and the trace have to do with each
other. -/
structure Account (ran : List MonitorEvent)
    (pending : ExtTreeMap ObjectId (PendingCard Attempts)) (asked : CoreCard → Prop)
    (trace : List Mark) : Prop where
  asked : ∀ card, asked card → .cardPublished card ∈ ran
  pending : ∀ (id : ObjectId) p, pending[id]? = some p → .cardPublished p.card ∈ ran ∧
    p.card.id = id ∧ .withdrawn id ∉ ran ∧
    ∀ card, .call (.publishCard card) ∈ trace → card.id ≠ id
  published : ∀ card, .call (.publishCard card) ∈ trace →
    ∃ c, .cardPublished c ∈ ran ∧ c.id = card.id ∧ c.reader = card.reader
  withdrawn : ∀ id, .call (.withdraw id) ∈ trace ↔ .withdrawn id ∈ ran
  once : trace.Pairwise Mark.Apart

namespace Account

variable {ran : List MonitorEvent} {pending : ExtTreeMap ObjectId (PendingCard Attempts)}
  {asked asked' : CoreCard → Prop} {trace : List Mark}

theorem nil (hasked : ∀ card, ¬ asked card) :
    Account [] (∅ : ExtTreeMap ObjectId (PendingCard Attempts)) asked [] where
  asked card h := absurd h (hasked card)
  pending id p h := by simp at h
  published card h := by cases h
  withdrawn id := by simp
  once := .nil

/-- Fewer cards asked about. -/
theorem mono (h : Account ran pending asked trace) (hle : ∀ card, asked' card → asked card) :
    Account ran pending asked' trace :=
  { h with asked := fun card hcard => h.asked card (hle card hcard) }

/-- A mark that neither publishes nor withdraws. -/
theorem quiet (h : Account ran pending asked trace) {m : Mark}
    (hpublish : ∀ card, m ≠ .call (.publishCard card))
    (hwithdraw : ∀ id, m ≠ .call (.withdraw id)) :
    Account ran pending asked (trace ++ [m]) := by
  have hcard : ∀ card, .call (.publishCard card) ∈ trace ++ [m] →
      .call (.publishCard card) ∈ trace := by
    intro card hmem
    rcases List.mem_append.1 hmem with hmem | hmem
    · exact hmem
    · exact absurd (List.mem_singleton.1 hmem).symm (hpublish card)
  refine ⟨h.asked, fun id p hp => ?_, fun card hmem => h.published card (hcard card hmem), ?_, ?_⟩
  · obtain ⟨hran, hid, hgone, hnot⟩ := h.pending id p hp
    exact ⟨hran, hid, hgone, fun card hmem => hnot card (hcard card hmem)⟩
  · intro id
    rw [← h.withdrawn id]
    simp [Ne.symm (hwithdraw id)]
  · refine List.pairwise_append.2 ⟨h.once, List.pairwise_singleton _ _, ?_⟩
    rintro x - y hy card rfl
    exact absurd (List.mem_singleton.1 hy).symm (hpublish card)

/-- An event about readers. -/
theorem reader (h : Account ran pending asked trace) {e : MonitorEvent}
    (hgone : ∀ id, e ≠ .withdrawn id) :
    Account (ran ++ [e]) pending asked trace := by
  refine ⟨fun card hc => List.mem_append_left _ (h.asked card hc), fun id p hp => ?_,
    fun card hmem => ?_, fun id => ?_, h.once⟩
  · obtain ⟨hran, hid, hstays, hnot⟩ := h.pending id p hp
    refine ⟨List.mem_append_left _ hran, hid, ?_, hnot⟩
    simp [hstays, Ne.symm (hgone id)]
  · obtain ⟨c, hran, hc⟩ := h.published card hmem
    exact ⟨c, List.mem_append_left _ hran, hc⟩
  · rw [h.withdrawn id]
    simp [Ne.symm (hgone id)]

/-- **A card is inserted**, under an id not used before. -/
theorem insert (h : Account ran pending asked trace) (hvalid : Valid ran) {card : CoreCard}
    (hfresh : card.id ∉ (Bench.of ran).used) (attempts : Attempts)
    (hasked : ∀ c, asked' c → asked c ∨ c = card) :
    Account (ran ++ [.cardPublished card]) (pending.insert card.id ⟨card, attempts⟩) asked'
      trace := by
  refine ⟨fun c hc => ?_, fun id p hp => ?_, fun c hmem => ?_, fun id => ?_, h.once⟩
  · rcases hasked c hc with hc | rfl
    · exact List.mem_append_left _ (h.asked c hc)
    · exact List.mem_append_right _ (List.mem_singleton_self _)
  · rw [ExtTreeMap.getElem?_insert] at hp
    split at hp
    · rename_i heq
      obtain rfl := Std.LawfulEqOrd.eq_of_compare heq
      obtain rfl := Option.some.inj hp
      refine ⟨List.mem_append_right _ (List.mem_singleton_self _), rfl, ?_, fun c hmem heq => ?_⟩
      · intro hgone
        rcases List.mem_append.1 hgone with hgone | hgone
        · exact hfresh (hvalid.used_of_withdrawn hgone)
        · cases List.mem_singleton.1 hgone
      · obtain ⟨c', hran, hid, -⟩ := h.published c hmem
        exact hfresh (heq ▸ hid ▸ used_of_published hran)
    · obtain ⟨hran, hid, hstays, hnot⟩ := h.pending id p hp
      exact ⟨List.mem_append_left _ hran, hid, by simp [hstays], hnot⟩
  · obtain ⟨c', hran, hc⟩ := h.published c hmem
    exact ⟨c', List.mem_append_left _ hran, hc⟩
  · rw [h.withdrawn id]
    simp

/-- A pending card is asked about again. -/
theorem again (h : Account ran pending asked trace) {card : CoreCard}
    (hcard : .cardPublished card ∈ ran) (hpending : card.id ∈ pending) (attempts : Attempts)
    (hasked : ∀ c, asked' c → asked c ∨ c = card) {p : PendingCard Attempts}
    (hp : .cardPublished p.card ∈ ran) (hid : p.card.id = card.id) :
    Account ran (pending.insert card.id { p with attempts := attempts }) asked' trace := by
  refine ⟨fun c hc => ?_, fun id q hq => ?_, h.published, h.withdrawn, h.once⟩
  · rcases hasked c hc with hc | rfl
    · exact h.asked c hc
    · exact hcard
  · rw [ExtTreeMap.getElem?_insert] at hq
    split at hq
    · rename_i heq
      obtain rfl := Std.LawfulEqOrd.eq_of_compare heq
      obtain rfl := Option.some.inj hq
      obtain ⟨old, hold⟩ := Option.isSome_iff_exists.1
        (ExtTreeMap.mem_iff_isSome_getElem?.1 hpending)
      obtain ⟨-, -, hstays, hnot⟩ := h.pending card.id old hold
      exact ⟨hp, hid, hstays, hnot⟩
    · exact h.pending id q hq

/-- **A pending card is published**, and not pending any more. -/
theorem publish (h : Account ran pending asked trace) {card card' : CoreCard}
    (hcard : .cardPublished card ∈ ran) (hpending : card.id ∈ pending) (hid : card'.id = card.id)
    (hreader : card'.reader = card.reader) :
    Account ran (pending.erase card.id) asked (trace ++ [.call (.publishCard card')]) := by
  obtain ⟨old, hold⟩ := Option.isSome_iff_exists.1 (ExtTreeMap.mem_iff_isSome_getElem?.1 hpending)
  obtain ⟨-, -, hstays, hnot⟩ := h.pending card.id old hold
  refine ⟨h.asked, fun id p hp => ?_, fun c hmem => ?_, fun id => ?_, ?_⟩
  · rw [ExtTreeMap.getElem?_erase] at hp
    split at hp
    · cases hp
    · rename_i hne
      obtain ⟨hran, hid', hstays', hnot'⟩ := h.pending id p hp
      refine ⟨hran, hid', hstays', fun c hmem => ?_⟩
      rcases List.mem_append.1 hmem with hmem | hmem
      · exact hnot' c hmem
      · cases List.mem_singleton.1 hmem
        rw [hid]
        rintro rfl
        exact hne Std.ReflCmp.compare_self
  · rcases List.mem_append.1 hmem with hmem | hmem
    · exact h.published c hmem
    · cases List.mem_singleton.1 hmem
      exact ⟨card, hcard, hid.symm, hreader.symm⟩
  · rw [← h.withdrawn id]
    simp
  · refine List.pairwise_append.2 ⟨h.once, List.pairwise_singleton _ _, ?_⟩
    rintro x hx y hy c rfl
    cases List.mem_singleton.1 hy
    refine ⟨?_, ?_⟩
    · rintro rfl
      rw [hid, h.withdrawn] at hx
      exact hstays hx
    · rintro c rfl
      rw [hid]
      exact hnot c hx

/-- **An object is withdrawn**, and not pending any more. -/
theorem withdraw (h : Account ran pending asked trace) (id : ObjectId) :
    Account (ran ++ [.withdrawn id]) (pending.erase id) asked
      (trace ++ [.call (.withdraw id)]) := by
  refine ⟨fun c hc => List.mem_append_left _ (h.asked c hc), fun id' p hp => ?_, fun c hmem => ?_,
    fun id' => ?_, ?_⟩
  · rw [ExtTreeMap.getElem?_erase] at hp
    split at hp
    · cases hp
    · rename_i hne
      obtain ⟨hran, hid, hstays, hnot⟩ := h.pending id' p hp
      refine ⟨List.mem_append_left _ hran, hid, fun hgone => ?_, fun c hmem => ?_⟩
      · rcases List.mem_append.1 hgone with hgone | hgone
        · exact hstays hgone
        · cases List.mem_singleton.1 hgone
          exact hne Std.ReflCmp.compare_self
      · rcases List.mem_append.1 hmem with hmem | hmem
        · exact hnot c hmem
        · cases List.mem_singleton.1 hmem
  · rcases List.mem_append.1 hmem with hmem | hmem
    · obtain ⟨c', hran, hc⟩ := h.published c hmem
      exact ⟨c', List.mem_append_left _ hran, hc⟩
    · cases List.mem_singleton.1 hmem
  · rw [List.mem_append, List.mem_append, h.withdrawn id']
    simp
  · refine List.pairwise_append.2 ⟨h.once, List.pairwise_singleton _ _, ?_⟩
    rintro x - y hy c rfl
    cases List.mem_singleton.1 hy

end Account

/-- A card some worker or timer will come back with. -/
def CardsState.Asked (s : CardsState Attempts) (card : CoreCard) : Prop :=
  card ∈ s.timers ∨ (∃ name, (card, name) ∈ s.probes) ∨
    ∃ probe, .applyCardResolution card probe ∈ s.posted

/-- A block that brings nothing of the monitor's leaves the history alone,
posted and run. -/
theorem CardsState.history_post (s : CardsState Attempts) {job : Job} (hjob : job.event? = none) :
    ({ s with posted := s.posted ++ [job] }).history = s.history := by
  simp [CardsState.history, hjob]

theorem CardsState.history_pop {s : CardsState Attempts} {job : Job} {rest : List Job}
    (hposted : s.posted = job :: rest) (hjob : job.event? = none) :
    ({ s with posted := rest }).history = s.history := by
  rw [CardsState.history, CardsState.history, hposted, List.filterMap_cons_none hjob]

/-- Asking about a card adds that card to those asked about. -/
theorem CardsState.asked_scheduleCardResolve {P : CardResolutionPolicy Attempts}
    {s : CardsState Attempts} {card c : CoreCard} {queued : Bool}
    (hc : (s.scheduleCardResolve P card queued).Asked c) : s.Asked c ∨ c = card := by
  cases queued with
  | true =>
    rcases hc with hc | ⟨name, hc⟩ | hc
    · exact .inl (.inl hc)
    · rcases List.mem_append.1 hc with hc | hc
      · exact .inl (.inr (.inl ⟨name, hc⟩))
      · exact .inr (congrArg Prod.fst (List.mem_singleton.1 hc))
    · exact .inl (.inr (.inr hc))
  | false =>
    rcases hc with hc | hc | hc
    · rcases List.mem_append.1 hc with hc | hc
      · exact .inl (.inl hc)
      · exact .inr (List.mem_singleton.1 hc)
    · exact .inl (.inr (.inl hc))
    · exact .inl (.inr (.inr hc))

/-- **The loop keeps track.** The monitor has kept its promise, the
transport shows the bench the loop has heard of, and the account holds. -/
structure Tracked (s : CardsState Attempts) : Prop where
  valid : Valid s.history
  shows : Shows (Bench.of s.ran) s.presence
  account : Account s.ran s.pendingCards s.Asked s.trace

namespace Tracked

variable {P : CardResolutionPolicy Attempts} {token : ReaderInterface → String}
  {s : CardsState Attempts} {rest : List Job}

theorem start : Tracked (.start : CardsState Attempts) := by
  refine ⟨.nil, .empty, .nil ?_⟩
  simp [CardsState.Asked, CardsState.start]

/-- Workers and holds do not matter. -/
theorem setReaderHold (h : Tracked s) (reader : ObjectId) (hold : Bool) :
    Tracked (s.setReaderHold reader hold) := by
  unfold CardsState.setReaderHold
  split
  · exact ⟨h.valid, h.shows, h.account⟩
  · exact h

/-- The block at the head of the queue, taken off it. -/
theorem pop (h : Tracked s) {job : Job} (hposted : s.posted = job :: rest)
    (hjob : job.event? = none) : Tracked { s with posted := rest } := by
  refine ⟨?_, h.shows, h.account.mono ?_⟩
  · rw [CardsState.history_pop hposted hjob]
    exact h.valid
  · rintro card (hcard | hcard | ⟨probe, hcard⟩)
    · exact .inl hcard
    · exact .inr (.inl hcard)
    · exact .inr (.inr ⟨probe, hposted ▸ List.mem_cons_of_mem _ hcard⟩)

/-- A call of an entry point that shows the same bench. -/
theorem publish (h : Tracked s) {call : Presence.Call}
    (hshows : Shows (Bench.of s.ran) (s.presence.after token call).1)
    (hcard : ∀ card, call ≠ .publishCard card) (hgone : ∀ id, call ≠ .withdraw id) :
    Tracked (s.publish token call) := by
  refine ⟨h.valid, hshows, h.account.quiet (fun card heq => ?_) (fun id heq => ?_)⟩
  · injection heq with heq
    exact hcard card heq
  · injection heq with heq
    exact hgone id heq

/-- `scheduleCardResolve` on a card that is pending. -/
theorem scheduleCardResolve (h : Tracked s) {card : CoreCard} (hcard : .cardPublished card ∈ s.ran)
    (hpending : card.id ∈ s.pendingCards) (queued : Bool) :
    Tracked (s.scheduleCardResolve P card queued) := by
  have hagain : ∀ attempts : Attempts,
      Account s.ran (s.pendingCards.insert card.id ⟨card, attempts⟩)
        (s.scheduleCardResolve P card queued).Asked s.trace := by
    intro attempts
    have hp : .cardPublished (⟨card, attempts⟩ : PendingCard Attempts).card ∈ s.ran := hcard
    exact h.account.again hcard hpending attempts
      (fun c hc => CardsState.asked_scheduleCardResolve hc) hp rfl
  cases queued with
  | true => exact ⟨h.valid, h.shows, hagain _⟩
  | false => exact ⟨h.valid, h.shows, hagain _⟩

/-- A resolution that publishes. -/
theorem resolved (h : Tracked s) {card : CoreCard} (hcard : .cardPublished card ∈ s.ran)
    (hpending : card.id ∈ s.pendingCards) (probe : CardProbe) :
    Tracked (s.resolved token card probe) := by
  obtain ⟨p, hp⟩ := Option.isSome_iff_exists.1 (ExtTreeMap.mem_iff_isSome_getElem?.1 hpending)
  obtain ⟨-, -, hstays, -⟩ := h.account.pending card.id p hp
  have hbench := (card_on_bench hcard).resolve_right hstays
  exact ⟨h.valid, h.shows.publishCard hbench, h.account.publish hcard hpending rfl rfl⟩

/-- **`applyCardResolution`** on a card asked about. -/
theorem applyCardResolution (h : Tracked s) {card : CoreCard} (hcard : .cardPublished card ∈ s.ran)
    (probe : CardProbe) : Tracked (s.applyCardResolution P token card probe) := by
  unfold CardsState.applyCardResolution
  cases hp : s.pendingCards[card.id]? with
  | none => exact h
  | some pending =>
    have hpending : card.id ∈ s.pendingCards := by
      rw [ExtTreeMap.mem_iff_isSome_getElem?, hp]
      rfl
    obtain ⟨hran, hid, -, -⟩ := h.account.pending card.id pending hp
    dsimp only
    generalize P.retryAfter isRefusedSession probe pending.attempts = out
    obtain ⟨_ | delay, attempts⟩ := out
    · dsimp only
      have hresolved : Tracked (s.resolved token card probe) := h.resolved hcard hpending probe
      split
      · exact hresolved.setReaderHold card.reader true
      · exact hresolved
    · refine ⟨h.valid, h.shows, h.account.again hcard hpending attempts ?_ hran hid⟩
      rintro c (hc | hc | hc)
      · rcases List.mem_append.1 hc with hc | hc
        · exact .inl (.inl hc)
        · exact .inr (List.mem_singleton.1 hc)
      · exact .inl (.inr (.inl hc))
      · exact .inl (.inr (.inr hc))

/-- **One of the monitor's events runs.** -/
theorem observed (h : Tracked s) {e : MonitorEvent} (hposted : s.posted = .observed e :: rest)
    (queued : Bool) :
    Tracked ({ s with posted := rest, ran := s.ran ++ [e] }.observed P token queued e) := by
  have hhistory : s.history = s.ran ++ e :: rest.filterMap Job.event? := by
    rw [CardsState.history, hposted]
    rfl
  have hvalid := h.valid
  rw [hhistory] at hvalid
  have hallows : (Bench.of s.ran).Allows e := hvalid.allows
  have hran : Valid s.ran := hvalid.of_append
  have hvalid' : Valid (s.ran ++ [e] ++ rest.filterMap Job.event?) := by
    rw [List.append_assoc]
    exact hvalid
  have hasked : ∀ card, ({ s with posted := rest, ran := s.ran ++ [e] }).Asked card →
      s.Asked card := by
    rintro card (hcard | hcard | ⟨probe, hcard⟩)
    · exact .inl hcard
    · exact .inr (.inl hcard)
    · exact .inr (.inr ⟨probe, hposted ▸ List.mem_cons_of_mem _ hcard⟩)
  have hbench : Bench.of (s.ran ++ [e]) = (Bench.of s.ran).after e := Bench.of_snoc s.ran e
  have haccount := h.account.mono hasked
  cases e with
  | readerPublished reader =>
    refine ⟨hvalid', ?_, ?_⟩
    · show Shows (Bench.of (s.ran ++ [_])) _
      rw [hbench]
      exact h.shows.publishReader reader
    · refine (haccount.reader ?_).quiet ?_ ?_ <;> rintro _ ⟨⟩
  | cardPublished card =>
    have hfresh : card.id ∉ (Bench.of s.ran).used := hallows.1
    have hshows : Shows (Bench.of (s.ran ++ [.cardPublished card])) s.presence := by
      rw [hbench]
      exact h.shows.cardPublished card
    have hinsert : ∀ attempts : Attempts,
        Account (s.ran ++ [.cardPublished card]) (s.pendingCards.insert card.id ⟨card, attempts⟩)
          ({ s with posted := rest, ran := s.ran ++ [MonitorEvent.cardPublished card] }.scheduleCardResolve P
            card queued).Asked s.trace := by
      intro attempts
      refine h.account.insert hran hfresh attempts fun c hc => ?_
      rcases CardsState.asked_scheduleCardResolve hc with hc | hc
      · exact .inl (hasked c hc)
      · exact .inr hc
    cases queued with
    | true => exact ⟨hvalid', hshows, hinsert _⟩
    | false => exact ⟨hvalid', hshows, hinsert _⟩
  | withdrawn object =>
    have hshows : Shows (Bench.of (s.ran ++ [.withdrawn object])) (s.presence.withdraw object).1 := by
      rw [hbench]
      exact h.shows.withdraw hran.sound hallows
    simp only [CardsState.observed, CardsState.onWithdrawn]
    split
    · exact ⟨hvalid', hshows, haccount.withdraw object⟩
    · exact ⟨hvalid', hshows, haccount.withdraw object⟩
  | readerPropertiesChanged reader delta =>
    refine ⟨hvalid', ?_, ?_⟩
    · show Shows (Bench.of (s.ran ++ [_])) _
      rw [hbench]
      exact h.shows.updateProperties reader delta
    · refine (haccount.reader ?_).quiet ?_ ?_ <;> rintro _ ⟨⟩
  | readerRelabelled reader =>
    refine ⟨hvalid', ?_, ?_⟩
    · show Shows (Bench.of (s.ran ++ [_])) _
      rw [hbench]
      exact h.shows.relabelReader reader
    · refine (haccount.reader ?_).quiet ?_ ?_ <;> rintro _ ⟨⟩

/-- **Every move keeps track.** -/
theorem step (h : Tracked s) {i : CardsInput} {t : CardsState Attempts}
    (hst : s.step P token i = some t) : Tracked t := by
  cases i with
  | monitor e =>
    simp only [CardsState.step] at hst
    split at hst
    · rename_i hallows
      obtain rfl := Option.some.inj hst
      refine ⟨?_, h.shows, h.account.mono ?_⟩
      · have hvalid := h.valid.snoc hallows
        rw [CardsState.history, List.append_assoc] at hvalid
        show Valid (s.ran ++ (s.posted ++ [Job.observed e]).filterMap Job.event?)
        rw [List.filterMap_append]
        exact hvalid
      · rintro card (hcard | hcard | ⟨probe, hcard⟩)
        · exact .inl hcard
        · exact .inr (.inl hcard)
        · rcases List.mem_append.1 hcard with hcard | hcard
          · exact .inr (.inr ⟨probe, hcard⟩)
          · cases List.mem_singleton.1 hcard
    · cases hst
  | keyRemoved card =>
    simp only [CardsState.step] at hst
    split at hst
    · obtain rfl := Option.some.inj hst
      have hmark : Tracked { s with trace := s.trace ++ [.keyRemoved card.id] } := by
        refine ⟨h.valid, h.shows, h.account.quiet ?_ ?_⟩ <;> rintro _ ⟨⟩
      exact hmark.setReaderHold card.reader false
    · cases hst
  | run queued =>
    simp only [CardsState.step] at hst
    split at hst
    · cases hst
    · rename_i job rest hposted
      obtain rfl := Option.some.inj hst
      cases job with
      | observed e => exact h.observed hposted queued
      | applyCardResolution card probe =>
        have hasked : s.Asked card := by
          refine .inr (.inr ⟨probe, ?_⟩)
          rw [hposted]
          exact List.mem_cons_self
        exact (h.pop hposted rfl).applyCardResolution (h.account.asked card hasked) probe
      | updateCardType handle cardType =>
        have hpop := h.pop hposted rfl
        refine hpop.publish (hpop.shows.updateCardType handle cardType) ?_ ?_ <;> rintro _ ⟨⟩
  | probed i probe =>
    obtain ⟨e, he, rfl⟩ := Option.map_eq_some_iff.1 hst
    refine ⟨?_, h.shows, h.account.mono ?_⟩
    · show Valid ({ s with posted := s.posted ++ [Job.applyCardResolution e.1 probe] }).history
      rw [s.history_post rfl]
      exact h.valid
    · rintro card (hcard | ⟨name, hcard⟩ | ⟨probe', hcard⟩)
      · exact .inl hcard
      · exact .inr (.inl ⟨name, List.mem_of_mem_eraseIdx hcard⟩)
      · rcases List.mem_append.1 hcard with hcard | hcard
        · exact .inr (.inr ⟨probe', hcard⟩)
        · -- the card of the block just posted is the one its probe was for
          cases List.mem_singleton.1 hcard
          exact .inr (.inl ⟨e.2, List.mem_of_getElem? he⟩)
  | fire i queued =>
    obtain ⟨card, hcard, rfl⟩ := Option.map_eq_some_iff.1 hst
    have hasked : .cardPublished card ∈ s.ran :=
      h.account.asked card (.inl (List.mem_of_getElem? hcard))
    have hpop : Tracked { s with timers := s.timers.eraseIdx i } := by
      refine ⟨h.valid, h.shows, h.account.mono ?_⟩
      rintro c (hc | hc)
      · exact .inl (List.mem_of_mem_eraseIdx hc)
      · exact .inr hc
    simp only [CardsState.retry]
    split
    · rename_i hpending
      exact hpop.scheduleCardResolve hasked hpending queued
    · exact hpop
  | learned handle cardType =>
    obtain rfl := Option.some.inj hst
    refine ⟨?_, h.shows, h.account.mono ?_⟩
    · rw [s.history_post rfl]
      exact h.valid
    · rintro card (hcard | hcard | ⟨probe, hcard⟩)
      · exact .inl hcard
      · exact .inr (.inl hcard)
      · rcases List.mem_append.1 hcard with hcard | hcard
        · exact .inr (.inr ⟨probe, hcard⟩)
        · cases List.mem_singleton.1 hcard

end Tracked

variable {P : CardResolutionPolicy Attempts} {token : ReaderInterface → String}

theorem reachable_tracked {s : CardsState Attempts}
    (h : (cardResolution P token).Reachable s) : Tracked s := by
  refine h.invariant (I := Tracked) ?_ fun s i t hs hst => hs.step hst
  rintro s rfl
  exact .start

/-- **The published cards.** In every interleaving of the monitor, the
loop, the workers and the timers: at most one published card names a
reader, and that reader is published; a card is published at most once
and never after it was withdrawn; and a card that has been published is
not pending. -/
theorem one_card_per_reader {s : CardsState Attempts}
    (h : (cardResolution P token).Reachable s) :
    (∀ (h₁ : Handle) c₁, s.presence.cards[h₁]? = some c₁ → c₁.reader ∈ s.presence.readers ∧
      ∀ (h₂ : Handle) c₂, s.presence.cards[h₂]? = some c₂ → c₂.reader = c₁.reader → h₂ = h₁) ∧
    (∀ a b card, s.trace = a ++ .call (.publishCard card) :: b →
      .call (.withdraw card.id) ∉ a ∧
      ∀ card', .call (.publishCard card') ∈ a → card'.id ≠ card.id) ∧
    ∀ card, .call (.publishCard card) ∈ s.trace → card.id ∉ s.pendingCards := by
  have htracked := reachable_tracked h
  have hvalid := htracked.valid
  rw [CardsState.history] at hvalid
  have hsound : (Bench.of s.ran).Sound := hvalid.of_append.sound
  have hshows := htracked.shows
  refine ⟨fun h₁ c₁ hc₁ => ?_, fun a b card htrace => ?_, fun card hcard hpending => ?_⟩
  · obtain ⟨e₁, he₁, hcard₁, hreader₁⟩ := hshows.card h₁ c₁ hc₁
    refine ⟨?_, fun h₂ c₂ hc₂ hsame => ?_⟩
    · obtain ⟨handle, hmem, hid⟩ := hshows.named e₁.2 (hsound.reader e₁ he₁)
      obtain rfl := Option.some.inj (hid.symm.trans hreader₁)
      exact hmem
    · obtain ⟨e₂, he₂, hcard₂, hreader₂⟩ := hshows.card h₂ c₂ hc₂
      rw [hsame] at hreader₂
      have hreader := hshows.numbered.unique e₂.2 e₁.2 _ hreader₂ hreader₁
      obtain rfl := hsound.one_card e₂ he₂ e₁ he₁ hreader
      exact Option.some.inj (hcard₂.symm.trans hcard₁)
  · have honce := htracked.account.once
    rw [htrace] at honce
    obtain ⟨-, -, hapart⟩ := List.pairwise_append.1 honce
    refine ⟨fun hgone => ?_, fun card' hcard' => ?_⟩
    · exact (hapart _ hgone _ List.mem_cons_self card rfl).1 rfl
    · exact (hapart _ hcard' _ List.mem_cons_self card rfl).2 card' rfl
  · obtain ⟨p, hp⟩ := Option.isSome_iff_exists.1 (ExtTreeMap.mem_iff_isSome_getElem?.1 hpending)
    exact (htracked.account.pending card.id p hp).2.2.2 card hcard rfl

/-- Two cards in turn in one reader; the probe of the first comes back when
the second is in. -/
def staleProbe : List CardsInput :=
  [.monitor (.readerPublished ⟨1, "Reader", false, none, "", .unknown⟩),
   .monitor (.cardPublished ⟨2, 1, 0, 0, "", "3B"⟩), .run true, .run true,
   .monitor (.withdrawn 2), .monitor (.cardPublished ⟨3, 1, 0, 0, "", "3B"⟩), .run true, .run true,
   .probed 0 ⟨5, 1, "eMRTD", none⟩, .run true, .probed 0 ⟨4, 1, "PKI", none⟩, .run true]

theorem one_card_per_reader_staleProbe :
    ∃ s, (cardResolution plainPolicy plainToken).run .start staleProbe = some s ∧
      s.presence.cards.keys = ["obj/2"] ∧ 3 ∉ s.pendingCards := by
  have hreach : ∀ s, (cardResolution plainPolicy plainToken).run .start staleProbe = some s →
      (cardResolution plainPolicy plainToken).Reachable s := fun s hrun => ⟨_, _, rfl, hrun⟩
  refine ⟨_, rfl, by decide, ?_⟩
  exact (one_card_per_reader (hreach _ rfl)).2.2 ⟨3, 1, 4, 1, "PKI", "3B"⟩ (by decide)

end Frontend

end LibreDarwin
