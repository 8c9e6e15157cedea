import LibreDarwin.Frontend.Model.Monitor

/-!
# What the monitor's promise gives

An id names one object for good: a card event of a valid list is the only
one of its id (`Valid.card_unique`). The bench a valid list leaves is
`Sound`: no reader holds two cards, a card's reader is there, and no id
is both. A card of the list is on the bench until it is withdrawn
(`Valid.card_on_bench`).
-/

namespace LibreDarwin

namespace Frontend

open Wire Transport

namespace Bench

variable {b : Bench}

@[simp] theorem of_nil : Bench.of [] = .empty := rfl

@[simp] theorem of_snoc (events : List MonitorEvent) (e : MonitorEvent) :
    Bench.of (events ++ [e]) = (Bench.of events).after e := by
  simp [Bench.of]

/-- **A sound bench.** -/
structure Sound (b : Bench) : Prop where
  used_reader : ∀ r ∈ b.readers, r ∈ b.used
  used_card : ∀ e ∈ b.cards, e.1 ∈ b.used
  apart : ∀ e ∈ b.cards, e.1 ∉ b.readers
  reader : ∀ e ∈ b.cards, e.2 ∈ b.readers
  one_card : ∀ e₁ ∈ b.cards, ∀ e₂ ∈ b.cards, e₁.2 = e₂.2 → e₁ = e₂
  one_reader : ∀ e₁ ∈ b.cards, ∀ e₂ ∈ b.cards, e₁.1 = e₂.1 → e₁ = e₂

theorem Sound.empty : Bench.empty.Sound := by
  refine ⟨?_, ?_, ?_, ?_, ?_, ?_⟩ <;> simp [Bench.empty]

/-- **An allowed event keeps the bench sound.** -/
theorem Sound.after (h : b.Sound) {e : MonitorEvent} (he : b.Allows e) : (b.after e).Sound := by
  cases e with
  | readerPublished reader =>
    have hfresh : reader.id ∉ b.used := he
    refine ⟨?_, ?_, ?_, ?_, h.one_card, h.one_reader⟩
    · intro r hr
      rcases List.mem_cons.1 hr with rfl | hr
      · exact List.mem_cons_self
      · exact List.mem_cons_of_mem _ (h.used_reader r hr)
    · intro e he
      exact List.mem_cons_of_mem _ (h.used_card e he)
    · intro e he hr
      rcases List.mem_cons.1 hr with heq | hr
      · exact hfresh (heq ▸ h.used_card e he)
      · exact h.apart e he hr
    · intro e he
      exact List.mem_cons_of_mem _ (h.reader e he)
  | cardPublished card =>
    obtain ⟨hfresh, hreader, hfree⟩ := he
    refine ⟨?_, ?_, ?_, ?_, ?_, ?_⟩
    · intro r hr
      exact List.mem_cons_of_mem _ (h.used_reader r hr)
    · intro e he
      rcases List.mem_cons.1 he with rfl | he
      · exact List.mem_cons_self
      · exact List.mem_cons_of_mem _ (h.used_card e he)
    · intro e he hr
      rcases List.mem_cons.1 he with rfl | he
      · exact hfresh (h.used_reader _ hr)
      · exact h.apart e he hr
    · intro e he
      rcases List.mem_cons.1 he with rfl | he
      · exact hreader
      · exact h.reader e he
    · intro e₁ he₁ e₂ he₂ heq
      rcases List.mem_cons.1 he₁ with rfl | he₁ <;> rcases List.mem_cons.1 he₂ with rfl | he₂
      · rfl
      · exact absurd heq.symm (hfree e₂ he₂)
      · exact absurd heq (hfree e₁ he₁)
      · exact h.one_card e₁ he₁ e₂ he₂ heq
    · intro e₁ he₁ e₂ he₂ heq
      rcases List.mem_cons.1 he₁ with rfl | he₁ <;> rcases List.mem_cons.1 he₂ with rfl | he₂
      · rfl
      · exact absurd (h.used_card e₂ he₂) (heq ▸ hfresh)
      · exact absurd (h.used_card e₁ he₁) (heq ▸ hfresh)
      · exact h.one_reader e₁ he₁ e₂ he₂ heq
  | withdrawn object =>
    have hcards : ∀ e ∈ (b.after (.withdrawn object)).cards, e ∈ b.cards ∧ e.1 ≠ object := by
      intro e he
      simpa [Bench.after] using he
    have hreaders : ∀ r ∈ (b.after (.withdrawn object)).readers, r ∈ b.readers := by
      intro r hr
      exact (List.mem_filter.1 hr).1
    refine ⟨fun r hr => h.used_reader r (hreaders r hr), fun e he => h.used_card e (hcards e he).1,
      fun e he hr => h.apart e (hcards e he).1 (hreaders _ hr), ?_, ?_, ?_⟩
    · intro e hmem
      obtain ⟨hcard, -⟩ := hcards e hmem
      have hstays : e.2 ≠ object := by
        rcases he with ⟨e', he', rfl⟩ | ⟨-, hfree⟩
        · intro heq
          exact h.apart e' he' (heq ▸ h.reader e hcard)
        · exact hfree e hcard
      simpa [Bench.after, hstays] using h.reader e hcard
    · intro e₁ he₁ e₂ he₂
      exact h.one_card e₁ (hcards e₁ he₁).1 e₂ (hcards e₂ he₂).1
    · intro e₁ he₁ e₂ he₂
      exact h.one_reader e₁ (hcards e₁ he₁).1 e₂ (hcards e₂ he₂).1
  | readerPropertiesChanged reader delta => exact h
  | readerRelabelled reader => exact h

end Bench

theorem Valid.nil : Valid [] := by
  intro a e b h
  cases a <;> cases h

/-- One more event, allowed at the end. -/
theorem Valid.snoc {events : List MonitorEvent} {e : MonitorEvent} (h : Valid events)
    (he : (Bench.of events).Allows e) : Valid (events ++ [e]) := by
  intro a e' b heq
  rcases List.eq_nil_or_concat b with rfl | ⟨b, e'', rfl⟩
  · obtain ⟨rfl, hlast⟩ := List.append_inj' heq rfl
    obtain rfl := List.singleton_inj.1 hlast
    exact he
  · have heq : events ++ [e] = (a ++ e' :: b) ++ [e''] := by rw [heq]; simp
    exact h a e' b (List.append_inj' heq rfl).1

theorem Valid.of_append {a b : List MonitorEvent} (h : Valid (a ++ b)) : Valid a := by
  intro a' e b' heq
  exact h a' e (b' ++ b) (by rw [heq]; simp)

/-- The event at the end was allowed. -/
theorem Valid.allows {events rest : List MonitorEvent} {e : MonitorEvent}
    (h : Valid (events ++ e :: rest)) : (Bench.of events).Allows e := h events e rest rfl

/-- **The bench a valid list leaves is sound.** -/
theorem Valid.sound {events : List MonitorEvent} (h : Valid events) : (Bench.of events).Sound := by
  induction events using List.reverseRecOn with
  | nil => exact .empty
  | append_singleton events e ih =>
    rw [Bench.of_snoc]
    exact (ih h.of_append).after h.allows

/-- Ids stay used. -/
theorem used_of_published {events : List MonitorEvent} {card : CoreCard}
    (h : .cardPublished card ∈ events) : card.id ∈ (Bench.of events).used := by
  induction events using List.reverseRecOn with
  | nil => cases h
  | append_singleton events e ih =>
    rw [Bench.of_snoc]
    rcases List.mem_append.1 h with h | h
    · have := ih h
      cases e <;> simp [Bench.after, this]
    · obtain rfl := List.mem_singleton.1 h
      exact List.mem_cons_self

/-- What is withdrawn was there. -/
theorem Valid.used_of_withdrawn {events : List MonitorEvent} (h : Valid events) {id : ObjectId}
    (hgone : .withdrawn id ∈ events) : id ∈ (Bench.of events).used := by
  induction events using List.reverseRecOn with
  | nil => cases hgone
  | append_singleton events e ih =>
    rw [Bench.of_snoc]
    rcases List.mem_append.1 hgone with hold | hlast
    · have hused := ih h.of_append hold
      cases e <;> simp [Bench.after, hused]
    · obtain rfl := List.mem_singleton.1 hlast
      have hsound := h.of_append.sound
      rcases h.allows with ⟨e, he, rfl⟩ | ⟨hreader, -⟩
      · exact hsound.used_card e he
      · exact hsound.used_reader _ hreader

/-- **A card event is the only one of its id.** -/
theorem Valid.card_unique {events : List MonitorEvent} (h : Valid events) {c₁ c₂ : CoreCard}
    (h₁ : .cardPublished c₁ ∈ events) (h₂ : .cardPublished c₂ ∈ events) (hid : c₁.id = c₂.id) :
    c₁ = c₂ := by
  induction events using List.reverseRecOn with
  | nil => cases h₁
  | append_singleton events e ih =>
    -- the event at the end was fresh, so it repeats none before it
    have hfresh : ∀ c c' : CoreCard, .cardPublished c ∈ events → e = .cardPublished c' →
        c.id ≠ c'.id := by
      rintro c c' hc rfl heq
      exact h.allows.1 (heq ▸ used_of_published hc)
    rcases List.mem_append.1 h₁ with h₁ | h₁ <;> rcases List.mem_append.1 h₂ with h₂ | h₂
    · exact ih h.of_append h₁ h₂
    · exact absurd hid (hfresh c₁ c₂ h₁ (List.mem_singleton.1 h₂).symm)
    · exact absurd hid.symm (hfresh c₂ c₁ h₂ (List.mem_singleton.1 h₁).symm)
    · have heq := (List.mem_singleton.1 h₁).trans (List.mem_singleton.1 h₂).symm
      injection heq

/-- **A card is on the bench until it is withdrawn.** -/
theorem card_on_bench {events : List MonitorEvent} {card : CoreCard}
    (h : .cardPublished card ∈ events) :
    (card.id, card.reader) ∈ (Bench.of events).cards ∨ .withdrawn card.id ∈ events := by
  induction events using List.reverseRecOn with
  | nil => cases h
  | append_singleton events e ih =>
    rw [Bench.of_snoc]
    rcases List.mem_append.1 h with h | h
    · rcases ih h with hcard | hgone
      · cases e with
        | withdrawn object =>
          by_cases heq : card.id = object
          · exact .inr (by simp [heq])
          · exact .inl (by simpa [Bench.after, heq] using hcard)
        | cardPublished card' => exact .inl (List.mem_cons_of_mem _ hcard)
        | _ => exact .inl hcard
      · exact .inr (List.mem_append_left _ hgone)
    · obtain rfl := List.mem_singleton.1 h
      exact .inl List.mem_cons_self

end Frontend

end LibreDarwin
