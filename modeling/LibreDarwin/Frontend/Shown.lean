import LibreDarwin.Transport.Handles
import LibreDarwin.Frontend.Monitor

/-!
# The bench, as the transport shows it

The monitor speaks of object ids, clients of handles. A presence `Shows` a
bench when the readers on show are the bench's readers, and every card on
show is a card of the bench, in its reader. The entry points keep this, as
the monitor's events move the bench (`Shows.event`); a card goes on show
when it is published (`Shows.publishCard`).
-/

namespace LibreDarwin

namespace Frontend

open Wire Transport
open Std (ExtTreeMap)

/-- **A presence shows a bench.** -/
structure Shows (b : Bench) (p : Presence) : Prop where
  numbered : p.Numbered
  named : ∀ r ∈ b.readers, ∃ h ∈ p.readers, p.idToHandle[r]? = some h
  reader : ∀ h ∈ p.readers, ∃ r ∈ b.readers, p.idToHandle[r]? = some h
  card : ∀ h c, p.cards[h]? = some c →
    ∃ e ∈ b.cards, p.idToHandle[e.1]? = some h ∧ p.idToHandle[e.2]? = some c.reader

namespace Shows

variable {b : Bench} {p q : Presence} {token : ReaderInterface → String}

theorem empty : Shows .empty .empty := by
  refine ⟨.empty, ?_, ?_, ?_⟩
  · simp [Bench.empty]
  · intro h hh
    simp [Presence.empty] at hh
  · intro h c hc
    simp [Presence.empty] at hc

/-- Giving out handles shows nothing new. -/
theorem extend (h : Shows b p) (hq : q.Numbered) (hext : Presence.Extends p q) : Shows b q where
  numbered := hq
  named := by
    intro r hr
    obtain ⟨handle, hreader, hid⟩ := h.named r hr
    exact ⟨handle, hext.readers ▸ hreader, hext.kept r handle hid⟩
  reader := by
    intro handle hhandle
    obtain ⟨r, hr, hid⟩ := h.reader handle (hext.readers ▸ hhandle)
    exact ⟨r, hr, hext.kept r handle hid⟩
  card := by
    intro handle c hc
    obtain ⟨e, he, hcard, hreader⟩ := h.card handle c (hext.cards ▸ hc)
    exact ⟨e, he, hext.kept _ handle hcard, hext.kept _ c.reader hreader⟩

/-- A reader on show may change. -/
theorem setReader (h : Shows b p) {handle : Handle} {r r' : ReaderState}
    (hr : p.readers[handle]? = some r) :
    Shows b { p with readers := p.readers.insert handle r' } := by
  have hshown : handle ∈ p.readers := by
    rw [ExtTreeMap.mem_iff_isSome_getElem?, hr]
    rfl
  refine ⟨⟨h.numbered.given, h.numbered.unique⟩, ?_, ?_, h.card⟩
  · intro r hr
    obtain ⟨handle', hmem, hid⟩ := h.named r hr
    exact ⟨handle', ExtTreeMap.mem_insert.2 (.inr hmem), hid⟩
  · intro handle' hmem
    rcases ExtTreeMap.mem_insert.1 hmem with heq | hmem
    · obtain rfl := Std.LawfulEqOrd.eq_of_compare heq
      exact h.reader handle hshown
    · exact h.reader handle' hmem

/-- **A reader is published.** -/
theorem publishReader (h : Shows b p) (reader : CoreReader) :
    Shows (b.after (.readerPublished reader)) (p.publishReader reader).1 := by
  obtain ⟨hnum, hext, hid⟩ := h.numbered.handleFor reader.id
  obtain ⟨hnum', hext'⟩ := hnum.handleFor? reader.card
  have hshows := h.extend hnum' (hext.trans hext')
  have hid := hext'.kept _ _ hid
  simp only [Presence.publishReader]
  generalize ((p.handleFor reader.id).2.handleFor? reader.card) = out at hshows hid
  generalize (p.handleFor reader.id).1 = handle at hid
  refine ⟨⟨hshows.numbered.given, hshows.numbered.unique⟩, ?_, ?_, hshows.card⟩
  · intro r hr
    rcases List.mem_cons.1 hr with rfl | hr
    · exact ⟨handle, ExtTreeMap.mem_insert_self, hid⟩
    · obtain ⟨handle', hmem, hid'⟩ := hshows.named r hr
      exact ⟨handle', ExtTreeMap.mem_insert.2 (.inr hmem), hid'⟩
  · intro handle' hmem
    rcases ExtTreeMap.mem_insert.1 hmem with heq | hmem
    · obtain rfl := Std.LawfulEqOrd.eq_of_compare heq
      exact ⟨reader.id, List.mem_cons_self, hid⟩
    · obtain ⟨r, hr, hid'⟩ := hshows.reader handle' hmem
      exact ⟨r, List.mem_cons_of_mem _ hr, hid'⟩

/-- A card is inserted: it is not on show yet. -/
theorem cardPublished (h : Shows b p) (card : CoreCard) :
    Shows (b.after (.cardPublished card)) p := by
  refine ⟨h.numbered, h.named, h.reader, fun handle c hc => ?_⟩
  obtain ⟨e, he, hboth⟩ := h.card handle c hc
  exact ⟨e, List.mem_cons_of_mem _ he, hboth⟩

/-- **A card of the bench is published.** -/
theorem publishCard (h : Shows b p) {card : CoreCard} (hcard : (card.id, card.reader) ∈ b.cards) :
    Shows b (p.publishCard card).1 := by
  obtain ⟨hnum, hext, hid⟩ := h.numbered.handleFor card.id
  obtain ⟨hnum', hext', hreader⟩ := hnum.handleFor card.reader
  have hshows := h.extend hnum' (hext.trans hext')
  have hid := hext'.kept _ _ hid
  simp only [Presence.publishCard]
  generalize ((p.handleFor card.id).2.handleFor card.reader) = out at hshows hid hreader
  generalize (p.handleFor card.id).1 = handle at hid
  refine ⟨⟨hshows.numbered.given, hshows.numbered.unique⟩, hshows.named, hshows.reader, ?_⟩
  intro handle' c hc
  have hlookup : (out.2.cards.insert handle ⟨handle, out.1, card.capabilities, card.preReadAuth,
      Presence.absentIfEmpty card.cardType, Presence.absentIfEmpty card.atrHex⟩)[handle']? =
        some c := hc
  rw [ExtTreeMap.getElem?_insert] at hlookup
  split at hlookup
  · rename_i heq
    obtain rfl := Std.LawfulEqOrd.eq_of_compare heq
    obtain rfl := Option.some.inj hlookup
    exact ⟨_, hcard, hid, hreader⟩
  · exact hshows.card handle' c hlookup

/-- A card on show may change its type. -/
theorem updateCardType (h : Shows b p) (handle : Handle) (cardType : String) :
    Shows b (p.updateCardType handle cardType).1 := by
  unfold Presence.updateCardType
  cases hc : p.cards[handle]? with
  | none => exact h
  | some c =>
    dsimp only
    split
    · exact h
    · refine ⟨⟨h.numbered.given, h.numbered.unique⟩, h.named, h.reader, ?_⟩
      intro handle' c' hc'
      have hlookup : (p.cards.insert handle { c with cardType := some cardType })[handle']? =
          some c' := hc'
      rw [ExtTreeMap.getElem?_insert] at hlookup
      split at hlookup
      · rename_i heq
        obtain rfl := Std.LawfulEqOrd.eq_of_compare heq
        obtain rfl := Option.some.inj hlookup
        exact h.card handle c hc
      · exact h.card handle' c' hlookup

/-- An object that leaves takes its handle, and what was shown under it. -/
theorem forget (h : Shows b p) (hb : b.Sound) {object : ObjectId} {handle : Handle}
    (hallows : b.Allows (.withdrawn object)) (hid : p.idToHandle[object]? = some handle)
    (hids : q.idToHandle = p.idToHandle.erase object) (hnext : q.nextHandle = p.nextHandle)
    (hreaders : ∀ h, h ∈ q.readers ↔ h ∈ p.readers ∧ h ≠ handle)
    (hcards : ∀ (h : Handle) c, q.cards[h]? = some c → p.cards[h]? = some c ∧ h ≠ handle) :
    Shows (b.after (.withdrawn object)) q := by
  have hkept : ∀ id : ObjectId, id ≠ object → q.idToHandle[id]? = p.idToHandle[id]? := by
    intro id hne
    rw [hids, ExtTreeMap.getElem?_erase]
    simp [Ne.symm hne]
  have hold : ∀ (id : ObjectId) h, q.idToHandle[id]? = some h → p.idToHandle[id]? = some h := by
    intro id h hh
    rw [hids, ExtTreeMap.getElem?_erase] at hh
    split at hh
    · cases hh
    · exact hh
  -- a card that stays is in a reader that stays
  have hstays : ∀ e ∈ b.cards, e.2 ≠ object := by
    intro e he heq
    rcases hallows with ⟨e', he', hcard⟩ | ⟨-, hfree⟩
    · exact hb.apart e' he' (hcard ▸ heq ▸ hb.reader e he)
    · exact hfree e he heq
  refine ⟨⟨?_, ?_⟩, ?_, ?_, ?_⟩
  · intro id h' hh
    rw [hnext]
    exact h.numbered.given id h' (hold id h' hh)
  · intro id₁ id₂ h' h₁ h₂
    exact h.numbered.unique id₁ id₂ h' (hold id₁ h' h₁) (hold id₂ h' h₂)
  · intro r hr
    obtain ⟨hr, hne⟩ := List.mem_filter.1 hr
    have hne : r ≠ object := by simpa using hne
    obtain ⟨h', hmem, hid'⟩ := h.named r hr
    refine ⟨h', (hreaders h').2 ⟨hmem, ?_⟩, (hkept r hne).trans hid'⟩
    rintro rfl
    exact hne (h.numbered.unique r object _ hid' hid)
  · intro h' hmem
    obtain ⟨hmem, hne⟩ := (hreaders h').1 hmem
    obtain ⟨r, hr, hid'⟩ := h.reader h' hmem
    have hother : r ≠ object := by
      rintro rfl
      exact hne (Option.some.inj (hid'.symm.trans hid))
    exact ⟨r, by simpa [Bench.after, hother] using hr, (hkept r hother).trans hid'⟩
  · intro h' c hc
    obtain ⟨hc, hne⟩ := hcards h' c hc
    obtain ⟨e, he, hcard, hreader⟩ := h.card h' c hc
    have hother : e.1 ≠ object := by
      intro heq
      rw [heq, hid] at hcard
      exact hne (Option.some.inj hcard).symm
    refine ⟨e, by simpa [Bench.after, hother] using he, (hkept _ hother).trans hcard, ?_⟩
    exact (hkept _ (hstays e he)).trans hreader

/-- **A reader or a card is withdrawn.** -/
theorem withdraw (h : Shows b p) (hb : b.Sound) {object : ObjectId}
    (hallows : b.Allows (.withdrawn object)) :
    Shows (b.after (.withdrawn object)) (p.withdraw object).1 := by
  unfold Presence.withdraw
  cases hid : p.idToHandle[object]? with
  | none =>
    -- nothing is shown of an object without a handle
    have hnot : ∀ (id : ObjectId) h, p.idToHandle[id]? = some h → id ≠ object := by
      rintro id h hh rfl
      rw [hid] at hh
      cases hh
    refine ⟨h.numbered, ?_, ?_, ?_⟩
    · intro r hr
      exact h.named r (List.mem_filter.1 hr).1
    · intro h' hmem
      obtain ⟨r, hr, hid'⟩ := h.reader h' hmem
      exact ⟨r, by simpa [Bench.after, hnot r h' hid'] using hr, hid'⟩
    · intro h' c hc
      obtain ⟨e, he, hcard, hreader⟩ := h.card h' c hc
      exact ⟨e, by simpa [Bench.after, hnot e.1 h' hcard] using he, hcard, hreader⟩
  | some handle =>
    dsimp only
    by_cases hreader : handle ∈ p.readers
    · rw [if_pos hreader]
      refine h.forget hb hallows hid rfl rfl (fun h' => ?_) (fun h' c hc => ⟨hc, ?_⟩)
      · show h' ∈ p.readers.erase handle ↔ _
        rw [ExtTreeMap.mem_erase, Ne, Std.LawfulEqOrd.compare_eq_iff_eq]
        exact and_comm.trans (and_congr_right fun _ => ne_comm)
      · -- the handle of a reader is not the handle of a card
        rintro rfl
        obtain ⟨r, hr, hid'⟩ := h.reader h' hreader
        obtain ⟨e, he, hcard, -⟩ := h.card h' c hc
        exact hb.apart e he (h.numbered.unique _ _ _ hid' hcard ▸ hr)
    · rw [if_neg hreader]
      have hreaders : ∀ h', h' ∈ p.readers ↔ h' ∈ p.readers ∧ h' ≠ handle := by
        intro h'
        refine ⟨fun hmem => ⟨hmem, ?_⟩, fun hboth => hboth.1⟩
        rintro rfl
        exact hreader hmem
      by_cases hcard : handle ∈ p.cards
      · rw [if_pos hcard]
        refine h.forget hb hallows hid rfl rfl hreaders (fun h' c hc => ?_)
        have hlookup : (p.cards.erase handle)[h']? = some c := hc
        rw [ExtTreeMap.getElem?_erase] at hlookup
        split at hlookup
        · cases hlookup
        · rename_i hne
          refine ⟨hlookup, ?_⟩
          rintro rfl
          exact hne Std.ReflCmp.compare_self
      · rw [if_neg hcard]
        refine h.forget hb hallows hid rfl rfl hreaders (fun h' c hc => ⟨hc, ?_⟩)
        rintro rfl
        have : h' ∈ p.cards := by
          rw [ExtTreeMap.mem_iff_isSome_getElem?, show p.cards[h']? = some c from hc]
          rfl
        exact hcard this

theorem updateProperties (h : Shows b p) (reader : ObjectId) (delta : PropertyDelta) :
    Shows b (p.updateProperties reader delta).1 := by
  unfold Presence.updateProperties
  cases hof : p.readerOf reader with
  | none => exact h
  | some found =>
    obtain ⟨handle, r⟩ := found
    have hr := Presence.readerOf_eq_some hof
    obtain ⟨hnum, hext⟩ := h.numbered.handleFor? (if delta.hasCard then delta.card else none)
    exact (h.extend hnum hext).setReader (hext.readers ▸ hr)

theorem relabelReader (h : Shows b p) (reader : CoreReader) :
    Shows b (p.relabelReader token reader).1 := by
  unfold Presence.relabelReader
  cases hof : p.readerOf reader.id with
  | none => exact h
  | some found =>
    obtain ⟨handle, r⟩ := found
    dsimp only
    split
    · exact h
    · exact h.setReader (Presence.readerOf_eq_some hof)

end Shows

end Frontend

end LibreDarwin
