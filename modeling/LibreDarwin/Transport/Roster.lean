import LibreDarwin.Transport.Routing

/-!
# The roster

The snapshot other threads read is a copy, rebuilt by some entry points
and left alone by the others. It is never stale all the same
(`current_after`): the ones that leave it alone change nothing it is made
of, which is the readers' names, the reader each card names and the
routings (`rebuildRoster_congr`). This holds of any calls in any order;
the ids need not keep to the registry's rules.
-/

namespace LibreDarwin

namespace Transport

open Wire
open Std (ExtTreeMap)

variable {token : ReaderInterface → String} {p q : Presence}
variable {calls : List Presence.Call} {call : Presence.Call}

namespace Presence

/-- The roster is what a rebuild would make it. -/
def Current (p : Presence) : Prop := p.roster = p.rebuildRoster.roster

/-- The reader a card names, of every card. -/
def seats (p : Presence) : ExtTreeMap Handle Handle := p.cards.map fun _ c => c.reader

/-- Every reader's name. -/
def readerNames (p : Presence) : ExtTreeMap Handle String := p.readers.map fun _ r => r.name

theorem cardKeyIn_eq (p : Presence) (reader : Handle) :
    p.cardKeyIn reader = (((p.seats.toList.find? fun e => e.2 = reader).bind fun e =>
      p.cardRoutings[e.1]?).map CardRouting.cardKey).getD "" := by
  rw [cardKeyIn, seats, ExtTreeMap.toList_map, List.find?_map]
  show _ = (((Option.map _ (p.cards.toList.find? fun c => c.2.reader = reader)).bind _).map _).getD _
  cases p.cards.toList.find? fun c => c.2.reader = reader with
  | none => rfl
  | some e => rfl

/-- **All a roster is made of.** -/
theorem rebuildRoster_congr (hnames : q.readerNames = p.readerNames) (hseats : q.seats = p.seats)
    (hroutings : q.cardRoutings = p.cardRoutings) :
    q.rebuildRoster.roster = p.rebuildRoster.roster := by
  have hkeys : ∀ reader, q.cardKeyIn reader = p.cardKeyIn reader := by
    intro reader
    rw [cardKeyIn_eq, cardKeyIn_eq, hseats, hroutings]
  have hlist : q.readers.toList.map (fun e => (e.1, e.2.name)) =
      p.readers.toList.map fun e => (e.1, e.2.name) := by
    have := congrArg ExtTreeMap.toList hnames
    rwa [readerNames, readerNames, ExtTreeMap.toList_map, ExtTreeMap.toList_map] at this
  have hcolumn : ∀ {β : Type} (f : Handle × String → β),
      q.readers.toList.map (fun e => f (e.1, e.2.name)) =
        p.readers.toList.map fun e => f (e.1, e.2.name) := by
    intro β f
    have := congrArg (List.map f) hlist
    rwa [List.map_map, List.map_map] at this
  simp only [rebuildRoster, hkeys]
  rw [hcolumn Prod.snd, hcolumn fun e => p.cardKeyIn e.1]

theorem current_rebuildRoster (p : Presence) : p.rebuildRoster.Current := rfl

/-- An entry point that leaves the roster alone leaves alone what it is
made of. -/
theorem Current.congr (h : p.Current) (hroster : q.roster = p.roster)
    (hnames : q.readerNames = p.readerNames) (hseats : q.seats = p.seats)
    (hroutings : q.cardRoutings = p.cardRoutings) : q.Current := by
  rw [Current, hroster, rebuildRoster_congr hnames hseats hroutings]
  exact h

theorem Current.handleFor? (h : p.Current) (id : Option ObjectId) : (p.handleFor? id).2.Current := by
  cases id with
  | none => exact h
  | some id =>
    rcases p.handleFor_cases id with ⟨handle, -, heq⟩ | ⟨-, heq⟩
    · rw [Presence.handleFor?, heq]
      exact h
    · rw [Presence.handleFor?, heq]
      exact h.congr rfl rfl rfl rfl

/-- A reader that keeps its name. -/
theorem Current.setReader (h : p.Current) {handle : Handle} {r r' : ReaderState}
    (hr : p.readers[handle]? = some r) (hname : r'.name = r.name) :
    ({ p with readers := p.readers.insert handle r' } : Presence).Current :=
  h.congr rfl (map_insert_same hr hname) rfl rfl

/-- **The roster is never stale.** -/
theorem current_after (h : p.Current) (call : Call) : (p.after token call).1.Current := by
  cases call with
  | publishReader reader => exact current_rebuildRoster _
  | relabelReader reader =>
    simp only [after, relabelReader]
    cases hof : p.readerOf reader.id with
    | none => exact h
    | some found =>
      obtain ⟨handle, r⟩ := found
      dsimp only
      split
      · exact h
      · exact h.setReader (readerOf_eq_some hof) rfl
  | publishCard card => exact current_rebuildRoster _
  | withdraw object =>
    simp only [after, withdraw]
    cases p.idToHandle[object]? with
    | none => exact h
    | some handle =>
      dsimp only
      split_ifs
      · exact current_rebuildRoster _
      · exact current_rebuildRoster _
      · exact current_rebuildRoster _
  | updateProperties reader delta =>
    simp only [after, updateProperties]
    cases hof : p.readerOf reader with
    | none => exact h
    | some found =>
      obtain ⟨handle, r⟩ := found
      have hsame := congrArg Replica.readers
        (replica_handleFor? p (if delta.hasCard then delta.card else none))
      have hreaders : (p.handleFor? (if delta.hasCard then delta.card else none)).2.readers =
          p.readers := hsame
      have hr : (p.handleFor? (if delta.hasCard then delta.card else none)).2.readers[handle]? =
          some r := by
        rw [hreaders]
        exact readerOf_eq_some hof
      exact (h.handleFor? _).setReader hr rfl
  | updateCardType handle cardType =>
    simp only [after, updateCardType]
    cases hc : p.cards[handle]? with
    | none => exact h
    | some c =>
      dsimp only
      split
      · exact h
      · exact h.congr rfl rfl (map_insert_same hc rfl) rfl

theorem current_ofCalls (calls : List Call) : (ofCalls token calls).Current := by
  induction calls using List.reverseRecOn with
  | nil =>
    show (⟨[], []⟩ : PresenceRoster) = _
    simp [ofCalls, rebuildRoster, empty]
  | append_singleton calls call ih =>
    rw [ofCalls_snoc]
    exact current_after ih call

/-! ## The key beside a name -/

/-- The handle a card was published under, by one of the calls. -/
def PublishedAs (token : ReaderInterface → String) (calls : List Call) (h : Handle)
    (card : CoreCard) : Prop :=
  ∃ pre post, calls = pre ++ .publishCard card :: post ∧
    ((ofCalls token pre).handleFor card.id).1 = h

theorem PublishedAs.more {h : Handle} {card : CoreCard} (hpub : PublishedAs token calls h card)
    (call : Call) : PublishedAs token (calls ++ [call]) h card := by
  obtain ⟨pre, post, rfl, hh⟩ := hpub
  exact ⟨pre, post ++ [call], by simp, hh⟩

/-- **Every published card is routed by the key of its id.** -/
def Filed (token : ReaderInterface → String) (calls : List Call) (p : Presence) : Prop :=
  ∀ h ∈ p.cards, ∃ card routing, PublishedAs token calls h card ∧
    p.cardRoutings[h]? = some routing ∧ routing.cardKey = card.id.repr

/-- **Cards may leave**, and the routings of the others stay. -/
def Fewer (p q : Presence) : Prop :=
  ∀ handle ∈ q.cards, handle ∈ p.cards ∧ q.cardRoutings[handle]? = p.cardRoutings[handle]?

theorem fewer_rfl : Fewer p p := fun _ hh => ⟨hh, rfl⟩

theorem fewer_of_eq (hcards : q.cards = p.cards) (hroutings : q.cardRoutings = p.cardRoutings) :
    Fewer p q := by
  intro handle hh
  exact ⟨hcards ▸ hh, by rw [hroutings]⟩

theorem cards_handleFor (p : Presence) (id : ObjectId) : (p.handleFor id).2.cards = p.cards :=
  congrArg Replica.cards (p.replica_handleFor id)

theorem cards_handleFor? (p : Presence) (id : Option ObjectId) :
    (p.handleFor? id).2.cards = p.cards :=
  congrArg Replica.cards (p.replica_handleFor? id)

theorem cardRoutings_handleFor (p : Presence) (id : ObjectId) :
    (p.handleFor id).2.cardRoutings = p.cardRoutings := by
  rcases p.handleFor_cases id with ⟨h, -, heq⟩ | ⟨-, heq⟩
  · rw [heq]
  · rw [heq]

theorem cardRoutings_handleFor? (p : Presence) (id : Option ObjectId) :
    (p.handleFor? id).2.cardRoutings = p.cardRoutings := by
  cases id with
  | none => rfl
  | some id => exact p.cardRoutings_handleFor id

theorem fewer_withdraw (p : Presence) (object : ObjectId) : Fewer p (p.withdraw object).1 := by
  unfold withdraw
  cases p.idToHandle[object]? with
  | none => exact fewer_rfl
  | some gone =>
    dsimp only
    split_ifs
    · exact fewer_of_eq rfl rfl
    · intro handle hh
      obtain ⟨hne, hold⟩ := ExtTreeMap.mem_erase.1 hh
      refine ⟨hold, ?_⟩
      show (p.cardRoutings.erase gone)[handle]? = _
      rw [ExtTreeMap.getElem?_erase, if_neg hne]
    · exact fewer_of_eq rfl rfl

/-- A call that publishes no card. -/
theorem fewer_after (token : ReaderInterface → String) (p : Presence)
    (hcall : ∀ card, call ≠ .publishCard card) :
    Fewer p (p.after token call).1 := by
  cases call with
  | publishReader reader =>
    refine fewer_of_eq ?_ ?_
    · exact (cards_handleFor? _ _).trans (cards_handleFor _ _)
    · exact (cardRoutings_handleFor? _ _).trans (cardRoutings_handleFor _ _)
  | relabelReader reader =>
    simp only [after, relabelReader]
    cases p.readerOf reader.id with
    | none => exact fewer_rfl
    | some found =>
      dsimp only
      split
      · exact fewer_rfl
      · exact fewer_of_eq rfl rfl
  | publishCard card => exact absurd rfl (hcall card)
  | withdraw object => exact p.fewer_withdraw object
  | updateProperties reader delta =>
    simp only [after, updateProperties]
    cases p.readerOf reader with
    | none => exact fewer_rfl
    | some found => exact fewer_of_eq (cards_handleFor? _ _) (cardRoutings_handleFor? _ _)
  | updateCardType handle cardType =>
    simp only [after, updateCardType]
    cases hc : p.cards[handle]? with
    | none => exact fewer_rfl
    | some c =>
      dsimp only
      split
      · exact fewer_rfl
      · intro handle' hh
        refine ⟨?_, rfl⟩
        rcases ExtTreeMap.mem_insert.1 hh with heq | hh
        · obtain rfl := Std.LawfulEqOrd.eq_of_compare heq
          rw [ExtTreeMap.mem_iff_isSome_getElem?, hc]
          rfl
        · exact hh

/-- A card is stored under its handle, and routed by the key of its id. -/
theorem publishCard_tables (p : Presence) (card : CoreCard) :
    ∃ c routing, routing.cardKey = card.id.repr ∧
      (p.publishCard card).1.cards = p.cards.insert (p.handleFor card.id).1 c ∧
      (p.publishCard card).1.cardRoutings =
        p.cardRoutings.insert (p.handleFor card.id).1 routing := by
  have hcards : ((p.handleFor card.id).2.handleFor card.reader).2.cards = p.cards := by
    rw [cards_handleFor, cards_handleFor]
  have hroutings : ((p.handleFor card.id).2.handleFor card.reader).2.cardRoutings =
      p.cardRoutings := by
    rw [cardRoutings_handleFor, cardRoutings_handleFor]
  refine ⟨_, _, ?_, congrArg (ExtTreeMap.insert · _ _) hcards,
    congrArg (ExtTreeMap.insert · _ _) hroutings⟩
  rfl

theorem filed_publishCard (h : Filed token calls (ofCalls token calls)) (card : CoreCard) :
    Filed token (calls ++ [.publishCard card]) ((ofCalls token calls).publishCard card).1 := by
  obtain ⟨c, routing, hkey, hcards, hroutings⟩ := (ofCalls token calls).publishCard_tables card
  intro handle hh
  rw [hcards] at hh
  rw [hroutings]
  by_cases heq : ((ofCalls token calls).handleFor card.id).1 = handle
  · rw [← heq]
    exact ⟨card, routing, ⟨calls, [], rfl, rfl⟩, ExtTreeMap.getElem?_insert_self, hkey⟩
  · have hne : compare ((ofCalls token calls).handleFor card.id).1 handle ≠ .eq :=
      fun hsame => heq (Std.LawfulEqOrd.eq_of_compare hsame)
    obtain ⟨card', routing', hpub, hlookup, hkey'⟩ :=
      h handle ((ExtTreeMap.mem_insert.1 hh).resolve_left hne)
    refine ⟨card', routing', hpub.more _, ?_, hkey'⟩
    rw [ExtTreeMap.getElem?_insert, if_neg hne, hlookup]

theorem filed_ofCalls (calls : List Call) : Filed token calls (ofCalls token calls) := by
  induction calls using List.reverseRecOn with
  | nil =>
    intro handle hh
    simp [ofCalls, empty] at hh
  | append_singleton calls call ih =>
    rw [ofCalls_snoc]
    by_cases hcall : ∃ card, call = .publishCard card
    · obtain ⟨card, rfl⟩ := hcall
      exact filed_publishCard ih card
    · intro handle hh
      obtain ⟨hold, hrouting⟩ := fewer_after token (ofCalls token calls)
        (fun card heq => hcall ⟨card, heq⟩) handle hh
      obtain ⟨card, routing, hpub, hlookup, hkey⟩ := ih handle hold
      exact ⟨card, routing, hpub.more call, hrouting.trans hlookup, hkey⟩

/-- A handle is one card's: it was not published under two ids. -/
theorem PublishedAs.unique {h : Handle} {card card' : CoreCard}
    (hpub : PublishedAs token calls h card) (hpub' : PublishedAs token calls h card') :
    card.id = card'.id := by
  obtain ⟨pre, post, rfl, hh⟩ := hpub
  obtain ⟨pre', post', heq, hh'⟩ := hpub'
  have hgiven : ∀ (before : List Call) (card : CoreCard),
      (ofCalls token (before ++ [.publishCard card])).idToHandle[card.id]? =
        some ((ofCalls token before).handleFor card.id).1 := by
    intro before card
    rw [ofCalls_snoc]
    have hnum : (ofCalls token before).Numbered := numbered_ofCalls before
    obtain ⟨hnum', -, hid⟩ := hnum.handleFor card.id
    exact (hnum'.handleFor card.reader).2.1.kept card.id _ hid
  have hpre : pre ++ [.publishCard card] <+: pre ++ .publishCard card :: post :=
    ⟨post, by simp⟩
  have hpre' : pre' ++ [.publishCard card'] <+: pre ++ .publishCard card :: post :=
    ⟨post', by rw [heq]; simp⟩
  have hid := hgiven pre card
  have hid' := hgiven pre' card'
  rw [hh] at hid
  rw [hh'] at hid'
  exact one_id_per_handle hpre hpre' hid hid'

/-- At most one published card names a reader. -/
def OneCardPerReader (p : Presence) : Prop := (p.cards.toList.map fun e => e.2.reader).Nodup

instance (p : Presence) : Decidable p.OneCardPerReader :=
  inferInstanceAs (Decidable (List.Nodup _))

/-- The card a reader is found to hold is the one that names it. -/
theorem cardKeyIn_of_card (hone : p.OneCardPerReader) {h : Handle} {c : CardState}
    (hc : p.cards[h]? = some c) :
    p.cardKeyIn c.reader = (p.cardRoutings[h]?.map CardRouting.cardKey).getD "" := by
  have hmem : (h, c) ∈ p.cards.toList := ExtTreeMap.mem_toList_iff_getElem?_eq_some.2 hc
  unfold cardKeyIn
  cases hfound : p.cards.toList.find? fun e => e.2.reader = c.reader with
  | none =>
    have hnone := List.find?_eq_none.1 hfound (h, c) hmem
    simp at hnone
  | some e =>
    obtain ⟨h', c'⟩ := e
    have hsame : c'.reader = c.reader := by simpa using List.find?_some hfound
    have heq := List.inj_on_of_nodup_map hone (List.mem_of_find?_eq_some hfound) hmem hsame
    cases heq
    rfl

theorem cardKeyIn_of_none {reader : Handle}
    (hnone : ∀ (h : Handle) c, p.cards[h]? = some c → c.reader ≠ reader) : p.cardKeyIn reader = "" := by
  unfold cardKeyIn
  rw [List.find?_eq_none.2]
  rintro ⟨h, c⟩ hmem
  have hne := hnone h c (ExtTreeMap.mem_toList_iff_getElem?_eq_some.1 hmem)
  simpa using hne

end Presence

open Presence

/-- **The roster is never stale.** After any calls in any order, the
snapshot has one entry for each published reader, in both columns; and
where at most one published card names a reader, the key beside a reader's
name is the decimal id the card that names it was published under, or
empty when no card does. -/
theorem roster_current (hone : (ofCalls token calls).OneCardPerReader) :
    (ofCalls token calls).presenceRoster.readerNames.length =
      (ofCalls token calls).readers.size ∧
    (ofCalls token calls).presenceRoster.cardKeys.length =
      (ofCalls token calls).presenceRoster.readerNames.length ∧
    ∀ (i : ℕ) (handle : Handle) (r : ReaderState), (ofCalls token calls).readers.toList[i]? = some (handle, r) →
      (ofCalls token calls).presenceRoster.readerNames[i]? = some r.name ∧
      (∀ (h : Handle) c, (ofCalls token calls).cards[h]? = some c → c.reader = handle →
        ∃ card, PublishedAs token calls h card ∧
          (ofCalls token calls).presenceRoster.cardKeys[i]? = some card.id.repr) ∧
      ((∀ (h : Handle) c, (ofCalls token calls).cards[h]? = some c → c.reader ≠ handle) →
        (ofCalls token calls).presenceRoster.cardKeys[i]? = some "") := by
  have hcurrent : (ofCalls token calls).Current := current_ofCalls calls
  rw [presenceRoster, hcurrent]
  simp only [rebuildRoster, List.length_map, List.getElem?_map, ExtTreeMap.length_toList]
  refine ⟨trivial, trivial, fun i handle r hi => ?_⟩
  rw [hi]
  refine ⟨rfl, fun h c hc hreader => ?_, fun hnone => ?_⟩
  · have hmem : h ∈ (ofCalls token calls).cards := by
      rw [ExtTreeMap.mem_iff_isSome_getElem?, hc]
      rfl
    obtain ⟨card, routing, hpub, hlookup, hkey⟩ := filed_ofCalls calls h hmem
    refine ⟨card, hpub, ?_⟩
    have hfound := cardKeyIn_of_card hone hc
    rw [hreader, hlookup] at hfound
    rw [Option.map_some, hfound, Option.map_some, Option.getD_some, hkey]
  · rw [Option.map_some, cardKeyIn_of_none hnone]

/-- Two readers, one of them with a card, and the reader's properties and
label move after the card was published. -/
def oneCardInTwoReaders : List Call :=
  [.publishReader ⟨7, "First", false, none, "", .unknown⟩,
   .publishReader ⟨9, "Second", false, none, "", .unknown⟩, .publishCard ⟨8, 9, 0, 0, "", ""⟩,
   .updateProperties 9 ⟨true, some 8⟩, .relabelReader ⟨9, "Second", true, some 8, "Model", .contact⟩]

theorem roster_current_oneCard :
    (ofCalls plainToken oneCardInTwoReaders).presenceRoster = ⟨["First", "Second"], ["", "8"]⟩ ∧
      (ofCalls plainToken oneCardInTwoReaders).presenceRoster.readerNames.length =
        (ofCalls plainToken oneCardInTwoReaders).readers.size := by
  refine ⟨by decide, ?_⟩
  have hone : (ofCalls plainToken oneCardInTwoReaders).OneCardPerReader := by decide
  exact (roster_current hone).1

end Transport

end LibreDarwin
