import LibreDarwin.Common.Mutual
import LibreDarwin.Transport.Handles
import LibreDarwin.Transport.Model.Seams
import LibreDarwin.Transport.Presence

/-!
# Routing by handle

Requests name objects by handle and the core answers by id, so everything
a request reaches rests on two tables that are kept by hand. In a run that
keeps to the registry's rules for ids (`Proper`) they are inverse to each
other and hold live ids only (`Routed`), and a handle that was given out
once is never given to another object (`of_given`). A reader may go on
naming its card after the card left; its handle then resolves to nothing,
so no lookup by reader yields that card's key (`routing`).
-/

namespace LibreDarwin

namespace Transport

open Wire
open Std (ExtTreeMap)

variable {token : ReaderInterface → String} {p q : Presence}
variable {calls : List Presence.Call} {call : Presence.Call}

namespace Presence

namespace Call

/-- The ids a call names as readers. -/
def readerIds : Call → List ObjectId
  | .publishReader reader => [reader.id]
  | .relabelReader reader => [reader.id]
  | .publishCard card => [card.reader]
  | .updateProperties reader _ => [reader]
  | .withdraw _ | .updateCardType _ _ => []

/-- The ids a call names as cards; a delta without a card names none. -/
def cardIds : Call → List ObjectId
  | .publishReader reader => reader.card.toList
  | .publishCard card => [card.id]
  | .updateProperties _ delta => (if delta.hasCard then delta.card else none).toList
  | .relabelReader _ | .withdraw _ | .updateCardType _ _ => []

def ids (call : Call) : List ObjectId := call.readerIds ++ call.cardIds

/-- The id a call withdraws. -/
def withdrawn : Call → List ObjectId
  | .withdraw object => [object]
  | _ => []

end Call

/-- **The registry's rules for ids**: no id is a reader's and a card's,
none is named after it was withdrawn, and each is a 64-bit word. -/
structure Proper (calls : List Call) : Prop where
  apart : ∀ a ∈ calls, ∀ b ∈ calls, ∀ id ∈ a.readerIds, id ∉ b.cardIds
  fresh : calls.Pairwise fun a b => ∀ object ∈ a.withdrawn, object ∉ b.ids
  word : ∀ call ∈ calls, ∀ id ∈ call.ids, id < 2 ^ 64

instance (calls : List Call) : Decidable (Proper calls) :=
  decidable_of_iff ((∀ a ∈ calls, ∀ b ∈ calls, ∀ id ∈ a.readerIds, id ∉ b.cardIds) ∧
      (calls.Pairwise fun a b => ∀ object ∈ a.withdrawn, object ∉ b.ids) ∧
      ∀ call ∈ calls, ∀ id ∈ call.ids, id < 2 ^ 64)
    ⟨fun h => ⟨h.1, h.2.1, h.2.2⟩, fun h => ⟨h.apart, h.fresh, h.word⟩⟩

/-- An id that was named and not withdrawn. -/
def Live (calls : List Call) (id : ObjectId) : Prop :=
  .withdraw id ∉ calls ∧ ∃ call ∈ calls, id ∈ call.ids

namespace Proper

theorem of_append {more : List Call} (h : Proper (calls ++ more)) : Proper calls where
  apart a ha b hb := h.apart a (List.mem_append_left _ ha) b (List.mem_append_left _ hb)
  fresh := (List.pairwise_append.1 h.fresh).1
  word c hc := h.word c (List.mem_append_left _ hc)

/-- What a call names is live once it has been made. -/
theorem live (h : Proper (calls ++ [call])) {id : ObjectId} (hid : id ∈ call.ids) :
    Live (calls ++ [call]) id := by
  refine ⟨fun hmem => ?_, call, by simp, hid⟩
  rcases List.mem_append.1 hmem with hmem | hmem
  · have hlater := (List.pairwise_append.1 h.fresh).2.2 _ hmem call (by simp)
    exact hlater id (by simp [Call.withdrawn]) hid
  · -- a withdraw names no id of its own
    obtain rfl := List.mem_singleton.1 hmem
    cases hid

end Proper

/-! ## One lookup -/

/-- `handleFor` finds a handle, or gives out the next one. -/
theorem handleFor_cases (p : Presence) (id : ObjectId) :
    (∃ h, p.idToHandle[id]? = some h ∧ p.handleFor id = (h, p)) ∨
      p.idToHandle[id]? = none ∧ p.handleFor id = (objHandle p.nextHandle,
        { p with nextHandle := p.nextHandle + 1,
                 idToHandle := p.idToHandle.insert id (objHandle p.nextHandle),
                 handleToId := p.handleToId.insert (objHandle p.nextHandle) id }) := by
  cases hid : p.idToHandle[id]? with
  | some h => exact .inl ⟨h, rfl, by simp [handleFor, hid]⟩
  | none => exact .inr ⟨rfl, by simp [handleFor, hid]⟩

/-- **Only new handles are given out**: an object that has one now had it
before, or it is numbered from there on. -/
structure Grown (p q : Presence) : Prop where
  next : p.nextHandle ≤ q.nextHandle
  given : ∀ (id : ObjectId) h, q.idToHandle[id]? = some h →
    p.idToHandle[id]? = some h ∨ ∃ k, p.nextHandle ≤ k ∧ h = objHandle k

theorem Grown.refl (p : Presence) : Grown p p := ⟨le_rfl, fun _ _ h => .inl h⟩

theorem Grown.trans {r : Presence} (h : Grown p q) (h' : Grown q r) : Grown p r := by
  refine ⟨h.next.trans h'.next, fun id handle hid => ?_⟩
  rcases h'.given id handle hid with hq | ⟨k, hk, rfl⟩
  · exact h.given id handle hq
  · exact .inr ⟨k, h.next.trans hk, rfl⟩

/-- Handles and numbers are all that counts. -/
theorem Grown.congr {r : Presence} (h : Grown p q) (hids : r.idToHandle = q.idToHandle)
    (hnext : r.nextHandle = q.nextHandle) : Grown p r :=
  ⟨hnext ▸ h.next, fun id handle hid => h.given id handle (hids ▸ hid)⟩

theorem grown_handleFor (p : Presence) (id : ObjectId) : Grown p (p.handleFor id).2 := by
  rcases p.handleFor_cases id with ⟨h, -, heq⟩ | ⟨-, heq⟩
  · rw [heq]
    exact .refl p
  · rw [heq]
    refine ⟨Nat.le_succ _, fun id' handle hid => ?_⟩
    have hlookup := hid
    simp only [ExtTreeMap.getElem?_insert, Std.LawfulEqOrd.compare_eq_iff_eq] at hlookup
    split at hlookup
    · obtain rfl := Option.some.inj hlookup
      exact .inr ⟨p.nextHandle, le_rfl, rfl⟩
    · exact .inl hlookup

theorem grown_handleFor? (p : Presence) (id : Option ObjectId) : Grown p (p.handleFor? id).2 := by
  cases id with
  | none => exact .refl p
  | some id => exact p.grown_handleFor id

theorem grown_withdraw (p : Presence) (object : ObjectId) : Grown p (p.withdraw object).1 := by
  unfold withdraw
  cases p.idToHandle[object]? with
  | none => exact .refl p
  | some handle =>
    have hgrown : Grown p { p with idToHandle := p.idToHandle.erase object } := by
      refine ⟨le_rfl, fun id h hid => ?_⟩
      have hlookup := hid
      simp only [ExtTreeMap.getElem?_erase] at hlookup
      split at hlookup
      · cases hlookup
      · exact .inl hlookup
    dsimp only
    split_ifs
    · exact hgrown.congr rfl rfl
    · exact hgrown.congr rfl rfl
    · exact hgrown.congr rfl rfl

/-- **A call gives out new handles only.** -/
theorem grown_after (p : Presence) (call : Call) : Grown p (p.after token call).1 := by
  cases call with
  | publishReader reader =>
    have hid := p.grown_handleFor reader.id
    have hcard := (p.handleFor reader.id).2.grown_handleFor? reader.card
    exact (hid.trans hcard).congr rfl rfl
  | relabelReader reader =>
    simp only [after, relabelReader]
    split
    · exact .refl p
    · split
      · exact .refl p
      · exact (Grown.refl p).congr rfl rfl
  | publishCard card =>
    have hid := p.grown_handleFor card.id
    have hreader := (p.handleFor card.id).2.grown_handleFor card.reader
    exact (hid.trans hreader).congr rfl rfl
  | withdraw object => exact p.grown_withdraw object
  | updateProperties reader delta =>
    simp only [after, updateProperties]
    split
    · exact .refl p
    · exact (p.grown_handleFor? _).congr rfl rfl
  | updateCardType handle cardType =>
    simp only [after, updateCardType]
    split
    · exact .refl p
    · split
      · exact .refl p
      · exact (Grown.refl p).congr rfl rfl

/-! ## Handles over a run -/

theorem Numbered.congr (h : p.Numbered) (hids : q.idToHandle = p.idToHandle)
    (hnext : q.nextHandle = p.nextHandle) : q.Numbered := by
  refine ⟨?_, ?_⟩
  · rw [hids, hnext]
    exact h.given
  · rw [hids]
    exact h.unique

theorem Numbered.withdraw (h : p.Numbered) (object : ObjectId) : (p.withdraw object).1.Numbered := by
  unfold Presence.withdraw
  cases p.idToHandle[object]? with
  | none => exact h
  | some handle =>
    have hold : ∀ (id : ObjectId) h', (p.idToHandle.erase object)[id]? = some h' →
        p.idToHandle[id]? = some h' := by
      intro id h' hid
      simp only [ExtTreeMap.getElem?_erase] at hid
      split at hid
      · cases hid
      · exact hid
    have hkept : ({ p with idToHandle := p.idToHandle.erase object } : Presence).Numbered :=
      ⟨fun id h' hid => h.given id h' (hold id h' hid),
        fun id₁ id₂ h' h₁ h₂ => h.unique id₁ id₂ h' (hold id₁ h' h₁) (hold id₂ h' h₂)⟩
    dsimp only
    split_ifs
    · exact hkept.congr rfl rfl
    · exact hkept.congr rfl rfl
    · exact hkept.congr rfl rfl

/-- Every call keeps handles numbered. -/
theorem Numbered.after (h : p.Numbered) (call : Call) : (p.after token call).1.Numbered := by
  cases call with
  | publishReader reader =>
    have hid := (h.handleFor reader.id).1
    exact (hid.handleFor? reader.card).1.congr rfl rfl
  | relabelReader reader =>
    simp only [Presence.after, Presence.relabelReader]
    split
    · exact h
    · split
      · exact h
      · exact h.congr rfl rfl
  | publishCard card =>
    have hid := (h.handleFor card.id).1
    exact (hid.handleFor card.reader).1.congr rfl rfl
  | withdraw object => exact h.withdraw object
  | updateProperties reader delta =>
    simp only [Presence.after, Presence.updateProperties]
    split
    · exact h
    · exact (h.handleFor? _).1.congr rfl rfl
  | updateCardType handle cardType =>
    simp only [Presence.after, Presence.updateCardType]
    split
    · exact h
    · split
      · exact h
      · exact h.congr rfl rfl

theorem ofCalls_snoc (calls : List Call) (call : Call) :
    ofCalls token (calls ++ [call]) = ((ofCalls token calls).after token call).1 := by
  rw [ofCalls, List.foldl_append]
  rfl

theorem numbered_ofCalls (calls : List Call) : (ofCalls token calls).Numbered := by
  induction calls using List.reverseRecOn with
  | nil => exact .empty
  | append_singleton calls call ih =>
    rw [ofCalls_snoc]
    exact ih.after call

theorem grown_ofCalls (calls more : List Call) :
    Grown (ofCalls token calls) (ofCalls token (calls ++ more)) := by
  induction more using List.reverseRecOn with
  | nil =>
    rw [List.append_nil]
    exact .refl _
  | append_singleton more call ih =>
    rw [← List.append_assoc, ofCalls_snoc]
    exact ih.trans (grown_after _ call)

/-- **A handle is given out once**: whoever has it later is the object
that had it first. -/
theorem of_given {more : List Call} {id id' : ObjectId} {h : Handle}
    (hid : (ofCalls token calls).idToHandle[id]? = some h)
    (hid' : (ofCalls token (calls ++ more)).idToHandle[id']? = some h) : id = id' := by
  have hnum : (ofCalls token calls).Numbered := numbered_ofCalls calls
  rcases (grown_ofCalls calls more).given id' h hid' with hold | ⟨k, hk, rfl⟩
  · exact hnum.unique id id' h hid hold
  · -- a handle numbered from here on is not one given out before
    obtain ⟨j, hj, heq⟩ := hnum.given id _ hid
    have := objHandle_injective heq
    omega

/-- At any two moments of a run. -/
theorem one_id_per_handle {pre pre' : List Call} (hpre : pre <+: calls) (hpre' : pre' <+: calls)
    {id id' : ObjectId} {h : Handle} (hid : (ofCalls token pre).idToHandle[id]? = some h)
    (hid' : (ofCalls token pre').idToHandle[id']? = some h) : id = id' := by
  rcases List.prefix_or_prefix_of_prefix hpre hpre' with ⟨more, rfl⟩ | ⟨more, rfl⟩
  · exact of_given hid hid'
  · exact (of_given hid' hid).symm

/-! ## What the tables hold -/

/-- **The tables are in order**: inverse to each other, with live ids
only; a published reader or card is stored under the handle of its id, and
the routings are those of the published cards. -/
structure Routed (calls : List Call) (p : Presence) : Prop where
  numbered : p.Numbered
  inverse : Mutual p.idToHandle p.handleToId
  live : ∀ (id : ObjectId) h, p.idToHandle[id]? = some h → Live calls id
  readers : ∀ h ∈ p.readers, ∃ reader, .publishReader reader ∈ calls ∧
    p.idToHandle[reader.id]? = some h
  cards : ∀ h ∈ p.cards, ∃ card, .publishCard card ∈ calls ∧ p.idToHandle[card.id]? = some h ∧
    ∃ routing, p.cardRoutings[h]? = some routing ∧ routing.cardId = card.id ∧
      routing.cardKey = card.id.repr
  routings : ∀ h, h ∈ p.cards ↔ h ∈ p.cardRoutings

namespace Routed

theorem empty : Routed [] .empty := by
  refine ⟨.empty, .empty, ?_, ?_, ?_, ?_⟩
  · intro id h hid
    simp [Presence.empty] at hid
  · intro h hh
    simp [Presence.empty] at hh
  · intro h hh
    simp [Presence.empty] at hh
  · intro h
    simp [Presence.empty]

/-- A call that withdraws no object with a handle leaves the live ids
live. -/
theorem more (h : Routed calls p) (call : Presence.Call)
    (hcall : ∀ object : ObjectId, call = .withdraw object → p.idToHandle[object]? = none) :
    Routed (calls ++ [call]) p := by
  refine ⟨h.numbered, h.inverse, fun id handle hid => ?_, fun handle hh => ?_, fun handle hh => ?_,
    h.routings⟩
  · obtain ⟨hin, c, hc, hnamed⟩ := h.live id handle hid
    refine ⟨fun hmem => ?_, c, List.mem_append_left _ hc, hnamed⟩
    rcases List.mem_append.1 hmem with hmem | hmem
    · exact hin hmem
    · have hnone := hcall id (List.mem_singleton.1 hmem).symm
      rw [hid] at hnone
      cases hnone
  · obtain ⟨reader, hmem, hid⟩ := h.readers handle hh
    exact ⟨reader, List.mem_append_left _ hmem, hid⟩
  · obtain ⟨card, hmem, hrest⟩ := h.cards handle hh
    exact ⟨card, List.mem_append_left _ hmem, hrest⟩

/-- **Looking up a live id** keeps the tables in order. -/
theorem handleFor (h : Routed calls p) {id : ObjectId} (hlive : Live calls id) :
    Routed calls (p.handleFor id).2 ∧
      (p.handleFor id).2.idToHandle[id]? = some (p.handleFor id).1 := by
  obtain ⟨hnum, hext, hid⟩ := h.numbered.handleFor id
  refine ⟨?_, hid⟩
  rcases p.handleFor_cases id with ⟨handle, -, heq⟩ | ⟨hnone, heq⟩
  · rw [heq]
    exact h
  · have hunused : p.handleToId[objHandle p.nextHandle]? = none := by
      cases hused : p.handleToId[objHandle p.nextHandle]? with
      | none => rfl
      | some id' =>
        obtain ⟨k, hk, hsame⟩ := h.numbered.given id' _ ((h.inverse id' _).2 hused)
        have := objHandle_injective hsame
        omega
    have hmutual := h.inverse.insert hnone hunused
    have hkept := hext.kept
    rw [heq] at hnum hkept ⊢
    refine ⟨hnum, hmutual, fun id' handle hid' => ?_, fun handle hh => ?_, fun handle hh => ?_,
      h.routings⟩
    · have hlookup := hid'
      simp only [ExtTreeMap.getElem?_insert, Std.LawfulEqOrd.compare_eq_iff_eq] at hlookup
      split at hlookup
      · rename_i hsame
        exact hsame ▸ hlive
      · exact h.live id' handle hlookup
    · obtain ⟨reader, hmem, hold⟩ := h.readers handle hh
      exact ⟨reader, hmem, hkept _ _ hold⟩
    · obtain ⟨card, hmem, hold, hrouting⟩ := h.cards handle hh
      exact ⟨card, hmem, hkept _ _ hold, hrouting⟩

theorem handleFor? (h : Routed calls p) (id : Option ObjectId) (hlive : ∀ i ∈ id, Live calls i) :
    Routed calls (p.handleFor? id).2 := by
  cases id with
  | none => exact h
  | some id => exact (h.handleFor (hlive id rfl)).1

theorem rebuilt (h : Routed calls p) : Routed calls p.rebuildRoster :=
  ⟨h.numbered.congr rfl rfl, h.inverse, h.live, h.readers, h.cards, h.routings⟩

/-- A reader is stored under the handle of a published reader. -/
theorem insertReader (h : Routed calls p) {handle : Handle} {r : ReaderState} {reader : CoreReader}
    (hmem : .publishReader reader ∈ calls) (hid : p.idToHandle[reader.id]? = some handle) :
    Routed calls { p with readers := p.readers.insert handle r } := by
  refine ⟨h.numbered.congr rfl rfl, h.inverse, h.live, fun handle' hh => ?_, h.cards, h.routings⟩
  rcases ExtTreeMap.mem_insert.1 hh with heq | hh
  · obtain rfl := Std.LawfulEqOrd.eq_of_compare heq
    exact ⟨reader, hmem, hid⟩
  · exact h.readers handle' hh

/-- A published reader changes. -/
theorem setReader (h : Routed calls p) {handle : Handle} {r r' : ReaderState}
    (hr : p.readers[handle]? = some r) :
    Routed calls { p with readers := p.readers.insert handle r' } := by
  have hmem : handle ∈ p.readers := by
    rw [ExtTreeMap.mem_iff_isSome_getElem?, hr]
    rfl
  obtain ⟨reader, hcall, hid⟩ := h.readers handle hmem
  exact h.insertReader hcall hid

/-- A card is stored, and routed by. -/
theorem insertCard (h : Routed calls p) {handle : Handle} {c : CardState} {routing : CardRouting}
    {card : CoreCard} (hmem : .publishCard card ∈ calls)
    (hid : p.idToHandle[card.id]? = some handle)
    (hrouting : routing.cardId = card.id ∧ routing.cardKey = card.id.repr) :
    Routed calls { p with cards := p.cards.insert handle c
                          cardRoutings := p.cardRoutings.insert handle routing } := by
  refine ⟨h.numbered.congr rfl rfl, h.inverse, h.live, h.readers, fun handle' hh => ?_,
    fun handle' => ?_⟩
  · by_cases heq : handle = handle'
    · subst heq
      exact ⟨card, hmem, hid, routing, ExtTreeMap.getElem?_insert_self, hrouting⟩
    · rcases ExtTreeMap.mem_insert.1 hh with hsame | hh
      · exact absurd (Std.LawfulEqOrd.eq_of_compare hsame) heq
      · obtain ⟨card', hcall, hid', routing', hlookup, hcard⟩ := h.cards handle' hh
        refine ⟨card', hcall, hid', routing', ?_, hcard⟩
        simpa [ExtTreeMap.getElem?_insert, heq] using hlookup
  · have hboth := h.routings handle'
    simp only [ExtTreeMap.mem_insert, hboth]

/-- A published card changes. -/
theorem setCard (h : Routed calls p) {handle : Handle} {c c' : CardState}
    (hc : p.cards[handle]? = some c) :
    Routed calls { p with cards := p.cards.insert handle c' } := by
  have hmem : handle ∈ p.cards := by
    rw [ExtTreeMap.mem_iff_isSome_getElem?, hc]
    rfl
  have hsame : ∀ handle', handle' ∈ p.cards.insert handle c' ↔ handle' ∈ p.cards := by
    intro handle'
    rw [ExtTreeMap.mem_insert, Std.LawfulEqOrd.compare_eq_iff_eq]
    refine ⟨?_, .inr⟩
    rintro (rfl | hh)
    · exact hmem
    · exact hh
  refine ⟨h.numbered.congr rfl rfl, h.inverse, h.live, h.readers, fun handle' hh => ?_,
    fun handle' => ?_⟩
  · exact h.cards handle' ((hsame handle').1 hh)
  · exact (hsame handle').trans (h.routings handle')

/-- **An object leaves**, and its handle with it. -/
theorem forget (h : Routed calls p) {object : ObjectId} {handle : Handle}
    (hid : p.idToHandle[object]? = some handle) (hnum : q.Numbered)
    (hids : q.idToHandle = p.idToHandle.erase object)
    (hhandles : q.handleToId = p.handleToId.erase handle)
    (hreaders : ∀ h' ∈ q.readers, h' ∈ p.readers ∧ h' ≠ handle)
    (hcards : ∀ h' ∈ q.cards, h' ∈ p.cards ∧ h' ≠ handle)
    (hkept : ∀ h' : Handle, h' ≠ handle → q.cardRoutings[h']? = p.cardRoutings[h']?)
    (hroutings : ∀ h', h' ∈ q.cards ↔ h' ∈ q.cardRoutings) :
    Routed (calls ++ [.withdraw object]) q := by
  have hstays : ∀ (id : ObjectId) h', h' ≠ handle → p.idToHandle[id]? = some h' →
      q.idToHandle[id]? = some h' := by
    intro id h' hne hid'
    have hother : object ≠ id := by
      rintro rfl
      exact hne (Option.some.inj (hid'.symm.trans hid))
    rw [hids, ExtTreeMap.getElem?_erase]
    simpa [hother] using hid'
  refine ⟨hnum, ?_, fun id h' hid' => ?_, fun h' hh => ?_, fun h' hh => ?_, hroutings⟩
  · rw [hids, hhandles]
    exact h.inverse.erase hid
  · rw [hids, ExtTreeMap.getElem?_erase] at hid'
    split at hid'
    · cases hid'
    · rename_i hother
      obtain ⟨hin, c, hc, hnamed⟩ := h.live id h' hid'
      refine ⟨fun hmem => ?_, c, List.mem_append_left _ hc, hnamed⟩
      rcases List.mem_append.1 hmem with hmem | hmem
      · exact hin hmem
      · cases List.mem_singleton.1 hmem
        exact hother Std.ReflCmp.compare_self
  · obtain ⟨hold, hne⟩ := hreaders h' hh
    obtain ⟨reader, hmem, hid'⟩ := h.readers h' hold
    exact ⟨reader, List.mem_append_left _ hmem, hstays _ h' hne hid'⟩
  · obtain ⟨hold, hne⟩ := hcards h' hh
    obtain ⟨card, hmem, hid', routing, hrouting, hcard⟩ := h.cards h' hold
    refine ⟨card, List.mem_append_left _ hmem, hstays _ h' hne hid', routing, ?_, hcard⟩
    rw [hkept h' hne, hrouting]

/-- The handle of a reader is not the handle of a card. -/
theorem apart (h : Routed calls p) (hproper : Proper calls) {handle : Handle}
    (hreader : handle ∈ p.readers) : handle ∉ p.cards := by
  intro hcard
  obtain ⟨reader, hmem, hid⟩ := h.readers handle hreader
  obtain ⟨card, hmem', hid', -⟩ := h.cards handle hcard
  have hsame := h.numbered.unique _ _ _ hid hid'
  refine hproper.apart _ hmem _ hmem' reader.id ?_ ?_
  · simp [Call.readerIds]
  · simp [Call.cardIds, hsame]

theorem withdraw (h : Routed calls p) (hproper : Proper calls) (object : ObjectId) :
    Routed (calls ++ [.withdraw object]) (p.withdraw object).1 := by
  have hnum := h.numbered.withdraw object
  unfold Presence.withdraw at hnum ⊢
  cases hid : p.idToHandle[object]? with
  | none =>
    refine h.more _ fun object' heq => ?_
    cases heq
    exact hid
  | some handle =>
    rw [hid] at hnum
    dsimp only at hnum ⊢
    have hne_of : ∀ {β : Type} (t : ExtTreeMap Handle β), handle ∉ t → ∀ h' ∈ t, h' ≠ handle := by
      rintro β t hnot h' hh rfl
      exact hnot hh
    have herased : ∀ {β : Type} (t : ExtTreeMap Handle β), ∀ h' ∈ t.erase handle, h' ∈ t ∧ h' ≠ handle := by
      intro β t h' hh
      obtain ⟨hne, hold⟩ := ExtTreeMap.mem_erase.1 hh
      refine ⟨hold, ?_⟩
      rintro rfl
      exact hne Std.ReflCmp.compare_self
    by_cases hreader : handle ∈ p.readers
    · rw [if_pos hreader] at hnum ⊢
      have hcard := h.apart hproper hreader
      exact h.forget hid hnum rfl rfl (herased _) (fun h' hh => ⟨hh, hne_of _ hcard h' hh⟩)
        (fun _ _ => rfl) h.routings
    · rw [if_neg hreader] at hnum ⊢
      have hreaders : ∀ h' ∈ p.readers, h' ∈ p.readers ∧ h' ≠ handle :=
        fun h' hh => ⟨hh, hne_of _ hreader h' hh⟩
      by_cases hcard : handle ∈ p.cards
      · rw [if_pos hcard] at hnum ⊢
        refine h.forget hid hnum rfl rfl hreaders (herased _) (fun h' hne => ?_) (fun h' => ?_)
        · show (p.cardRoutings.erase handle)[h']? = _
          rw [ExtTreeMap.getElem?_erase]
          simp [Ne.symm hne]
        · show h' ∈ p.cards.erase handle ↔ h' ∈ p.cardRoutings.erase handle
          rw [ExtTreeMap.mem_erase, ExtTreeMap.mem_erase, h.routings h']
      · rw [if_neg hcard] at hnum ⊢
        exact h.forget hid hnum rfl rfl hreaders (fun h' hh => ⟨hh, hne_of _ hcard h' hh⟩)
          (fun _ _ => rfl) h.routings

/-- **Every call of a run that keeps to the rules keeps the tables in
order.** -/
theorem after (h : Routed calls p) (hproper : Proper (calls ++ [call])) :
    Routed (calls ++ [call]) (p.after token call).1 := by
  have hlive : ∀ id ∈ call.ids, Live (calls ++ [call]) id := fun id hid => hproper.live hid
  cases call with
  | publishReader reader =>
    have hmore := h.more (.publishReader reader) (by simp)
    obtain ⟨hid, hlookup⟩ := hmore.handleFor (hlive reader.id (by simp [Call.ids, Call.readerIds]))
    have hcard := hid.handleFor? reader.card fun i hi =>
      hlive i (by simpa [Call.ids, Call.cardIds] using .inr hi)
    have hkept := (hid.numbered.handleFor? reader.card).2.kept reader.id _ hlookup
    exact (hcard.insertReader (by simp) hkept).rebuilt
  | relabelReader reader =>
    have hmore := h.more (.relabelReader reader) (by simp)
    simp only [Presence.after, relabelReader]
    cases hof : p.readerOf reader.id with
    | none => exact hmore
    | some found =>
      obtain ⟨handle, r⟩ := found
      dsimp only
      split
      · exact hmore
      · exact hmore.setReader (readerOf_eq_some hof)
  | publishCard card =>
    have hmore := h.more (.publishCard card) (by simp)
    obtain ⟨hid, hlookup⟩ := hmore.handleFor
      (hlive card.id (by simp [Call.ids, Call.cardIds]))
    obtain ⟨hreader, -⟩ := hid.handleFor
      (hlive card.reader (by simp [Call.ids, Call.readerIds]))
    have hkept := (hid.numbered.handleFor card.reader).2.1.kept card.id _ hlookup
    exact (hreader.insertCard (by simp) hkept ⟨rfl, rfl⟩).rebuilt
  | withdraw object => exact h.withdraw hproper.of_append object
  | updateProperties reader delta =>
    have hmore := h.more (.updateProperties reader delta) (by simp)
    simp only [Presence.after, updateProperties]
    cases hof : p.readerOf reader with
    | none => exact hmore
    | some found =>
      obtain ⟨handle, r⟩ := found
      have hcard := hmore.handleFor? (if delta.hasCard then delta.card else none) fun i hi =>
        hlive i (List.mem_append_right _ (Option.mem_toList.2 hi))
      have hext := (h.numbered.handleFor? (if delta.hasCard then delta.card else none)).2
      exact hcard.setReader (hext.readers ▸ readerOf_eq_some hof)
  | updateCardType handle cardType =>
    have hmore := h.more (.updateCardType handle cardType) (by simp)
    simp only [Presence.after, updateCardType]
    cases hc : p.cards[handle]? with
    | none => exact hmore
    | some c =>
      dsimp only
      split
      · exact hmore
      · exact hmore.setCard hc

end Routed

/-- **A run that keeps to the rules has its tables in order.** -/
theorem routed_ofCalls (h : Proper calls) : Routed calls (ofCalls token calls) := by
  induction calls using List.reverseRecOn with
  | nil => exact .empty
  | append_singleton calls call ih =>
    rw [ofCalls_snoc]
    exact (ih h.of_append).after h

end Presence

/-! ## Lookups by reader -/

/-- **A key read back is the id it was made from.** -/
theorem strtoull_repr {id : ObjectId} (h : id < 2 ^ 64) : strtoull id.repr = id := by
  have hlist : id.repr.toList = Nat.toDigits 10 id := Nat.toList_repr
  have hdigit : ∀ c ∈ Nat.toDigits 10 id, c.isDigit = true := fun c hc =>
    Nat.isDigit_of_mem_toDigits (by omega) (by omega) hc
  have hall : (Nat.toDigits 10 id).takeWhile Char.isDigit = Nat.toDigits 10 id := by
    rw [List.takeWhile_eq_self_iff]
    exact hdigit
  have hsat : saturated (Nat.toDigits 10 id) = id := by
    rw [saturated, hall, Nat.ofDigitChars_ten_toDigits]
    exact Nat.min_eq_right (Nat.le_sub_one_of_lt h)
  rw [strtoull, hlist]
  cases hds : Nat.toDigits 10 id with
  | nil => exact absurd hds Nat.toDigits_ne_nil
  | cons c cs =>
    rw [hds] at hdigit hsat
    have hc : 48 ≤ c.toNat ∧ c.toNat ≤ 57 := by
      have := hdigit c List.mem_cons_self
      simp only [Char.isDigit, Bool.and_eq_true, decide_eq_true_eq, ge_iff_le,
        UInt32.le_iff_toNat_le] at this
      exact this
    have hspace : ¬ isSpace c = true := by
      have hblank : c ≠ ' ' := by
        rintro rfl
        simp at hc
      simp only [isSpace, hblank, decide_false, Bool.false_or, Bool.and_eq_true, decide_eq_true_eq]
      omega
    rw [List.dropWhile_cons_of_neg hspace]
    -- the first digit is not a sign
    split
    · rename_i heq
      obtain ⟨rfl, -⟩ := List.cons.inj heq
      simp at hc
    · rename_i heq
      obtain ⟨rfl, -⟩ := List.cons.inj heq
      simp at hc
    · exact hsat

namespace Presence

variable {handle : Handle} {info : ReaderCardInfo}

theorem readerCard_eq_some (h : p.readerCard handle = some info) :
    ∃ r, p.readers[handle]? = some r ∧ p.handleToId[handle]? = some info.readerId ∧
      info.cardKey = ((r.card.bind fun card => p.handleToId[card]?).map Nat.repr).getD "" := by
  unfold readerCard at h
  split at h
  · cases h
  · rename_i r hr
    split at h
    · cases h
    · rename_i id hid
      obtain rfl := Option.some.inj h
      exact ⟨r, hr, hid, rfl⟩

/-- **A lookup by reader yields no key, or that of a live id**: the handle
of a card that left resolves to nothing. -/
theorem Routed.cardKey (h : Routed calls p) (hinfo : p.readerCard handle = some info) :
    info.cardKey = "" ∨ ∃ card, Live calls card ∧ info.cardKey = card.repr := by
  obtain ⟨r, -, -, hkey⟩ := readerCard_eq_some hinfo
  cases hcard : r.card.bind fun card => p.handleToId[card]? with
  | none =>
    rw [hcard] at hkey
    exact .inl hkey
  | some card =>
    rw [hcard] at hkey
    obtain ⟨named, -, hid⟩ := Option.bind_eq_some_iff.1 hcard
    exact .inr ⟨card, h.live card named ((h.inverse card named).2 hid), hkey⟩

theorem repr_ne_empty (id : ObjectId) : id.repr ≠ "" := by
  intro heq
  have hlist : Nat.toDigits 10 id = [] := by
    rw [← Nat.toList_repr, heq]
    rfl
  exact Nat.toDigits_ne_nil hlist

theorem resolveReaderCard_eq_some (h : p.resolveReaderCard handle = some info) :
    p.readerCard handle = some info ∧ info.cardKey ≠ "" := by
  unfold resolveReaderCard at h
  split at h
  · cases h
  · rename_i rc hrc
    split at h
    · cases h
    · rename_i hkey
      obtain rfl := Option.some.inj h
      exact ⟨hrc, by simpa using hkey⟩

theorem resolveCardKey_eq_some {id : ObjectId} (h : p.resolveCardKey handle = some id) :
    ∃ info, p.readerCard handle = some info ∧ info.cardKey ≠ "" ∧ id = strtoull info.cardKey := by
  unfold resolveCardKey at h
  split at h
  · cases h
  · rename_i rc hrc
    split at h
    · cases h
    · rename_i hkey
      obtain rfl := Option.some.inj h
      exact ⟨rc, hrc, by simpa using hkey, rfl⟩

end Presence

open Presence

/-- The presence of the transport is always one of a list of calls. -/
theorem reachable_ofCalls {Req : Type*} {W : Wire Req} {s : State Req}
    (hs : (transport W).Reachable s) :
    ∃ calls, s.presence = ofCalls W.readerInterfaceToken calls := by
  refine hs.invariant
    (I := fun s : State Req => ∃ calls, s.presence = ofCalls W.readerInterfaceToken calls) ?_ ?_
  · intro s hstart
    exact ⟨[], hstart.presence⟩
  · rintro s i t ⟨calls, hs⟩ hst
    rcases presence_step hst with ⟨call, -, ht⟩ | ⟨-, ht⟩
    · exact ⟨calls ++ [call], by rw [ht, hs, ofCalls_snoc]⟩
    · exact ⟨calls, ht.trans hs⟩

/-- **Handles and routing.** In every run that keeps to the registry's
rules for ids: the two tables are inverse to each other; no handle denotes
two ids, at any two moments; published cards and routings have the same
handles; a published handle resolves to the id it was published under; and
what a lookup by reader yields is never the key of an object that was
withdrawn, nor is the id read back from it. -/
theorem routing (h : Proper calls) :
    Mutual (ofCalls token calls).idToHandle (ofCalls token calls).handleToId ∧
    (∀ pre pre' (id id' : ObjectId) handle, pre <+: calls → pre' <+: calls →
      (ofCalls token pre).idToHandle[id]? = some handle →
      (ofCalls token pre').idToHandle[id']? = some handle → id = id') ∧
    (∀ handle, handle ∈ (ofCalls token calls).cards ↔
      handle ∈ (ofCalls token calls).cardRoutings) ∧
    (∀ handle ∈ (ofCalls token calls).readers, ∃ reader, .publishReader reader ∈ calls ∧
      (ofCalls token calls).handleToId[handle]? = some reader.id) ∧
    (∀ handle ∈ (ofCalls token calls).cards, ∃ card routing, .publishCard card ∈ calls ∧
      (ofCalls token calls).handleToId[handle]? = some card.id ∧
      (ofCalls token calls).cardRouting handle = some routing ∧
      routing.cardId = card.id ∧ routing.cardKey = card.id.repr) ∧
    (∀ handle info object, (ofCalls token calls).readerCard handle = some info →
      .withdraw object ∈ calls → info.cardKey ≠ object.repr) ∧
    (∀ handle info object, (ofCalls token calls).resolveReaderCard handle = some info →
      .withdraw object ∈ calls → info.cardKey ≠ object.repr) ∧
    ∀ handle id, (ofCalls token calls).resolveCardKey handle = some id →
      .withdraw id ∉ calls ∧ ∃ info, (ofCalls token calls).readerCard handle = some info ∧
        info.cardKey = id.repr := by
  have hrouted : Routed calls (ofCalls token calls) := routed_ofCalls h
  have hnever : ∀ handle info object, (ofCalls token calls).readerCard handle = some info →
      .withdraw object ∈ calls → info.cardKey ≠ object.repr := by
    intro handle info object hinfo hmem heq
    rcases hrouted.cardKey hinfo with hkey | ⟨card, hlive, hkey⟩
    · exact repr_ne_empty object (heq.symm.trans hkey)
    · obtain rfl := Nat.repr_injective (hkey.symm.trans heq)
      exact hlive.1 hmem
  refine ⟨hrouted.inverse, fun pre pre' id id' handle hpre hpre' hid hid' => ?_, hrouted.routings,
    fun handle hh => ?_, fun handle hh => ?_, hnever, fun handle info object hinfo => ?_,
    fun handle id hid => ?_⟩
  · exact one_id_per_handle hpre hpre' hid hid'
  · obtain ⟨reader, hmem, hid⟩ := hrouted.readers handle hh
    exact ⟨reader, hmem, (hrouted.inverse _ _).1 hid⟩
  · obtain ⟨card, hmem, hid, routing, hrouting, hcard⟩ := hrouted.cards handle hh
    exact ⟨card, routing, hmem, (hrouted.inverse _ _).1 hid, hrouting, hcard⟩
  · exact hnever handle info object (resolveReaderCard_eq_some hinfo).1
  · obtain ⟨info, hinfo, hkey, rfl⟩ := resolveCardKey_eq_some hid
    rcases hrouted.cardKey hinfo with hnone | ⟨card, hlive, hcard⟩
    · exact absurd hnone hkey
    · obtain ⟨call, hcall, hnamed⟩ := hlive.2
      have hback : strtoull info.cardKey = card := by
        rw [hcard, strtoull_repr (h.word call hcall card hnamed)]
      rw [hback]
      exact ⟨hlive.1, info, hinfo, hcard⟩

/-- A reader names its card before the card is published, and goes on
naming it after the card was withdrawn. -/
def insertedThenRemoved : List Call :=
  [.publishReader ⟨7, "Reader", false, none, "", .unknown⟩, .updateProperties 7 ⟨true, some 8⟩,
   .publishCard ⟨8, 7, 0, 0, "", ""⟩, .withdraw 8]

theorem routing_removed :
    (ofCalls plainToken (insertedThenRemoved.take 3)).resolveCardKey "obj/1" = some 8 ∧
      (ofCalls plainToken insertedThenRemoved).readerCard "obj/1" = some ⟨7, "Reader", ""⟩ ∧
      "" ≠ Nat.repr 8 := by
  refine ⟨by decide, by decide, ?_⟩
  exact (@routing plainToken insertedThenRemoved (by decide)).2.2.2.2.2.1
    "obj/1" ⟨7, "Reader", ""⟩ 8 (by decide) (by decide)

end Transport

end LibreDarwin
