import LibreDarwin.Common.Keyed
import LibreDarwin.Transport.Model.Presence

/-!
# The presence a client keeps

A client starts from the reply to a GetState and applies the presence
events that follow. `Replica` is what it keeps, `Replica.apply` what it
makes of an event. The reply is the whole of the stored presence
(`of_currentState`), and each entry point changes that presence exactly
as its event changes a replica (`replica_after`).
-/

namespace LibreDarwin

namespace Transport

open Wire
open Std (ExtTreeMap)

variable {token : ReaderInterface → String}

/-- Readers and cards, by handle. -/
@[ext] structure Replica where
  readers : ExtTreeMap Handle ReaderState
  cards : ExtTreeMap Handle CardState

namespace Replica

/-- What the reply to a GetState says. -/
def of (state : StateReply) : Replica :=
  ⟨ofValues ReaderState.handle state.readers, ofValues CardState.handle state.cards⟩

/-- The reply a GetState would get from here. -/
def state (r : Replica) : StateReply := ⟨values r.readers, values r.cards⟩

/-- The interface a token stands for. -/
def interfaceOf (token : ReaderInterface → String) (s : String) : Option ReaderInterface :=
  [.unknown, .contact, .contactless].find? fun i => token i = s

/-- One named field of a reader. -/
def setReaderField (token : ReaderInterface → String) (r : ReaderState) :
    String × PropValue → ReaderState
  | ("HasCard", .bool hasCard) => { r with hasCard := hasCard }
  | ("Card", .text card) => { r with card := some card }
  | ("Model", .text model) => { r with model := model }
  | ("Interface", .text iface) => { r with iface := (interfaceOf token iface).getD r.iface }
  | _ => r

/-- The named fields of a reader; `HasCard` without `Card` clears the
card. -/
def setReader (token : ReaderInterface → String) (r : ReaderState)
    (props : List (String × PropValue)) : ReaderState :=
  props.foldl (setReaderField token)
    (if "HasCard" ∈ props.map Prod.fst then { r with card := none } else r)

/-- One named field of a card. -/
def setCardField (c : CardState) : String × PropValue → CardState
  | ("CardType", .text cardType) => { c with cardType := some cardType }
  | _ => c

/-- **What a client makes of an event.** -/
def apply (token : ReaderInterface → String) (r : Replica) : Event → Replica
  | .readerAdded reader => { r with readers := r.readers.insert reader.handle reader }
  | .readerRemoved handle => { r with readers := r.readers.erase handle }
  | .cardAdded card => { r with cards := r.cards.insert card.handle card }
  | .cardRemoved handle => { r with cards := r.cards.erase handle }
  | .propertyChanged handle iface props =>
    if iface = Presence.readerIface then
      match r.readers[handle]? with
      | none => r
      | some reader => { r with readers := r.readers.insert handle (setReader token reader props) }
    else if iface = Presence.cardIface then
      match r.cards[handle]? with
      | none => r
      | some card => { r with cards := r.cards.insert handle (props.foldl setCardField card) }
    else r
  | .configChanged _ => r
  | .agentQuiesced _ => r

/-- A token names one interface when no two interfaces share it. -/
theorem interfaceOf_token (htoken : Function.Injective token) (i : ReaderInterface) :
    interfaceOf token (token i) = some i := by
  unfold interfaceOf
  cases i <;> simp [htoken.eq_iff]

theorem setReader_label (htoken : Function.Injective token) (r : ReaderState)
    (iface : ReaderInterface) (model : String) :
    setReader token r [("Interface", .text (token iface)), ("Model", .text model)] =
      { r with model := model, iface := iface } := by
  simp [setReader, setReaderField, interfaceOf_token htoken]

theorem setReader_hasCard (r : ReaderState) (hasCard : Bool) (card : Option Handle) :
    setReader token r (Presence.hasCardProps hasCard card) =
      { r with hasCard := hasCard, card := card } := by
  cases card with
  | none => simp [setReader, setReaderField, Presence.hasCardProps]
  | some card => simp [setReader, setReaderField, Presence.hasCardProps]

end Replica

namespace Presence

variable {p : Presence}

/-- The part of the presence a client is told of. -/
def replica (p : Presence) : Replica := ⟨p.readers, p.cards⟩

/-- **Readers and cards are stored under their own handles.** -/
structure ByHandle (p : Presence) : Prop where
  readers : Keyed ReaderState.handle p.readers
  cards : Keyed CardState.handle p.cards

theorem ByHandle.empty : Presence.empty.ByHandle := ⟨.empty, .empty⟩

/-- **The reply to a GetState is the whole of it.** -/
theorem ByHandle.of_currentState (h : p.ByHandle) : Replica.of p.currentState = p.replica := by
  have hreaders := h.readers.ofValues_values
  have hcards := h.cards.ofValues_values
  exact Replica.ext hreaders hcards

@[simp] theorem replica_handleFor (p : Presence) (id : ObjectId) :
    (p.handleFor id).2.replica = p.replica := by
  unfold handleFor
  split <;> rfl

@[simp] theorem replica_handleFor? (p : Presence) (id : Option ObjectId) :
    (p.handleFor? id).2.replica = p.replica := by
  cases id with
  | none => rfl
  | some id => exact replica_handleFor p id

@[simp] theorem replica_rebuildRoster (p : Presence) : p.rebuildRoster.replica = p.replica := rfl

/-- The readers and cards are all `ByHandle` looks at. -/
theorem ByHandle.congr {q : Presence} (h : p.ByHandle) (heq : q.replica = p.replica) :
    q.ByHandle := by
  have hreaders : q.readers = p.readers := congrArg Replica.readers heq
  have hcards : q.cards = p.cards := congrArg Replica.cards heq
  exact ⟨hreaders ▸ h.readers, hcards ▸ h.cards⟩

theorem readerOf_eq_some {id : ObjectId} {handle : Handle} {r : ReaderState}
    (h : p.readerOf id = some (handle, r)) : p.readers[handle]? = some r := by
  obtain ⟨handle', -, hmap⟩ := Option.bind_eq_some_iff.1 h
  obtain ⟨r', hr, heq⟩ := Option.map_eq_some_iff.1 hmap
  cases heq
  exact hr

/-- A change of a published reader. -/
theorem ByHandle.setReader (h : p.ByHandle) {handle : Handle} {r r' : ReaderState}
    (hr : p.readers[handle]? = some r) (hsame : r'.handle = r.handle) {q : Presence}
    (hq : q.replica = ⟨p.readers.insert handle r', p.cards⟩) : q.ByHandle := by
  have hhandle : r.handle = handle := h.readers handle r hr
  have hinsert : Keyed ReaderState.handle (p.readers.insert handle r') :=
    h.readers.insert (hsame.trans hhandle)
  exact ByHandle.congr ⟨hinsert, h.cards⟩ (p := { p with readers := p.readers.insert handle r' }) hq

/-- **Each entry point changes the presence as its event changes a
replica.** -/
theorem replica_after (htoken : Function.Injective token) (h : p.ByHandle) (call : Call) :
    (p.after token call).1.ByHandle ∧
      (p.after token call).1.replica =
        (p.after token call).2.toList.foldl (Replica.apply token) p.replica := by
  cases call with
  | publishReader reader =>
    have hcongr : ((p.handleFor reader.id).2.handleFor? reader.card).2.replica = p.replica := by
      simp
    have hreaders := congrArg Replica.readers hcongr
    have hcards := congrArg Replica.cards hcongr
    have hkept := h.congr hcongr
    refine ⟨⟨hkept.readers.insert rfl, hkept.cards⟩, ?_⟩
    exact Replica.ext (congrArg (ExtTreeMap.insert · _ _) hreaders) hcards
  | relabelReader reader =>
    simp only [after, relabelReader]
    cases hof : p.readerOf reader.id with
    | none => exact ⟨h, rfl⟩
    | some found =>
      obtain ⟨handle, r⟩ := found
      have hr := readerOf_eq_some hof
      dsimp only
      split
      · exact ⟨h, rfl⟩
      · refine ⟨h.setReader hr ?_ rfl, ?_⟩
        · rfl
        have hset := Replica.setReader_label htoken r reader.iface reader.model
        simp [Replica.apply, replica, hr, hset]
  | publishCard card =>
    have hcongr : ((p.handleFor card.id).2.handleFor card.reader).2.replica = p.replica := by
      simp
    have hreaders := congrArg Replica.readers hcongr
    have hcards := congrArg Replica.cards hcongr
    have hkept := h.congr hcongr
    refine ⟨⟨hkept.readers, hkept.cards.insert rfl⟩, ?_⟩
    exact Replica.ext hreaders (congrArg (ExtTreeMap.insert · _ _) hcards)
  | withdraw object =>
    simp only [after, withdraw]
    cases p.idToHandle[object]? with
    | none => exact ⟨h, rfl⟩
    | some handle =>
      dsimp only
      split_ifs
      · exact ⟨⟨h.readers.erase handle, h.cards⟩, rfl⟩
      · exact ⟨⟨h.readers, h.cards.erase handle⟩, rfl⟩
      · exact ⟨⟨h.readers, h.cards⟩, rfl⟩
  | updateProperties reader delta =>
    simp only [after, updateProperties]
    cases hof : p.readerOf reader with
    | none => exact ⟨h, rfl⟩
    | some found =>
      obtain ⟨handle, r⟩ := found
      have hr := readerOf_eq_some hof
      dsimp only
      generalize hcard : p.handleFor? (if delta.hasCard = true then delta.card else none) = out
      have hcongr : out.2.replica = p.replica := by rw [← hcard, replica_handleFor?]
      have hreaders : out.2.readers = p.readers := congrArg Replica.readers hcongr
      have hcards : out.2.cards = p.cards := congrArg Replica.cards hcongr
      have hr' : out.2.readers[handle]? = some r := hreaders ▸ hr
      refine ⟨(h.congr hcongr).setReader hr' ?_ rfl, ?_⟩
      · rfl
      have hset := @Replica.setReader_hasCard token r delta.hasCard out.1
      simp [Replica.apply, replica, hr, hset, hreaders, hcards]
  | updateCardType handle cardType =>
    simp only [after, updateCardType]
    cases hc : p.cards[handle]? with
    | none => exact ⟨h, rfl⟩
    | some c =>
      have hhandle : c.handle = handle := h.cards handle c hc
      dsimp only
      split_ifs
      · exact ⟨h, rfl⟩
      · refine ⟨⟨h.readers, h.cards.insert hhandle⟩, ?_⟩
        have hiface : cardIface ≠ readerIface := by decide
        simp [Replica.apply, replica, hc, hiface, Replica.setCardField]

end Presence

end Transport

end LibreDarwin
