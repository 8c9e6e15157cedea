import LibreDarwin.Transport.Replica

/-!
# Handles

Handles are numbered as they are given out, so none is given twice: in a
`Numbered` presence two objects never share one. Looking a handle up may
give a new one out and changes nothing else (`Extends`).
-/

namespace LibreDarwin

namespace Transport

open Wire
open Std (ExtTreeMap)

theorem objHandle_injective : Function.Injective Presence.objHandle := by
  intro a b h
  have : a.repr = b.repr := by
    simpa [Presence.objHandle, String.append_right_inj] using h
  exact Nat.repr_injective this

namespace Presence

variable {p q : Presence}

/-- **Handles are numbered**, each is of one object. -/
structure Numbered (p : Presence) : Prop where
  given : ∀ (id : ObjectId) h, p.idToHandle[id]? = some h → ∃ k < p.nextHandle, h = objHandle k
  unique : ∀ (id₁ id₂ : ObjectId) h, p.idToHandle[id₁]? = some h → p.idToHandle[id₂]? = some h → id₁ = id₂

theorem Numbered.empty : Presence.empty.Numbered := by
  refine ⟨fun id h hh => ?_, fun id₁ id₂ h hh => ?_⟩ <;> simp [Presence.empty] at hh

/-- **More handles given out**, and nothing else changed. -/
structure Extends (p q : Presence) : Prop where
  kept : ∀ (id : ObjectId) h, p.idToHandle[id]? = some h → q.idToHandle[id]? = some h
  replica : q.replica = p.replica

theorem Extends.refl (p : Presence) : Extends p p := ⟨fun _ _ h => h, rfl⟩

theorem Extends.trans {r : Presence} (h : Extends p q) (h' : Extends q r) : Extends p r :=
  ⟨fun id handle hid => h'.kept id handle (h.kept id handle hid), h'.replica.trans h.replica⟩

theorem Extends.readers (h : Extends p q) : q.readers = p.readers := by
  have := congrArg Replica.readers h.replica
  exact this

theorem Extends.cards (h : Extends p q) : q.cards = p.cards := by
  have := congrArg Replica.cards h.replica
  exact this

/-- **Looking up a handle.** -/
theorem Numbered.handleFor (h : p.Numbered) (id : ObjectId) :
    (p.handleFor id).2.Numbered ∧ Extends p (p.handleFor id).2 ∧
      (p.handleFor id).2.idToHandle[id]? = some (p.handleFor id).1 := by
  cases hid : p.idToHandle[id]? with
  | some handle =>
    have heq : p.handleFor id = (handle, p) := by
      unfold Presence.handleFor
      rw [hid]
    rw [heq]
    exact ⟨h, .refl p, hid⟩
  | none =>
    have heq : p.handleFor id = (objHandle p.nextHandle,
        { p with nextHandle := p.nextHandle + 1,
                 idToHandle := p.idToHandle.insert id (objHandle p.nextHandle),
                 handleToId := p.handleToId.insert (objHandle p.nextHandle) id }) := by
      unfold Presence.handleFor
      rw [hid]
    rw [heq]
    dsimp only
    -- the new handle is none of those given out
    have hnew : ∀ id' : ObjectId, p.idToHandle[id']? ≠ some (objHandle p.nextHandle) := by
      intro id' hid'
      obtain ⟨k, hk, hhandle⟩ := h.given id' _ hid'
      have := objHandle_injective hhandle
      omega
    have hlookup : ∀ id' : ObjectId, (p.idToHandle.insert id (objHandle p.nextHandle))[id']? =
        if id = id' then some (objHandle p.nextHandle) else p.idToHandle[id']? := by
      intro id'
      rw [ExtTreeMap.getElem?_insert]
      simp
    refine ⟨⟨fun id' handle hid' => ?_, fun id₁ id₂ handle h₁ h₂ => ?_⟩, ⟨fun id' handle hid' => ?_,
      rfl⟩, ?_⟩
    · rw [hlookup] at hid'
      split at hid'
      · obtain rfl := Option.some.inj hid'
        exact ⟨p.nextHandle, Nat.lt_succ_self _, rfl⟩
      · obtain ⟨k, hk, rfl⟩ := h.given id' handle hid'
        exact ⟨k, Nat.lt_succ_of_lt hk, rfl⟩
    · rw [hlookup] at h₁ h₂
      split at h₁ <;> split at h₂
      · rename_i heq₁ heq₂
        exact heq₁.symm.trans heq₂
      · obtain rfl := Option.some.inj h₁
        exact absurd h₂ (hnew id₂)
      · obtain rfl := Option.some.inj h₂
        exact absurd h₁ (hnew id₁)
      · exact h.unique id₁ id₂ handle h₁ h₂
    · have hne : id ≠ id' := by
        rintro rfl
        rw [hid] at hid'
        cases hid'
      show (p.idToHandle.insert id (objHandle p.nextHandle))[id']? = some handle
      rw [hlookup, if_neg hne, hid']
    · rw [hlookup, if_pos rfl]

theorem Numbered.handleFor? (h : p.Numbered) (id : Option ObjectId) :
    (p.handleFor? id).2.Numbered ∧ Extends p (p.handleFor? id).2 := by
  cases id with
  | none => exact ⟨h, .refl p⟩
  | some id => exact ⟨(h.handleFor id).1, (h.handleFor id).2.1⟩

end Presence

end Transport

end LibreDarwin
