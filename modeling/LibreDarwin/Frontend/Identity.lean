import LibreDarwin.Frontend.Model.Identity

/-!
# The groups of an identity, one by one and at once

A client that keeps the fields of every group event has, at the end, what
the result says, up to the groups that hold photos only: the result leaves
such a group out, and its event is sent with no fields.
-/

namespace LibreDarwin

namespace SocketOperationChannel

open Wire
open Frontend (OpId)
open Std (ExtTreeMap)

variable {op : OpId} {snap : CardReadSnapshot} {group : GroupSnapshot}

/-- **What a client has** after some group events. -/
def accumulated (events : List OpIdentityGroup) : IdentityFields :=
  ExtTreeMap.ofList (events.map fun e => (e.groupKey, e.fields))

/-- A group has no fields exactly when all it holds are photos. -/
theorem toIdentityGroupFields_eq_empty_iff :
    toIdentityGroupFields group = ∅ ↔ ∀ f ∈ group.fields, f.type = .photo := by
  rw [ExtTreeMap.eq_empty_iff_forall_not_mem]
  simp only [toIdentityGroupFields, mem_ofFields, List.mem_map, Prod.mk.injEq, not_exists]
  constructor
  · intro h f hf
    by_contra hphoto
    exact h f.fieldKey (identityField f) f ⟨hf, rfl, if_neg hphoto⟩
  · rintro h k v f ⟨hf, -, hv⟩
    rw [if_pos (h f hf)] at hv
    cases hv

theorem getElem?_accumulated (op : OpId) (hkeys : (snap.groups.map GroupSnapshot.groupKey).Nodup)
    (hmem : group ∈ snap.groups) :
    (accumulated (snap.groups.map (emitGroup op)))[group.groupKey]? =
      some (toIdentityGroupFields group) := by
  refine ExtTreeMap.getElem?_ofList_of_mem Std.ReflCmp.compare_self ?_ ?_
  · rw [List.map_map, List.pairwise_map]
    rw [List.Nodup, List.pairwise_map] at hkeys
    refine hkeys.imp fun hne heq => hne ?_
    exact Std.LawfulEqCmp.eq_of_compare heq
  · rw [List.map_map]
    exact List.mem_map.2 ⟨group, hmem, rfl⟩

theorem getElem?_toIdentityResult (hkeys : (snap.groups.map GroupSnapshot.groupKey).Nodup)
    (hmem : group ∈ snap.groups) :
    (toIdentityResult snap)[group.groupKey]? =
      if (toIdentityGroupFields group).isEmpty then none else some (toIdentityGroupFields group) := by
  refine getElem?_ofFields ?_ (List.mem_map.2 ⟨group, hmem, rfl⟩)
  rw [List.map_map]
  exact hkeys

/-- **The events and the result agree exactly when** every group holds
something besides photos. -/
theorem identity_agrees_iff (hkeys : (snap.groups.map GroupSnapshot.groupKey).Nodup) :
    accumulated (snap.groups.map (emitGroup op)) = toIdentityResult snap ↔
      ∀ group ∈ snap.groups, ∃ f ∈ group.fields, f.type ≠ .photo := by
  have hfields : ∀ group, (toIdentityGroupFields group).isEmpty = false ↔
      ∃ f ∈ group.fields, f.type ≠ .photo := by
    intro group
    rw [ExtTreeMap.isEmpty_eq_false_iff, toIdentityGroupFields_eq_empty_iff]
    simp only [not_forall, exists_prop, ne_eq]
  constructor
  · -- a group of photos alone has an event, and no entry in the result
    intro h group hmem
    rw [← hfields]
    have hget := getElem?_accumulated op hkeys hmem
    rw [h, getElem?_toIdentityResult hkeys hmem] at hget
    cases hempty : (toIdentityGroupFields group).isEmpty with
    | false => rfl
    | true => simp [hempty] at hget
  · intro h
    refine ExtTreeMap.ext_getElem? fun k => ?_
    -- both maps have the keys of the groups, and no others
    by_cases hk : k ∈ snap.groups.map GroupSnapshot.groupKey
    · obtain ⟨group, hmem, rfl⟩ := List.mem_map.1 hk
      rw [getElem?_accumulated op hkeys hmem, getElem?_toIdentityResult hkeys hmem,
        (hfields group).2 (h group hmem)]
      rfl
    · have hresult : (toIdentityResult snap)[k]? = none := by
        refine getElem?_ofFields_of_notMem ?_
        rw [List.map_map]
        exact hk
      rw [hresult]
      refine ExtTreeMap.getElem?_ofList_of_contains_eq_false ?_
      rw [List.map_map, List.map_map, List.contains_eq_mem, decide_eq_false_iff_not]
      exact hk

/-- A name, and a portrait in the same group. -/
def namedSnapshot : CardReadSnapshot :=
  ⟨[⟨"personal", [⟨"name", "", "", .text, "A", []⟩, ⟨"portrait", "", "", .photo, "", [1]⟩]⟩]⟩

theorem identity_agrees_named :
    accumulated (namedSnapshot.groups.map (emitGroup 5)) = toIdentityResult namedSnapshot :=
  have hkeys : (namedSnapshot.groups.map GroupSnapshot.groupKey).Nodup := by decide
  (identity_agrees_iff hkeys).2 (by decide)

/-- A portrait in a group of its own. -/
def photoGroup : GroupSnapshot := ⟨"photo", [⟨"portrait", "", "", .photo, "", [1]⟩]⟩

def photoSnapshot : CardReadSnapshot := ⟨[photoGroup]⟩

theorem identity_agrees_photo :
    accumulated (photoSnapshot.groups.map (emitGroup 5)) ≠ toIdentityResult photoSnapshot := by
  intro h
  have hkeys : (photoSnapshot.groups.map GroupSnapshot.groupKey).Nodup := by decide
  have hgroup : photoGroup ∈ photoSnapshot.groups := List.mem_singleton.2 rfl
  have hempty : (toIdentityGroupFields photoGroup).isEmpty = true :=
    ExtTreeMap.isEmpty_iff.2 (toIdentityGroupFields_eq_empty_iff.2 (by decide))
  have hevent := getElem?_accumulated 5 hkeys hgroup
  rw [h, getElem?_toIdentityResult hkeys hgroup, if_pos hempty] at hevent
  cases hevent

end SocketOperationChannel

end LibreDarwin
