import Mathlib

/-!
# Tables that can be rebuilt from their values

A table whose values say under which key they are stored is the table of
its values: whoever is sent the values alone can rebuild it
(`ofValues_values`). Storing a value under its own key and erasing one
keep such a table so.
-/

namespace LibreDarwin

open Std (ExtTreeMap TransOrd LawfulEqOrd)

variable {α β : Type*} [Ord α] [TransOrd α] {key : β → α}

/-- **Every value is stored under its own key.** -/
def Keyed (key : β → α) (t : ExtTreeMap α β) : Prop := ∀ k v, t[k]? = some v → key v = k

/-- The values of a table, in the order of their keys. -/
def values (t : ExtTreeMap α β) : List β := t.toList.map Prod.snd

/-- The table of a list of values. -/
def ofValues (key : β → α) (vs : List β) : ExtTreeMap α β :=
  ExtTreeMap.ofList (vs.map fun v => (key v, v))

namespace Keyed

variable {t : ExtTreeMap α β}

theorem empty : Keyed key (∅ : ExtTreeMap α β) := by
  intro k v h
  simp at h

theorem erase (h : Keyed key t) (k : α) : Keyed key (t.erase k) := by
  intro k' v hk
  rw [ExtTreeMap.getElem?_erase] at hk
  split at hk
  · cases hk
  · exact h k' v hk

variable [LawfulEqOrd α]

theorem insert (h : Keyed key t) {k : α} {v : β} (hv : key v = k) : Keyed key (t.insert k v) := by
  intro k' v' hk
  rw [ExtTreeMap.getElem?_insert] at hk
  split at hk
  · rename_i heq
    obtain rfl := Option.some.inj hk
    rw [hv, LawfulEqOrd.eq_of_compare heq]
  · exact h k' v' hk

end Keyed

variable [LawfulEqOrd α] [BEq α] [LawfulBEq α]

theorem ofList_toList (t : ExtTreeMap α β) : ExtTreeMap.ofList t.toList = t := by
  refine ExtTreeMap.ext_getElem? fun k => ?_
  cases hk : t[k]? with
  | some v =>
    have hmem : (k, v) ∈ t.toList := ExtTreeMap.mem_toList_iff_getElem?_eq_some.2 hk
    exact ExtTreeMap.getElem?_ofList_of_mem Std.ReflCmp.compare_self
      ExtTreeMap.distinct_keys_toList hmem
  | none =>
    refine ExtTreeMap.getElem?_eq_none fun hmem => ?_
    rw [ExtTreeMap.mem_ofList, List.contains_iff_mem, List.mem_map] at hmem
    obtain ⟨⟨k', v⟩, he, rfl⟩ := hmem
    rw [ExtTreeMap.mem_toList_iff_getElem?_eq_some, hk] at he
    cases he

/-- **Rebuilding a table** from its values. -/
theorem Keyed.ofValues_values {t : ExtTreeMap α β} (h : Keyed key t) :
    ofValues key (values t) = t := by
  have hlist : (values t).map (fun v => (key v, v)) = t.toList := by
    rw [values, List.map_map]
    refine (List.map_congr_left fun e he => ?_).trans (List.map_id _)
    have hkey := h e.1 e.2 (ExtTreeMap.mem_toList_iff_getElem?_eq_some.1 he)
    exact Prod.ext hkey rfl
  rw [ofValues, hlist, ofList_toList]

omit [BEq α] [LawfulBEq α] in
/-- What a map forgets of an entry may change. -/
theorem map_insert_same {γ : Type*} {t : ExtTreeMap α β} {f : α → β → γ} {k : α} {v v' : β}
    (hk : t[k]? = some v) (hf : f k v' = f k v) : (t.insert k v').map f = t.map f := by
  refine ExtTreeMap.ext_getElem? fun k' => ?_
  rw [ExtTreeMap.getElem?_map, ExtTreeMap.getElem?_map, ExtTreeMap.getElem?_insert]
  split
  · rename_i heq
    obtain rfl := LawfulEqOrd.eq_of_compare heq
    rw [hk, Option.map_some, Option.map_some, hf]
  · rfl

end LibreDarwin
