import Mathlib

/-!
# Tables written field by field

A writer that goes through a list of fields and stores those that have a
value leaves a table a reader can take apart again: where no field is
listed twice, looking a field up gives the value the writer had for it,
and nothing where it had none (`getElem?_ofFields`).
-/

namespace LibreDarwin

open Std (ExtTreeMap TransOrd LawfulEqOrd)

variable {α β : Type*} [Ord α] [TransOrd α]

/-- Store a field that has a value, unless its key is taken. -/
def store (t : ExtTreeMap α β) (field : α × Option β) : ExtTreeMap α β :=
  match field.2 with
  | none => t
  | some v => t.insertIfNew field.1 v

/-- The table of a list of fields. -/
def ofFields (fields : List (α × Option β)) : ExtTreeMap α β := fields.foldl store ∅

variable [LawfulEqOrd α] {t : ExtTreeMap α β} {fields : List (α × Option β)} {k : α} {v : Option β}

theorem getElem?_store_of_ne {field : α × Option β} (h : field.1 ≠ k) : (store t field)[k]? = t[k]? := by
  obtain ⟨k', v'⟩ := field
  cases v' with
  | none => rfl
  | some v' => simp [store, ExtTreeMap.getElem?_insertIfNew, h]

theorem getElem?_store_self (h : t[k]? = none) : (store t (k, v))[k]? = v := by
  cases v with
  | none => exact h
  | some v =>
    have hk : k ∉ t := by
      rw [ExtTreeMap.mem_iff_isSome_getElem?, h]
      simp
    rw [store, ExtTreeMap.getElem?_insertIfNew, if_pos ⟨Std.ReflCmp.compare_self, hk⟩]

/-- Fields under other keys. -/
theorem getElem?_foldl_of_notMem (h : k ∉ fields.map Prod.fst) :
    (fields.foldl store t)[k]? = t[k]? := by
  induction fields generalizing t with
  | nil => rfl
  | cons field fields ih =>
    have hne : field.1 ≠ k := by
      rintro rfl
      exact h List.mem_cons_self
    rw [List.foldl_cons, ih (fun hmem => h (List.mem_cons_of_mem _ hmem)), getElem?_store_of_ne hne]

theorem getElem?_foldl (hnodup : (fields.map Prod.fst).Nodup) (hmem : (k, v) ∈ fields)
    (hnone : t[k]? = none) : (fields.foldl store t)[k]? = v := by
  induction fields generalizing t with
  | nil => cases hmem
  | cons field fields ih =>
    rw [List.map_cons, List.nodup_cons] at hnodup
    rcases List.mem_cons.1 hmem with rfl | hmem
    · rw [List.foldl_cons, getElem?_foldl_of_notMem hnodup.1, getElem?_store_self hnone]
    · have hne : field.1 ≠ k := by
        rintro rfl
        exact hnodup.1 (List.mem_map.2 ⟨_, hmem, rfl⟩)
      rw [List.foldl_cons]
      exact ih hnodup.2 hmem ((getElem?_store_of_ne hne).trans hnone)

/-- **Reading a field back.** -/
theorem getElem?_ofFields (hnodup : (fields.map Prod.fst).Nodup) (hmem : (k, v) ∈ fields) :
    (ofFields fields)[k]? = v :=
  getElem?_foldl hnodup hmem ExtTreeMap.getElem?_empty

/-- And a field the writer does not know. -/
theorem getElem?_ofFields_of_notMem (h : k ∉ fields.map Prod.fst) : (ofFields fields)[k]? = none :=
  (getElem?_foldl_of_notMem h).trans ExtTreeMap.getElem?_empty

theorem not_mem_ofFields (h : k ∉ fields.map Prod.fst) : k ∉ ofFields fields := by
  rw [ExtTreeMap.mem_iff_isSome_getElem?, getElem?_ofFields_of_notMem h]
  simp

theorem mem_store {field : α × Option β} :
    k ∈ store t field ↔ k ∈ t ∨ k = field.1 ∧ field.2.isSome = true := by
  obtain ⟨k', v'⟩ := field
  cases v' with
  | none => simp [store]
  | some v' =>
    rw [store, ExtTreeMap.mem_insertIfNew, LawfulEqOrd.compare_eq_iff_eq]
    simp [or_comm, eq_comm]

/-- **The keys of the table** are those of the fields that have a value. -/
theorem mem_ofFields : k ∈ ofFields fields ↔ ∃ v, (k, some v) ∈ fields := by
  have hgen : ∀ t : ExtTreeMap α β,
      k ∈ fields.foldl store t ↔ k ∈ t ∨ ∃ v, (k, some v) ∈ fields := by
    intro t
    induction fields generalizing t with
    | nil => simp
    | cons field fields ih =>
      obtain ⟨k', v'⟩ := field
      rw [List.foldl_cons, ih, mem_store, or_assoc]
      refine or_congr_right ?_
      simp only [List.mem_cons, Prod.mk.injEq, exists_or, Option.isSome_iff_exists]
      refine or_congr_left ⟨?_, ?_⟩
      · rintro ⟨rfl, v, rfl⟩
        exact ⟨v, rfl, rfl⟩
      · rintro ⟨v, rfl, rfl⟩
        exact ⟨rfl, v, rfl⟩
  rw [ofFields, hgen]
  simp

end LibreDarwin
