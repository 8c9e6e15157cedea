import Mathlib

/-!
# Multimaps, and the age of an entry

A multimap kept as the list of its entries: ordered by key, and among
equal keys in the order of insertion. Where the values inserted grow,
insertion order is the order of the values, so that the first entry under
a key is the oldest (`Aged.find?_least`). Erasing entries keeps it so.
-/

namespace LibreDarwin

variable {α β : Type*} [LinearOrder α] [LinearOrder β]

/-- `std::multimap::emplace`: behind every entry whose key is not above. -/
def emplace (entry : α × β) (entries : List (α × β)) : List (α × β) :=
  entries.orderedInsert (fun a b => a.1 < b.1) entry

/-- One entry stands before another: by key, and by age under one key. -/
def Before (a b : α × β) : Prop := a.1 < b.1 ∨ a.1 = b.1 ∧ a.2 < b.2

/-- **Entries in the order of a multimap whose values only grew.** -/
def Aged (entries : List (α × β)) : Prop := entries.Pairwise Before

variable {entries : List (α × β)} {entry a b c : α × β}

theorem Before.trans (hab : Before a b) (hbc : Before b c) : Before a c := by
  rcases hab with hab | ⟨hab, hab'⟩ <;> rcases hbc with hbc | ⟨hbc, hbc'⟩
  · exact .inl (hab.trans hbc)
  · exact .inl (hbc ▸ hab)
  · exact .inl (hab ▸ hbc)
  · exact .inr ⟨hab.trans hbc, hab'.trans hbc'⟩

theorem Before.ne (h : Before a b) : a ≠ b := by
  rintro rfl
  rcases h with h | ⟨-, h⟩
  · exact lt_irrefl _ h
  · exact lt_irrefl _ h

omit [LinearOrder β] in
theorem perm_emplace : (emplace entry entries).Perm (entry :: entries) :=
  List.perm_orderedInsert _ entry entries

omit [LinearOrder β] in
theorem mem_emplace : b ∈ emplace entry entries ↔ b = entry ∨ b ∈ entries := by
  rw [perm_emplace.mem_iff, List.mem_cons]

namespace Aged

theorem nil : Aged ([] : List (α × β)) := List.Pairwise.nil

theorem nodup (h : Aged entries) : entries.Nodup := List.Pairwise.imp Before.ne h

theorem sublist {entries' : List (α × β)} (h : Aged entries) (hsub : entries'.Sublist entries) :
    Aged entries' := List.Pairwise.sublist hsub h

/-- **An entry younger than every other keeps the order.** -/
theorem emplace (h : Aged entries) (hyoung : ∀ e ∈ entries, e.2 < entry.2) :
    Aged (emplace entry entries) := by
  induction entries with
  | nil => exact List.pairwise_singleton _ _
  | cons e entries ih =>
    rw [Aged, List.pairwise_cons] at h
    rw [LibreDarwin.emplace, List.orderedInsert_cons]
    split
    · rename_i hlt
      -- the first entry with a larger key: everything behind it has one too
      refine List.pairwise_cons.2 ⟨fun e' he' => ?_, List.pairwise_cons.2 h⟩
      rcases List.mem_cons.1 he' with rfl | he'
      · exact .inl hlt
      · exact Before.trans (.inl hlt) (h.1 e' he')
    · rename_i hge
      refine List.pairwise_cons.2 ⟨fun e' he' => ?_, ih h.2 fun e' he' =>
        hyoung e' (List.mem_cons_of_mem _ he')⟩
      rcases mem_emplace.1 he' with rfl | he'
      · rcases lt_or_eq_of_le (not_lt.1 hge) with hlt | heq
        · exact .inl hlt
        · exact .inr ⟨heq, hyoung e List.mem_cons_self⟩
      · exact h.1 e' he'

/-- **The first entry under a key is the oldest.** -/
theorem find?_least {k : α} (h : Aged entries) {e : α × β}
    (hfind : entries.find? (fun e => e.1 = k) = some e) :
    e.1 = k ∧ e ∈ entries ∧ ∀ e' ∈ entries, e'.1 = k → e.2 ≤ e'.2 := by
  have hkey : e.1 = k := by simpa using List.find?_some hfind
  refine ⟨hkey, List.mem_of_find?_eq_some hfind, ?_⟩
  induction entries with
  | nil => cases hfind
  | cons e₀ entries ih =>
    rw [Aged, List.pairwise_cons] at h
    intro e' he' hkey'
    rw [List.find?_cons] at hfind
    split at hfind
    · obtain rfl := Option.some.inj hfind
      rcases List.mem_cons.1 he' with rfl | he'
      · exact le_refl _
      · rcases h.1 e' he' with hlt | ⟨-, hlt⟩
        · exact absurd (hkey.trans hkey'.symm) hlt.ne
        · exact hlt.le
    · rename_i hne
      rcases List.mem_cons.1 he' with rfl | he'
      · exact absurd (decide_eq_true hkey') (by simpa using hne)
      · exact ih h.2 hfind e' he' hkey'

end Aged

omit [LinearOrder α] in
/-- Erasing the one entry of a value. -/
theorem eraseP_eq_filter {v : β} (h : (entries.map Prod.snd).Nodup) :
    (entries.eraseP fun e => e.2 = v) = entries.filter fun e => e.2 ≠ v := by
  induction entries with
  | nil => rfl
  | cons e entries ih =>
    rw [List.map_cons, List.nodup_cons] at h
    by_cases he : e.2 = v
    · have hrest : ∀ e' ∈ entries, decide (e'.2 ≠ v) = true := by
        intro e' he'
        refine decide_eq_true fun heq => h.1 ?_
        rw [he, ← heq]
        exact List.mem_map_of_mem he'
      rw [List.eraseP_cons_of_pos (by simpa using he), List.filter_cons_of_neg (by simpa using he),
        List.filter_eq_self.2 hrest]
    · rw [List.eraseP_cons_of_neg (by simpa using he), List.filter_cons_of_pos (by simpa using he),
        ih h.2]

end LibreDarwin
