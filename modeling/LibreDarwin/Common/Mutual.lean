import Mathlib

/-!
# Tables that are each other's inverse

A table and its reverse, kept by hand: whoever adds an entry adds it to
both and whoever removes one removes it from both. Two such tables are
inverse to each other as long as what is added is new to both
(`Mutual.insert`) and what is removed is an entry (`Mutual.erase`).
-/

namespace LibreDarwin

open Std (ExtTreeMap TransOrd LawfulEqOrd)

variable {α β : Type*} [Ord α] [TransOrd α] [LawfulEqOrd α]
variable [Ord β] [TransOrd β] [LawfulEqOrd β]

/-- **Each table is the inverse of the other.** -/
def Mutual (f : ExtTreeMap α β) (g : ExtTreeMap β α) : Prop :=
  ∀ (a : α) (b : β), f[a]? = some b ↔ g[b]? = some a

namespace Mutual

variable {f : ExtTreeMap α β} {g : ExtTreeMap β α}

omit [LawfulEqOrd α] [LawfulEqOrd β] in
theorem empty : Mutual (∅ : ExtTreeMap α β) (∅ : ExtTreeMap β α) := by
  intro a b
  simp

omit [LawfulEqOrd α] [LawfulEqOrd β] in
/-- Two keys never share a value. -/
theorem unique (h : Mutual f g) {a a' : α} {b : β} (ha : f[a]? = some b) (ha' : f[a']? = some b) :
    a = a' := by
  have hb := (h a b).1 ha
  have hb' := (h a' b).1 ha'
  exact Option.some.inj (hb.symm.trans hb')

/-- **A new pair.** -/
theorem insert (h : Mutual f g) {a : α} {b : β} (ha : f[a]? = none) (hb : g[b]? = none) :
    Mutual (f.insert a b) (g.insert b a) := by
  intro a' b'
  simp only [ExtTreeMap.getElem?_insert, LawfulEqOrd.compare_eq_iff_eq]
  by_cases haa : a = a'
  · subst haa
    by_cases hbb : b = b'
    · simp [hbb]
    · have hnone : g[b']? ≠ some a := by
        intro heq
        rw [(h a b').2 heq] at ha
        cases ha
      simp [hbb, hnone]
  · by_cases hbb : b = b'
    · subst hbb
      have hnone : f[a']? ≠ some b := by
        intro heq
        rw [(h a' b).1 heq] at hb
        cases hb
      simp [haa, hnone]
    · simp [haa, hbb, h a' b']

/-- **A pair leaves.** -/
theorem erase (h : Mutual f g) {a : α} {b : β} (ha : f[a]? = some b) :
    Mutual (f.erase a) (g.erase b) := by
  intro a' b'
  simp only [ExtTreeMap.getElem?_erase, LawfulEqOrd.compare_eq_iff_eq]
  by_cases haa : a = a'
  · subst haa
    by_cases hbb : b = b'
    · simp [hbb]
    · have hnone : g[b']? ≠ some a := by
        intro heq
        have hsame := ha.symm.trans ((h a b').2 heq)
        exact hbb (Option.some.inj hsame)
      simp [hbb, hnone]
  · by_cases hbb : b = b'
    · subst hbb
      have hnone : f[a']? ≠ some b := fun heq => haa (h.unique ha heq)
      simp [haa, hnone]
    · simp [haa, hbb, h a' b']

end Mutual

end LibreDarwin
