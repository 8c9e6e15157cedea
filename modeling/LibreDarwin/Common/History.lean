import Mathlib

/-!
# What came before

A trace is right when every entry of it is accounted for by the entries
before it. `Accounted` says so of a whole list, and a run that adds entries
one at a time needs to look only at the one it adds (`Accounted.snoc`).
-/

namespace LibreDarwin

variable {α : Type*} {P : List α → α → Prop}

/-- **Every entry is accounted for by what came before it.** -/
def Accounted (P : List α → α → Prop) (l : List α) : Prop :=
  ∀ before x after, l = before ++ x :: after → P before x

namespace Accounted

theorem nil : Accounted P [] := by
  intro before x after h
  simp at h

/-- One more entry, accounted for by all the others. -/
theorem snoc {l : List α} (h : Accounted P l) {y : α} (hy : P l y) : Accounted P (l ++ [y]) := by
  intro before x after heq
  -- either the entry looked at is the new one, or it was there before
  rcases List.eq_nil_or_concat after with rfl | ⟨rest, z, rfl⟩
  · obtain ⟨rfl, hxy⟩ := List.append_inj' heq rfl
    obtain rfl : y = x := by simpa using hxy
    exact hy
  · rw [List.concat_eq_append, ← List.cons_append, ← List.append_assoc] at heq
    obtain ⟨hl, -⟩ := List.append_inj' heq rfl
    exact h before x rest hl

theorem mono {Q : List α → α → Prop} {l : List α} (h : Accounted P l)
    (hPQ : ∀ before x, P before x → Q before x) : Accounted Q l :=
  fun before x after heq => hPQ before x (h before x after heq)

/-- Entries that nothing is asked of. -/
theorem append {l : List α} (h : Accounted P l) {ys : List α} (hys : ∀ before, ∀ y ∈ ys, P before y) :
    Accounted P (l ++ ys) := by
  induction ys generalizing l with
  | nil => rwa [List.append_nil]
  | cons y ys ih =>
    rw [show l ++ y :: ys = l ++ [y] ++ ys by simp]
    exact ih (h.snoc (hys l y List.mem_cons_self)) fun before z hz =>
      hys before z (List.mem_cons_of_mem y hz)

end Accounted

end LibreDarwin
