import Mathlib

/-!
# Replacing every occurrence

What is left of a list when every occurrence of a pattern is replaced by
one element, from left to right. An infix of the result without that
element is an infix of the list (`infix_of_infix_replaceAll`), so a
replacement whose element no pattern holds brings no pattern back, and
after one for each pattern none is left (`not_infix_foldl_replaceAll`).
-/

namespace LibreDarwin

variable {α : Type*} [DecidableEq α]

/-- Replace every occurrence of `s` by `r`. The first `skip` elements
belong to an occurrence that has been replaced. -/
def replaceFrom (s : List α) (r : α) : ℕ → List α → List α
  | _, [] => []
  | skip + 1, _ :: t => replaceFrom s r skip t
  | 0, a :: t =>
    if s.isPrefixOf (a :: t) then r :: replaceFrom s r (s.length - 1) t
    else a :: replaceFrom s r 0 t

/-- **Replace every occurrence** of `s` by `r`. -/
def replaceAll (s : List α) (r : α) (t : List α) : List α := replaceFrom s r 0 t

variable {s t w : List α} {r a : α} {skip : ℕ}

@[simp] theorem replaceAll_nil : replaceAll s r [] = [] := rfl

theorem replaceFrom_eq : replaceFrom s r skip t = replaceAll s r (t.drop skip) := by
  induction t generalizing skip with
  | nil => cases skip <;> rfl
  | cons a t ih =>
    cases skip with
    | zero => rfl
    | succ skip => exact ih

/-- Where the pattern stands, it is replaced. -/
theorem replaceAll_append (hs : s ≠ []) : replaceAll s r (s ++ t) = r :: replaceAll s r t := by
  cases s with
  | nil => exact absurd rfl hs
  | cons b s =>
    have hpre : (b :: s).isPrefixOf (b :: (s ++ t)) = true :=
      List.isPrefixOf_iff_prefix.2 (List.prefix_append (b :: s) t)
    rw [List.cons_append, replaceAll, replaceFrom, if_pos hpre, replaceFrom_eq]
    simp

theorem replaceAll_cons (h : ¬s <+: a :: t) : replaceAll s r (a :: t) = a :: replaceAll s r t := by
  rw [replaceAll, replaceFrom, if_neg (fun hpre => h (List.isPrefixOf_iff_prefix.1 hpre))]
  rfl

/-- Elements the pattern does not start with are kept. -/
theorem replaceAll_append_of_ne {l : List α} (h : ∀ x ∈ l, s.head? ≠ some x) (hs : s ≠ []) :
    replaceAll s r (l ++ t) = l ++ replaceAll s r t := by
  induction l with
  | nil => rfl
  | cons x l ih =>
    have hpre : ¬s <+: x :: (l ++ t) := by
      intro hpre
      cases s with
      | nil => exact hs rfl
      | cons b s => exact h x List.mem_cons_self (by rw [(List.cons_prefix_cons.1 hpre).1]; rfl)
    rw [List.cons_append, replaceAll_cons hpre, ih fun y hy => h y (List.mem_cons_of_mem x hy)]
    rfl

/-- **The scan, as an induction**: the pattern stands here, or it does not. -/
@[elab_as_elim]
theorem replace_induction {motive : List α → Prop} (hs : s ≠ []) (nil : motive [])
    (hit : ∀ t, motive t → motive (s ++ t))
    (miss : ∀ a t, ¬s <+: a :: t → motive t → motive (a :: t)) (t : List α) : motive t := by
  induction hlen : t.length using Nat.strong_induction_on generalizing t with
  | _ n ih =>
    subst hlen
    cases t with
    | nil => exact nil
    | cons a t =>
      by_cases hpre : s <+: a :: t
      · obtain ⟨rest, hrest⟩ := hpre
        have hlt : rest.length < (a :: t).length := by
          rw [← hrest, List.length_append]
          exact Nat.lt_add_of_pos_left (List.length_pos_iff.2 hs)
        rw [← hrest]
        exact hit rest (ih rest.length hlt rest rfl)
      · exact miss a t hpre (ih t.length (Nat.lt_succ_self _) t rfl)

/-- What an element of the result may be. -/
theorem mem_of_mem_replaceAll {x : α} (hs : s ≠ []) (h : x ∈ replaceAll s r t) :
    x = r ∨ x ∈ t := by
  induction t using replace_induction hs with
  | nil => exact .inr h
  | hit t ih =>
    rw [replaceAll_append hs, List.mem_cons] at h
    rcases h with rfl | h
    · exact .inl rfl
    · exact (ih h).imp_right (List.mem_append_right s)
  | miss a t hpre ih =>
    rw [replaceAll_cons hpre, List.mem_cons] at h
    rcases h with rfl | h
    · exact .inr List.mem_cons_self
    · exact (ih h).imp_right (List.mem_cons_of_mem a)

/-- **A start of the result without the new element** is a start of the
list. -/
theorem prefix_of_prefix_replaceAll (hs : s ≠ []) (h : w <+: replaceAll s r t) (hr : r ∉ w) :
    w <+: t := by
  induction w generalizing t with
  | nil => exact List.nil_prefix
  | cons x w ih =>
    rw [List.mem_cons, not_or] at hr
    cases t using replace_induction hs with
    | nil => exact h
    | hit t =>
      rw [replaceAll_append hs] at h
      exact absurd (List.cons_prefix_cons.1 h).1.symm hr.1
    | miss a t hpre =>
      rw [replaceAll_cons hpre] at h
      obtain ⟨rfl, htail⟩ := List.cons_prefix_cons.1 h
      exact List.cons_prefix_cons.2 ⟨rfl, ih htail hr.2⟩

/-- **And so anywhere inside it.** -/
theorem infix_of_infix_replaceAll (hs : s ≠ []) (h : w <:+: replaceAll s r t) (hr : r ∉ w) :
    w <:+: t := by
  induction t using replace_induction hs with
  | nil => exact h
  | hit t ih =>
    rw [replaceAll_append hs, List.infix_cons_iff] at h
    rcases h with h | h
    · -- what starts with the new element is empty
      cases w with
      | nil => exact List.nil_infix
      | cons x w => exact absurd ((List.cons_prefix_cons.1 h).1 ▸ List.mem_cons_self) hr
    · exact (ih h).trans (List.suffix_append s t).isInfix
  | miss a t hpre ih =>
    have hstart : w <+: replaceAll s r (a :: t) → w <:+: a :: t := fun h =>
      (prefix_of_prefix_replaceAll hs h hr).isInfix
    rw [replaceAll_cons hpre] at h hstart
    rcases List.infix_cons_iff.1 h with h | h
    · exact hstart h
    · exact List.infix_cons (ih h)

/-- **The pattern is gone.** -/
theorem not_infix_replaceAll (hs : s ≠ []) (hr : r ∉ s) : ¬s <:+: replaceAll s r t := by
  induction t using replace_induction hs with
  | nil => exact fun h => hs (List.infix_nil.1 h)
  | hit t ih =>
    rw [replaceAll_append hs, List.infix_cons_iff]
    rintro (h | h)
    · cases s with
      | nil => exact hs rfl
      | cons x s => exact hr ((List.cons_prefix_cons.1 h).1 ▸ List.mem_cons_self)
    · exact ih h
  | miss a t hpre ih =>
    intro h
    rw [replaceAll_cons hpre, List.infix_cons_iff] at h
    rcases h with h | h
    · -- the pattern would start the list here, and it does not
      rw [← replaceAll_cons hpre] at h
      exact hpre (prefix_of_prefix_replaceAll hs h hr)
    · exact ih h

/-! ## One pattern after another -/

variable {patterns : List (List α)}

theorem mem_of_mem_foldl_replaceAll {x : α} (hs : [] ∉ patterns)
    (h : x ∈ patterns.foldl (fun t s => replaceAll s r t) t) : x = r ∨ x ∈ t := by
  induction patterns generalizing t with
  | nil => exact .inr h
  | cons s patterns ih =>
    rw [List.mem_cons, not_or] at hs
    rcases ih hs.2 h with rfl | h
    · exact .inl rfl
    · exact mem_of_mem_replaceAll (Ne.symm hs.1) h

theorem infix_of_infix_foldl_replaceAll (hs : [] ∉ patterns)
    (h : w <:+: patterns.foldl (fun t s => replaceAll s r t) t) (hr : r ∉ w) : w <:+: t := by
  induction patterns generalizing t with
  | nil => exact h
  | cons s patterns ih =>
    rw [List.mem_cons, not_or] at hs
    exact infix_of_infix_replaceAll (Ne.symm hs.1) (ih hs.2 h) hr

/-- **No pattern is left**, and none is brought back by the next. -/
theorem not_infix_foldl_replaceAll (hs : [] ∉ patterns) (hr : ∀ s ∈ patterns, r ∉ s) :
    ∀ s ∈ patterns, ¬s <:+: patterns.foldl (fun t s => replaceAll s r t) t := by
  induction patterns generalizing t with
  | nil => exact fun s hmem => absurd hmem List.not_mem_nil
  | cons s patterns ih =>
    rw [List.mem_cons, not_or] at hs
    intro w hw h
    rcases List.mem_cons.1 hw with rfl | hw
    · -- gone after its own turn, and a later turn brings back nothing without `r`
      have hfirst := hr w List.mem_cons_self
      exact not_infix_replaceAll (Ne.symm hs.1) hfirst (infix_of_infix_foldl_replaceAll hs.2 h hfirst)
    · exact ih hs.2 (fun s hmem => hr s (List.mem_cons_of_mem _ hmem)) w hw h

end LibreDarwin
