import Mathlib

/-!
# Machines, and what their runs keep

A machine reacts to one input at a time and refuses the inputs it is not
ready for. Every theorem about a component of this development is about
the runs of such a machine, so the inductions are made once, here: what
every step keeps, every run keeps (`run_invariant`), and what every step
allowed by a guard keeps, every run of allowed steps keeps
(`RunWhere.invariant`).
-/

namespace LibreDarwin

/-- **A machine.** `step` is undefined on an input the state is not ready
for. -/
structure Machine (State Input : Type*) where
  init : State → Prop
  step : State → Input → Option State

namespace Machine

variable {State Input : Type*}
variable (M : Machine State Input)

/-- Feed a list of inputs, stopping at the first that is refused. -/
def run : State → List Input → Option State
  | s, [] => some s
  | s, i :: is => (M.step s i).bind fun s' => run s' is

@[simp] theorem run_nil (s : State) : M.run s [] = some s := rfl

theorem run_cons (s : State) (i : Input) (is : List Input) :
    M.run s (i :: is) = (M.step s i).bind fun s' => M.run s' is := rfl

/-- The states the runs from an initial state end in. -/
def Reachable (s : State) : Prop := ∃ s₀ is, M.init s₀ ∧ M.run s₀ is = some s

/-- **A run of allowed steps**: every input is one `ok` admits at the
state that takes it. -/
inductive RunWhere (ok : State → Input → Prop) : State → List Input → State → Prop
  | nil (s : State) : RunWhere ok s [] s
  | cons {s s' s'' : State} {i : Input} {is : List Input} :
      ok s i → M.step s i = some s' → RunWhere ok s' is s'' → RunWhere ok s (i :: is) s''

variable {M}

theorem run_cons_eq_some {s s'' : State} {i : Input} {is : List Input} :
    M.run s (i :: is) = some s'' ↔ ∃ s', M.step s i = some s' ∧ M.run s' is = some s'' := by
  rw [run_cons, Option.bind_eq_some_iff]

theorem run_append_eq (s : State) (is js : List Input) :
    M.run s (is ++ js) = (M.run s is).bind fun t => M.run t js := by
  induction is generalizing s with
  | nil => rfl
  | cons i is ih =>
    rw [List.cons_append, run_cons, run_cons]
    cases M.step s i with
    | none => rfl
    | some t => exact ih t

/-- Two runs, one after the other, are one run. -/
theorem run_append {s s' : State} {is js : List Input} (h : M.run s is = some s') :
    M.run s (is ++ js) = M.run s' js := by
  rw [run_append_eq, h, Option.bind_some]

/-- The last step of a run. -/
theorem run_snoc_eq_some {s s' : State} {is : List Input} {i : Input} :
    M.run s (is ++ [i]) = some s' ↔ ∃ t, M.run s is = some t ∧ M.step t i = some s' := by
  rw [run_append_eq, Option.bind_eq_some_iff]
  simp [run_cons]

/-- **What a run has done** by the time it is somewhere: what holds of no
inputs at the start and is carried along by the steps. -/
theorem run_history {I : State → List Input → Prop} {s s' : State} {is : List Input}
    (hinit : I s []) (hstep : ∀ t is i t', I t is → M.step t i = some t' → I t' (is ++ [i]))
    (h : M.run s is = some s') : I s' is := by
  induction is using List.reverseRecOn generalizing s' with
  | nil =>
    obtain rfl := Option.some.inj h
    exact hinit
  | append_singleton is i ih =>
    obtain ⟨t, hrun, hlast⟩ := run_snoc_eq_some.1 h
    exact hstep t is i s' (ih hrun) hlast

/-- **What every step keeps, every run keeps.** -/
theorem run_invariant {I : State → Prop} (hstep : ∀ s i s', I s → M.step s i = some s' → I s')
    {s s' : State} {is : List Input} (hs : I s) (h : M.run s is = some s') : I s' := by
  induction is generalizing s with
  | nil => cases h; exact hs
  | cons i is ih =>
    obtain ⟨t, ht, hrun⟩ := run_cons_eq_some.1 h
    exact ih (hstep s i t hs ht) hrun

/-- And so every reachable state has it. -/
theorem Reachable.invariant {I : State → Prop} (hinit : ∀ s, M.init s → I s)
    (hstep : ∀ s i s', I s → M.step s i = some s' → I s') {s : State} (h : M.Reachable s) :
    I s := by
  obtain ⟨s₀, is, h₀, hrun⟩ := h
  exact run_invariant hstep (hinit s₀ h₀) hrun

theorem Reachable.of_init {s : State} (h : M.init s) : M.Reachable s := ⟨s, [], h, rfl⟩

/-- A run from a reachable state ends in one. -/
theorem Reachable.run {s s' : State} {is : List Input} (h : M.Reachable s)
    (hrun : M.run s is = some s') : M.Reachable s' := by
  obtain ⟨s₀, js, h₀, hjs⟩ := h
  exact ⟨s₀, js ++ is, h₀, by rw [run_append hjs, hrun]⟩

theorem Reachable.step {s s' : State} {i : Input} (h : M.Reachable s)
    (hs : M.step s i = some s') : M.Reachable s' :=
  h.run (show M.run s [i] = some s' by rw [run_cons, hs]; rfl)

namespace RunWhere

variable {ok ok' : State → Input → Prop}

/-- A run of allowed steps is a run. -/
theorem run {s s' : State} {is : List Input} (h : M.RunWhere ok s is s') :
    M.run s is = some s' := by
  induction h with
  | nil => rfl
  | cons _ hstep _ ih => rw [run_cons, hstep, Option.bind_some, ih]

/-- **What every allowed step keeps, every run of allowed steps keeps.** -/
theorem invariant {I : State → Prop}
    (hstep : ∀ s i s', I s → ok s i → M.step s i = some s' → I s')
    {s s' : State} {is : List Input} (hs : I s) (h : M.RunWhere ok s is s') : I s' := by
  induction h with
  | nil => exact hs
  | cons hok h _ ih => exact ih (hstep _ _ _ hs hok h)

end RunWhere

/-- The machine that also refuses what a guard does not admit. -/
def guarded (M : Machine State Input) (ok : State → Input → Prop) [∀ s i, Decidable (ok s i)] :
    Machine State Input where
  init := M.init
  step s i := if ok s i then M.step s i else none

/-- Its runs are the runs of allowed steps. -/
theorem runWhere_of_guarded {ok : State → Input → Prop} [∀ s i, Decidable (ok s i)]
    {s s' : State} {is : List Input} (h : (M.guarded ok).run s is = some s') :
    M.RunWhere ok s is s' := by
  induction is generalizing s with
  | nil => cases h; exact .nil _
  | cons i is ih =>
    obtain ⟨t, ht, hrun⟩ := run_cons_eq_some.1 h
    have hstep : (if ok s i then M.step s i else none) = some t := ht
    split at hstep
    · rename_i hok
      exact .cons hok hstep (ih hrun)
    · cases hstep

end Machine

end LibreDarwin
