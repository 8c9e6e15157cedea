import LibreDarwin.Common.Machine

/-!
# Scripts, and what they follow

A script is a computation that writes down what it does, in order, and may
end early with a refusal. What it writes down are inputs of a machine: a
script follows the machine from a state when the machine takes all of them,
however the script ends (`Follows`). The rules are those of a program
logic, one for each way a script is built, with a postcondition for the
results and one for the refusals.
-/

namespace LibreDarwin

/-- **A script**: what it wrote down, and its result or its refusal. -/
structure Script (D E α : Type*) where
  log : List D
  result : Except E α

namespace Script

universe u

variable {D E α β Φ : Type*}

/-- The script after `x` is not run when `x` refused. -/
def andThen (x : Script D E α) (f : α → Script D E β) : Script D E β :=
  match x.result with
  | .ok a => ⟨x.log ++ (f a).log, (f a).result⟩
  | .error e => ⟨x.log, .error e⟩

instance : Monad (Script D E) where
  pure a := ⟨[], .ok a⟩
  bind := andThen

/-- Write down one thing. -/
def tell (d : D) : Script D E Unit := ⟨[d], .ok ()⟩

def refuse (e : E) : Script D E α := ⟨[], .error e⟩

/-- Refuse if something is wrong. -/
def refuseIf (bad : Bool) (e : E) : Script D E Unit := if bad then refuse e else pure ()

/-- The result of a computation that writes nothing down. -/
def ofExcept (result : Except E α) : Script D E α := ⟨[], result⟩

/-- The value there is, or a refusal. -/
def ofOption (value : Option α) (e : E) : Script D E α :=
  match value with
  | some a => pure a
  | none => refuse e

/-- One script for each item, until one refuses. -/
def forEach {γ : Type*} (f : γ → Script D E α) : List γ → Script D E (List α)
  | [] => ⟨[], .ok []⟩
  | c :: cs => (f c).andThen fun a => (forEach f cs).andThen fun as => ⟨[], .ok (a :: as)⟩

/-! ## How a script ends -/

section Result

theorem result_andThen {x : Script D E α} {f : α → Script D E β} {b : β} :
    (x.andThen f).result = .ok b ↔ ∃ a, x.result = .ok a ∧ (f a).result = .ok b := by
  unfold andThen
  cases x.result <;> simp

@[simp] theorem result_bind {α β : Type u} {x : Script D E α} {f : α → Script D E β} {b : β} :
    (x >>= f).result = .ok b ↔ ∃ a, x.result = .ok a ∧ (f a).result = .ok b := result_andThen

@[simp] theorem result_pure {a b : α} :
    (pure a : Script D E α).result = .ok b ↔ a = b := by
  simp [pure]

@[simp] theorem result_tell {d : D} : (tell d : Script D E Unit).result = .ok () := rfl

@[simp] theorem result_refuse {e : E} {a : α} : (refuse e : Script D E α).result ≠ .ok a := by
  simp [refuse]

@[simp] theorem result_refuseIf {bad : Bool} {e : E} {u : Unit} :
    (refuseIf bad e : Script D E Unit).result = .ok u ↔ bad = false := by
  cases bad <;> simp [refuseIf]

@[simp] theorem result_ofExcept {result : Except E α} :
    (ofExcept result : Script D E α).result = result := rfl

@[simp] theorem result_ofOption {value : Option α} {e : E} {a : α} :
    (ofOption value e : Script D E α).result = .ok a ↔ value = some a := by
  cases value <;> simp [ofOption]

/-- A loop that succeeds succeeded at every item. -/
theorem result_forEach {γ : Type*} {f : γ → Script D E α} {cs : List γ} {as : List α}
    (h : (forEach f cs).result = .ok as) : ∀ c ∈ cs, ∃ a, (f c).result = .ok a := by
  induction cs generalizing as with
  | nil => simp
  | cons c cs ih =>
    rw [forEach, result_andThen] at h
    obtain ⟨a, ha, hrest⟩ := h
    obtain ⟨bs, hbs, -⟩ := result_andThen.1 hrest
    rintro c' hc'
    rcases List.mem_cons.1 hc' with rfl | hmem
    · exact ⟨a, ha⟩
    · exact ih hbs c' hmem

end Result

/-! ## What a script writes down -/

section Log

theorem bind_of_ok {α β : Type u} {x : Script D E α} {f : α → Script D E β} {a : α}
    (h : x.result = .ok a) :
    (x >>= f).log = x.log ++ (f a).log ∧ (x >>= f).result = (f a).result := by
  change (x.andThen f).log = _ ∧ (x.andThen f).result = _
  rw [andThen, h]
  exact ⟨rfl, rfl⟩

theorem bind_of_error {α β : Type u} {x : Script D E α} {f : α → Script D E β} {e : E}
    (h : x.result = .error e) : (x >>= f).log = x.log ∧ (x >>= f).result = .error e := by
  change (x.andThen f).log = _ ∧ (x.andThen f).result = _
  rw [andThen, h]
  exact ⟨rfl, rfl⟩

/-- **What silent scripts make up** is silent. -/
theorem log_bind_eq_nil {α β : Type u} {x : Script D E α} {f : α → Script D E β}
    (hx : x.log = []) (hf : ∀ a, (f a).log = []) : (x >>= f).log = [] := by
  cases h : x.result with
  | error e => rw [(bind_of_error h).1, hx]
  | ok a => rw [(bind_of_ok h).1, hx, hf, List.append_nil]

@[simp] theorem log_refuseIf {bad : Bool} {e : E} :
    (refuseIf bad e : Script D E Unit).log = [] := by
  cases bad <;> rfl

@[simp] theorem log_ofOption {value : Option α} {e : E} :
    (ofOption value e : Script D E α).log = [] := by
  cases value <;> rfl

end Log

/-- **All a script writes down** is of one kind. -/
def Writes (P : D → Prop) (x : Script D E α) : Prop := ∀ d ∈ x.log, P d

namespace Writes

variable {P : D → Prop}

theorem of_silent {x : Script D E α} (h : x.log = []) : Writes P x := by
  intro d hd
  rw [h] at hd
  cases hd

theorem pure {a : α} : Writes P (pure a : Script D E α) := of_silent rfl

theorem refuse {e : E} : Writes P (refuse e : Script D E α) := of_silent rfl

theorem tell {d : D} (h : P d) : Writes P (tell d : Script D E Unit) := by
  intro d' hd'
  rw [List.mem_singleton.1 hd']
  exact h

/-- Each part of two, each part of many. -/
theorem andThen {x : Script D E α} {f : α → Script D E β} (hx : Writes P x)
    (hf : ∀ a, Writes P (f a)) : Writes P (x.andThen f) := by
  intro d hd
  unfold Script.andThen at hd
  cases hresult : x.result with
  | error e =>
    rw [hresult] at hd
    exact hx d hd
  | ok a =>
    rw [hresult] at hd
    rcases List.mem_append.1 hd with hd | hd
    · exact hx d hd
    · exact hf a d hd

theorem bind {α β : Type u} {x : Script D E α} {f : α → Script D E β} (hx : Writes P x)
    (hf : ∀ a, Writes P (f a)) : Writes P (x >>= f) := hx.andThen hf

/-- What writes nothing may come first. -/
theorem silent_bind {α β : Type u} {x : Script D E α} {f : α → Script D E β} (hx : x.log = [])
    (hf : ∀ a, Writes P (f a)) : Writes P (x >>= f) := (of_silent hx).andThen hf

theorem forEach {γ : Type*} {f : γ → Script D E α} (hf : ∀ c, Writes P (f c)) (cs : List γ) :
    Writes P (forEach f cs) := by
  induction cs with
  | nil => exact of_silent rfl
  | cons c cs ih => exact (hf c).andThen fun a => ih.andThen fun as => of_silent rfl

end Writes

/-- **A script follows a machine** from a state: the machine takes what it
writes down, `Q` holds of the state and a result, `R` of the state and a
refusal. -/
def Follows (M : Machine Φ D) (φ : Φ) (x : Script D E α) (Q : Φ → α → Prop) (R : Φ → E → Prop) :
    Prop :=
  ∃ φ', M.run φ x.log = some φ' ∧
    match x.result with
    | .ok a => Q φ' a
    | .error e => R φ' e

namespace Follows

variable {M : Machine Φ D} {φ : Φ} {Q : Φ → α → Prop} {R : Φ → E → Prop}

theorem pure {a : α} (h : Q φ a) : Follows M φ (pure a : Script D E α) Q R := ⟨φ, rfl, h⟩

theorem refuse {e : E} (h : R φ e) : Follows M φ (refuse e : Script D E α) Q R := ⟨φ, rfl, h⟩

theorem tell {d : D} {Q : Φ → Unit → Prop} {φ' : Φ} (hstep : M.step φ d = some φ')
    (h : Q φ' ()) : Follows M φ (tell d : Script D E Unit) Q R :=
  ⟨φ', by simp [Script.tell, Machine.run_cons, hstep], h⟩

/-- **One script after another.** -/
theorem andThen {x : Script D E α} {f : α → Script D E β} {P : Φ → α → Prop} {Q : Φ → β → Prop}
    (hx : Follows M φ x P R) (hf : ∀ φ' a, P φ' a → Follows M φ' (f a) Q R) :
    Follows M φ (x.andThen f) Q R := by
  obtain ⟨φ', hrun, hres⟩ := hx
  unfold Script.andThen
  cases hresult : x.result with
  | error e =>
    rw [hresult] at hres
    exact ⟨φ', hrun, hres⟩
  | ok a =>
    rw [hresult] at hres
    obtain ⟨φ'', hrun', hres'⟩ := hf φ' a hres
    exact ⟨φ'', by rw [Machine.run_append hrun, hrun'], hres'⟩

theorem bind {α β : Type u} {x : Script D E α} {f : α → Script D E β} {P : Φ → α → Prop}
    {Q : Φ → β → Prop} (hx : Follows M φ x P R) (hf : ∀ φ' a, P φ' a → Follows M φ' (f a) Q R) :
    Follows M φ (x >>= f) Q R := hx.andThen hf

theorem refuseIf {bad : Bool} {e : E} {Q : Φ → Unit → Prop} (hok : bad = false → Q φ ())
    (hbad : R φ e) : Follows M φ (refuseIf bad e : Script D E Unit) Q R := by
  unfold Script.refuseIf
  cases bad with
  | false => exact pure (hok rfl)
  | true => exact refuse hbad

theorem ofExcept {result : Except E α} (hok : ∀ a, result = .ok a → Q φ a)
    (herror : ∀ e, result = .error e → R φ e) :
    Follows M φ (ofExcept result : Script D E α) Q R := by
  cases result with
  | ok a => exact ⟨φ, rfl, hok a rfl⟩
  | error e => exact ⟨φ, rfl, herror e rfl⟩

theorem ofOption {value : Option α} {e : E} (hsome : ∀ a, value = some a → Q φ a)
    (hnone : R φ e) : Follows M φ (ofOption value e : Script D E α) Q R := by
  cases value with
  | some a => exact pure (hsome a rfl)
  | none => exact refuse hnone

/-- **The invariant rule of a loop**: `I` relates the state, the items done
and their results, and each turn keeps it. -/
theorem forEach {γ : Type*} {f : γ → Script D E α} {I : Φ → List γ → List α → Prop}
    (hf : ∀ φ done as c, I φ done as →
      Follows M φ (f c) (fun φ' a => I φ' (done ++ [c]) (as ++ [a])) R)
    (cs : List γ) {φ : Φ} {done : List γ} {as : List α} (h : I φ done as) :
    Follows M φ (forEach f cs) (fun φ' bs => I φ' (done ++ cs) (as ++ bs)) R := by
  induction cs generalizing φ done as with
  | nil => exact ⟨φ, rfl, by simpa [Script.forEach] using h⟩
  | cons c cs ih =>
    refine (hf φ done as c h).andThen fun φ' a ha => ?_
    refine (ih ha).andThen fun φ'' bs hbs => ?_
    exact ⟨φ'', rfl, by simpa using hbs⟩

end Follows

/-- **Two scripts alike**: they write down the same, and refuse alike or
have results that `R` relates. -/
structure Alike (R : α → β → Prop) (x : Script D E α) (y : Script D E β) : Prop where
  log : x.log = y.log
  result : (∃ e, x.result = .error e ∧ y.result = .error e) ∨
    ∃ a b, x.result = .ok a ∧ y.result = .ok b ∧ R a b

namespace Alike

variable {R : α → β → Prop}

theorem pure {a : α} {b : β} (h : R a b) :
    Alike R (pure a : Script D E α) (pure b : Script D E β) :=
  ⟨rfl, .inr ⟨a, b, rfl, rfl, h⟩⟩

/-- A script is alike itself. -/
theorem refl (x : Script D E α) : Alike Eq x x := by
  refine ⟨rfl, ?_⟩
  cases hx : x.result with
  | error e => exact .inl ⟨e, rfl, rfl⟩
  | ok a => exact .inr ⟨a, a, rfl, rfl, rfl⟩

/-- **And so is what goes on alike** from related results. -/
theorem andThen {α' β' : Type*} {P : α → α' → Prop} {R : β → β' → Prop} {x : Script D E α}
    {x' : Script D E α'} {f : α → Script D E β} {f' : α' → Script D E β'} (hx : Alike P x x')
    (hf : ∀ a a', P a a' → Alike R (f a) (f' a')) : Alike R (x.andThen f) (x'.andThen f') := by
  obtain ⟨hlog, hres⟩ := hx
  unfold Script.andThen
  rcases hres with ⟨e, he, he'⟩ | ⟨a, a', ha, ha', hP⟩
  · rw [he, he']
    exact ⟨hlog, .inl ⟨e, rfl, rfl⟩⟩
  · rw [ha, ha']
    obtain ⟨hlog', hres'⟩ := hf a a' hP
    exact ⟨congrArg₂ (· ++ ·) hlog hlog', hres'⟩

theorem bind {α α' : Type u} {β β' : Type u} {P : α → α' → Prop} {R : β → β' → Prop}
    {x : Script D E α} {x' : Script D E α'} {f : α → Script D E β} {f' : α' → Script D E β'}
    (hx : Alike P x x') (hf : ∀ a a', P a a' → Alike R (f a) (f' a')) :
    Alike R (x >>= f) (x' >>= f') := hx.andThen hf

/-- From the same first part. -/
theorem bind_left {α : Type u} {β β' : Type u} {R : β → β' → Prop} (x : Script D E α)
    {f : α → Script D E β} {f' : α → Script D E β'} (hf : ∀ a, Alike R (f a) (f' a)) :
    Alike R (x >>= f) (x >>= f') :=
  (refl x).bind fun a _ heq => heq ▸ hf a

/-- A result that only one of them goes on to change. -/
theorem map_right {β' : Type*} {P : α → β → Prop} {R : α → β' → Prop} {x : Script D E α}
    {y : Script D E β} {f : β → β'} (hx : Alike P x y) (hf : ∀ a b, P a b → R a (f b)) :
    Alike R x (y.andThen fun b => ⟨[], .ok (f b)⟩) := by
  obtain ⟨hlog, hres⟩ := hx
  unfold Script.andThen
  rcases hres with ⟨e, he, he'⟩ | ⟨a, b, ha, hb, hP⟩
  · rw [he']
    exact ⟨hlog, .inl ⟨e, he, rfl⟩⟩
  · rw [hb]
    exact ⟨hlog.trans (List.append_nil _).symm, .inr ⟨a, f b, ha, rfl, hf a b hP⟩⟩

end Alike

/-- A check that passes is nothing. -/
theorem refuseIf_false_bind {β : Type} {e : E} {f : Unit → Script D E β} :
    (refuseIf false e >>= f) = f () := rfl

/-- A loop over one item is its turn. -/
theorem forEach_singleton {γ : Type*} {f : γ → Script D E α} {c : γ} :
    forEach f [c] = (f c).andThen fun a => ⟨[], .ok [a]⟩ := rfl

end Script

end LibreDarwin
