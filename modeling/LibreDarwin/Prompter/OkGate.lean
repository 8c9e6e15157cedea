import LibreDarwin.Prompter.Model.Library
import LibreDarwin.Prompter.Window

/-!
# What the OK gate lets out

The gate measures the bytes a field encodes to (`utf8Length`); the answer
is read out of the field as a C string (`readSecret`). An unfinished panel
always stands by the gate of its own fields (`Gated`), so an OK answer
comes from fields that passed it, and the two readings agree on them
exactly when no field that is read holds a NUL (`meets_iff`).
-/

namespace LibreDarwin

namespace Prompter

open Wire

/-! ## The NUL byte of a text -/

theorem zero_mem_utf8Scalar {c : ℕ} (h : c < 0x110000) : (0 : UInt8) ∈ utf8Scalar c ↔ c = 0 := by
  have hbyte : ∀ n : ℕ, (0 : UInt8) = n.toUInt8 ↔ n % 256 = 0 := by
    intro n
    rw [← UInt8.toNat_inj]
    simp [eq_comm]
  rw [utf8Scalar]
  split_ifs
  all_goals
    simp only [List.mem_cons, List.not_mem_nil, or_false, hbyte]
    omega

/-- **A text's bytes hold a NUL exactly when its units do.** -/
theorem zero_mem_utf8 {value : NSString} {b : Bytes} (h : utf8 value = some b) :
    (0 : UInt8) ∈ b ↔ (0 : UInt16) ∈ value := by
  have hunit : ∀ u : UInt16, u.toNat = 0 ↔ (0 : UInt16) = u := by
    intro u
    rw [← UInt16.toNat_inj, eq_comm]
    rfl
  induction value using utf8.induct generalizing b with
  | case1 =>
    obtain rfl := Option.some.inj h
    simp
  | case2 u hsurr =>
    rw [utf8, if_pos hsurr] at h
    cases h
  | case3 u hsurr =>
    rw [utf8, if_neg hsurr] at h
    obtain rfl := Option.some.inj h
    rw [zero_mem_utf8Scalar (by have := u.toNat_lt; omega), hunit, List.mem_singleton]
  | case4 u l rest hhigh hlow ih =>
    rw [utf8, if_pos hhigh, if_pos hlow, Option.map_eq_some_iff] at h
    obtain ⟨tail, htail, rfl⟩ := h
    simp only [isHighSurrogate, isLowSurrogate, decide_eq_true_eq, UInt16.le_iff_toNat_le,
      UInt16.lt_iff_toNat_lt, UInt16.reduceToNat] at hhigh hlow
    have hrest : (0 : UInt8) ∈ tail ↔ (0 : UInt16) ∈ rest := ih htail
    have hu : ¬u.toNat = 0 := by omega
    have hl : ¬l.toNat = 0 := by omega
    have hscalar : 0x10000 + (u.toNat - 0xD800) * 0x400 + (l.toNat - 0xDC00) < 0x110000 := by
      omega
    rw [List.mem_append, zero_mem_utf8Scalar hscalar, hrest, List.mem_cons, List.mem_cons,
      ← hunit, ← hunit]
    simp [hu, hl]
  | case5 u l rest hhigh hlow =>
    rw [utf8, if_pos hhigh, if_neg hlow] at h
    cases h
  | case6 u l rest hhigh hlow =>
    rw [utf8, if_neg hhigh, if_pos hlow] at h
    cases h
  | case7 u l rest hhigh hlow ih =>
    rw [utf8, if_neg hhigh, if_neg hlow, Option.map_eq_some_iff] at h
    obtain ⟨tail, htail, rfl⟩ := h
    have hrest : (0 : UInt8) ∈ tail ↔ (0 : UInt16) ∈ l :: rest := ih htail
    have hlt : u.toNat < 0x110000 := by
      have := u.toNat_lt
      omega
    rw [List.mem_append, zero_mem_utf8Scalar hlt, hunit, hrest, List.mem_cons (b := u)]

/-- The C string of a text is all of it exactly when it holds no NUL. -/
theorem readSecret_eq_iff {value : NSString} {b : Bytes} (h : utf8 value = some b) :
    readSecret value = b ↔ (0 : UInt16) ∉ value := by
  rw [← zero_mem_utf8 h, readSecret, h, Option.getD_some, List.takeWhile_eq_self_iff]
  constructor
  · intro hall hzero
    simpa using hall 0 hzero
  · intro hzero x hx
    simpa using fun heq : x = 0 => hzero (heq ▸ hx)

theorem utf8_of_utf8Length {value : NSString} (h : 0 < utf8Length value) :
    ∃ b, utf8 value = some b ∧ b ≠ [] ∧ utf8Length value = b.length := by
  cases hutf : utf8 value with
  | none => simp [utf8Length, hutf] at h
  | some b =>
    refine ⟨b, rfl, ?_, by simp [utf8Length, hutf]⟩
    rintro rfl
    simp [utf8Length, hutf] at h

/-! ## What a panel was raised for -/

inductive Raising
  | prompt (req : PromptRequest)
  | change (req : RequestSecrets)

def Raising.panel : Raising → Panel
  | .prompt req => promptPanel req
  | .change req => changePanel req

/-- The panel an input raises. -/
def WindowInput.raises (L : AgentLibrary) : WindowInput → Option Raising
  | .showPrompt req => some (.prompt req)
  | .showChangePrompt req => if req.kind ≠ L.kKindChangePin then none else some (.change req)
  | _ => none

/-- The panels a run has raised, the first first. -/
def raisings (L : AgentLibrary) (is : List WindowInput) : List Raising :=
  is.filterMap fun i => i.raises L

/-- A length within a role's bounds: 0 is unset, and an unset minimum
counts as 1. -/
def WithinRole (minLength maxLength : UInt32) (len : ℕ) : Prop :=
  1 ≤ len ∧ minLength.toNat ≤ len ∧ (maxLength = 0 ∨ len ≤ maxLength.toNat)

/-- **What an OK answer owes** the fields it was read from. -/
def Raising.Meets (panel : Panel) (a : PanelAnswer) : Raising → Prop
  | .prompt _ => utf8 panel.primaryField = some a.primary ∧ a.primary ≠ []
  | .change req =>
    (utf8 panel.primaryField = some a.primary ∧ a.primary ≠ [] ∧
      WithinRole req.primaryMinLength req.primaryMaxLength a.primary.length) ∧
    (utf8 panel.newField = some a.secondary ∧ a.secondary ≠ [] ∧
      WithinRole req.newMinLength req.newMaxLength a.secondary.length) ∧
    panel.confirmField = panel.newField

/-- No NUL in a field that is read. -/
def Raising.NulFree (panel : Panel) : Raising → Prop
  | .prompt _ => (0 : UInt16) ∉ panel.primaryField
  | .change _ => (0 : UInt16) ∉ panel.primaryField ∧ (0 : UInt16) ∉ panel.newField

variable {L : AgentLibrary} {w s : Window} {id : PanelId} {panel : Panel} {r : Raising}
variable {is : List WindowInput} {a : PanelAnswer} {status : PromptReplyStatus}

/-! ## The gate of a panel that is up -/

/-- **An unfinished panel** has its flow and bounds from what it was raised
for, and its button stands by its own fields. -/
structure Panel.Gated (panel : Panel) (r : Raising) : Prop where
  changeFlow : panel.changeFlow = r.panel.changeFlow
  state : panel.state = r.panel.state
  gate : panel.okEnabled = panel.refreshOkGate.okEnabled

theorem Raising.gated (r : Raising) : r.panel.Gated r := by
  cases r with
  | prompt req => exact ⟨rfl, rfl, rfl⟩
  | change req => exact ⟨rfl, rfl, rfl⟩

theorem Panel.Gated.edit {field : Field} {value : NSString} (h : panel.Gated r) :
    (panel.edit field value).Gated r := by
  cases field with
  | primary => exact ⟨h.changeFlow, h.state, rfl⟩
  | new =>
    rw [Panel.edit]
    split
    · exact ⟨h.changeFlow, h.state, rfl⟩
    · exact h
  | confirm =>
    rw [Panel.edit]
    split
    · exact ⟨h.changeFlow, h.state, rfl⟩
    · exact h

/-- A length the gate passes is that of a whole text, within the bounds of
its role. -/
theorem withinRole_of_withinBounds {value : NSString} {minLength maxLength : UInt32}
    (h : withinBounds (utf8Length value) (max minLength 1) maxLength = true) :
    ∃ b, utf8 value = some b ∧ b ≠ [] ∧ WithinRole minLength maxLength b.length := by
  simp only [withinBounds, decide_eq_true_eq] at h
  obtain ⟨hmin, hmax⟩ := h
  -- the gate is handed the larger of the minimum and 1, which is at least both
  have hleast : 1 ≤ (max minLength 1).toNat ∧ minLength.toNat ≤ (max minLength 1).toNat := by
    rw [show max minLength 1 = if minLength ≤ 1 then 1 else minLength from rfl]
    split
    · rename_i hle
      exact ⟨le_rfl, UInt32.le_iff_toNat_le.1 hle⟩
    · rename_i hlt
      rw [UInt32.le_iff_toNat_le] at hlt
      exact ⟨(not_le.1 hlt).le, le_rfl⟩
  have hpos : 0 < utf8Length value := by omega
  obtain ⟨b, hb, hne, hlen⟩ := utf8_of_utf8Length hpos
  rw [hlen] at hmin hmax
  exact ⟨b, hb, hne, by omega, by omega, hmax⟩

theorem readSecret_meets_iff {value : NSString} {b : Bytes} {P : Bytes → Prop}
    (hb : utf8 value = some b) (hP : P b) :
    utf8 value = some (readSecret value) ∧ P (readSecret value) ↔ (0 : UInt16) ∉ value := by
  rw [← readSecret_eq_iff hb]
  constructor
  · rintro ⟨hutf, -⟩
    exact Option.some.inj (hutf.symm.trans hb)
  · intro heq
    rw [heq]
    exact ⟨hb, hP⟩

/-- **An OK answer owes nothing exactly when no field that is read holds a
NUL.** -/
theorem Panel.Gated.meets_iff (h : panel.Gated r) (hok : panel.okEnabled = true) :
    r.Meets panel (panel.finishWithStatus .ok).answer ↔ r.NulFree panel := by
  have hgate := h.gate
  rw [hok, refreshOkGate] at hgate
  cases r with
  | prompt req =>
    have hflow : panel.changeFlow = false := h.changeFlow
    simp only [hflow, Bool.false_eq_true, not_false_eq_true, if_true] at hgate
    -- one field, of which the gate asks only that it has a length
    obtain ⟨b, hb, hne, -⟩ := utf8_of_utf8Length (of_decide_eq_true hgate.symm)
    exact readSecret_meets_iff (P := fun b => b ≠ []) hb hne
  | change req =>
    have hflow : panel.changeFlow = true := h.changeFlow
    have hstate : panel.state = (changePanel req).state := h.state
    simp only [hflow, not_true, if_false, hstate, changeInputsAcceptable] at hgate
    -- three inputs at once; the one that repeats is compared and never read
    obtain ⟨hprimary, hnew, hconfirm⟩ := by
      simpa only [eq_comm (a := true), Bool.and_eq_true, decide_eq_true_eq] using hgate
    obtain ⟨b, hb, hpost⟩ := withinRole_of_withinBounds hprimary
    obtain ⟨c, hc, hpost'⟩ := withinRole_of_withinBounds hnew
    have hfirst := readSecret_meets_iff
      (P := fun b => b ≠ [] ∧ WithinRole req.primaryMinLength req.primaryMaxLength b.length) hb hpost
    have hsecond := readSecret_meets_iff
      (P := fun b => b ≠ [] ∧ WithinRole req.newMinLength req.newMaxLength b.length) hc hpost'
    simp only [Raising.Meets, Raising.NulFree, Panel.answer, finishWithStatus, if_true, hflow,
      and_self, hconfirm, and_true]
    exact and_congr hfirst hsecond

/-! ## The window -/

namespace Window

variable {rs : List Raising} {i : WindowInput}

/-- **Every panel that is up stands by its gate.** -/
structure Gated (w : Window) (rs : List Raising) : Prop where
  length : w.panels.length = rs.length
  gated : ∀ (id : PanelId) (panel : Panel), w.panels[id]? = some panel → panel.finished = false →
    ∃ r, rs[id]? = some r ∧ panel.Gated r

theorem Gated.finish (h : w.Gated rs) : (w.finish id status).Gated rs := by
  rw [Window.finish]
  cases hpanel : w.panels[id]? with
  | none => exact h
  | some panel =>
    dsimp only
    split
    · exact h
    refine ⟨by simpa using h.length, fun i p hp hopen => ?_⟩
    rw [List.getElem?_set] at hp
    split at hp
    · split at hp
      · -- the panel just answered is not open
        obtain rfl := Option.some.inj hp
        cases hopen
      · cases hp
    · exact h.gated i p hp hopen

theorem Gated.foldl_finish (h : w.Gated rs) (ids : List PanelId) :
    (ids.foldl (fun w id => w.finish id status) w).Gated rs := by
  induction ids generalizing w with
  | nil => exact h
  | cons id ids ih => exact ih h.finish

theorem Gated.raise {key : String} (h : w.Gated rs) : (w.raise key r.panel).Gated (rs ++ [r]) := by
  refine ⟨by simpa [Window.raise] using h.length, fun id panel hpanel hopen => ?_⟩
  rw [Window.raise, List.getElem?_append] at hpanel
  split at hpanel
  · -- a panel that was there keeps its index, and so what it was raised for
    rename_i hlt
    obtain ⟨r', hr', hgated⟩ := h.gated id panel hpanel hopen
    refine ⟨r', ?_, hgated⟩
    rw [List.getElem?_append_left (h.length ▸ hlt)]
    exact hr'
  · -- the new one is the last of both lists
    rename_i hge
    have hlast : id - w.panels.length = 0 :=
      Nat.lt_one_iff.1 (List.getElem?_eq_some_iff.1 hpanel).1
    rw [hlast] at hpanel
    obtain rfl := Option.some.inj hpanel
    refine ⟨r, ?_, r.gated⟩
    rw [List.getElem?_append_right (h.length ▸ not_lt.1 hge), ← h.length, hlast]
    rfl

theorem Gated.edit {field : Field} {value : NSString} (h : w.Gated rs) :
    (w.edit id field value).Gated rs := by
  rw [Window.edit]
  cases hpanel : w.panels[id]? with
  | none => exact h
  | some panel =>
    dsimp only
    split
    · exact h
    refine ⟨by simpa using h.length, fun i p hp hopen => ?_⟩
    rw [List.getElem?_set] at hp
    split at hp
    · split at hp
      · rename_i heq hlt
        obtain rfl := Option.some.inj hp
        rw [(panel.edit_keeps field value).1] at hopen
        obtain ⟨r, hr, hgated⟩ := h.gated id panel hpanel hopen
        exact ⟨r, heq ▸ hr, hgated.edit⟩
      · cases hp
    · exact h.gated i p hp hopen

/-- **The step lemma.** -/
theorem Gated.step (h : w.Gated rs) (i : WindowInput) :
    (w.step L i).Gated (rs ++ (i.raises L).toList) := by
  have hsame : ∀ {w' : Window}, w'.Gated rs → w'.Gated (rs ++ []) := by
    intro w' h'
    rwa [List.append_nil]
  cases i with
  | showPrompt req => exact h.raise (r := .prompt req)
  | showChangePrompt req =>
    rw [Window.step, showChangePrompt, WindowInput.raises]
    split
    · exact hsame h
    · exact h.raise (r := .change req)
  | edit id field value => exact hsame h.edit
  | okPressed id =>
    refine hsame ?_
    rw [Window.step, okPressed]
    cases w.panels[id]? with
    | none => exact h
    | some panel =>
      dsimp only
      split
      · exact h.finish
      · exact h
  | cancelPressed id => exact hsame h.finish
  | windowShouldClose id => exact hsame h.finish
  | deadlineFired id =>
    refine hsame ?_
    rw [Window.step, deadlineFired]
    cases w.panels[id]? with
    | none => exact h
    | some panel =>
      dsimp only
      split
      · exact h.finish
      · exact h
  | dismiss promptId => exact hsame (h.foldl_finish _)
  | dismissAll => exact hsame (h.foldl_finish _)
  | liveIds => exact hsame h

/-! ## Where an OK answer comes from -/

theorem mem_finish_answers {id' : PanelId} (h : (id', a) ∈ (w.finish id status).answers) :
    (id', a) ∈ w.answers ∨ id' = id ∧ ∃ panel, w.panels[id]? = some panel ∧
      panel.finished = false ∧ a = (panel.finishWithStatus status).answer := by
  rw [finish] at h
  cases hpanel : w.panels[id]? with
  | none =>
    rw [hpanel] at h
    exact .inl h
  | some panel =>
    rw [hpanel] at h
    dsimp only at h
    split at h
    · exact .inl h
    · rename_i hfin
      rcases List.mem_append.1 h with h | h
      · exact .inl h
      · cases List.mem_singleton.1 h
        exact .inr ⟨rfl, panel, rfl, by simpa using hfin, rfl⟩

/-- Answering with another status answers nothing OK. -/
theorem mem_finish_answers_ok (h : (id, a) ∈ (w.finish id' status).answers)
    (hok : a.status = .ok) (hne : status ≠ .ok) : (id, a) ∈ w.answers := by
  rcases mem_finish_answers h with h | ⟨-, panel, -, -, rfl⟩
  · exact h
  · exact absurd hok hne

theorem mem_foldl_answers_ok {ids : List PanelId}
    (h : (id, a) ∈ (ids.foldl (fun w id => w.finish id .cancelled) w).answers)
    (hok : a.status = .ok) : (id, a) ∈ w.answers := by
  induction ids generalizing w with
  | nil => exact h
  | cons id' ids ih => exact mem_finish_answers_ok (ih h) hok (by decide)

/-- **Only a press on an enabled button gives an OK answer.** -/
theorem mem_step_answers_ok (h : (id, a) ∈ (w.step L i).answers) (hok : a.status = .ok) :
    (id, a) ∈ w.answers ∨ i = .okPressed id ∧ ∃ panel, w.panels[id]? = some panel ∧
      panel.finished = false ∧ panel.okEnabled = true ∧
      a = (panel.finishWithStatus .ok).answer := by
  cases i with
  | okPressed id' =>
    rw [Window.step, okPressed] at h
    cases hpanel : w.panels[id']? with
    | none =>
      rw [hpanel] at h
      exact .inl h
    | some panel =>
      rw [hpanel] at h
      dsimp only at h
      split at h
      · rename_i henabled
        rcases mem_finish_answers h with h | ⟨rfl, p, hp, hopen, hans⟩
        · exact .inl h
        · obtain rfl := Option.some.inj (hpanel.symm.trans hp)
          exact .inr ⟨rfl, panel, hpanel, hopen, henabled, hans⟩
      · exact .inl h
  | cancelPressed id' => exact .inl (mem_finish_answers_ok h hok (by decide))
  | windowShouldClose id' => exact .inl (mem_finish_answers_ok h hok (by decide))
  | deadlineFired id' =>
    rw [Window.step, deadlineFired] at h
    cases hpanel : w.panels[id']? with
    | none =>
      rw [hpanel] at h
      exact .inl h
    | some panel =>
      rw [hpanel] at h
      dsimp only at h
      split at h
      · exact .inl (mem_finish_answers_ok h hok (by decide))
      · exact .inl h
  | dismiss promptId => exact .inl (mem_foldl_answers_ok h hok)
  | dismissAll => exact .inl (mem_foldl_answers_ok h hok)
  | liveIds => exact .inl h
  | showPrompt req => exact .inl ((step_fills (.showPrompt req) trivial).1 ▸ h)
  | showChangePrompt req => exact .inl ((step_fills (.showChangePrompt req) trivial).1 ▸ h)
  | edit id' field value => exact .inl ((step_fills (.edit id' field value) trivial).1 ▸ h)

end Window

/-- **A press of a run** on the OK button of a panel that is up, and the
answer it gives: the window it came to, the panel as it stood there, and
what that was raised for. -/
def Pressed (L : AgentLibrary) (is : List WindowInput) (id : PanelId) (a : PanelAnswer)
    (s : Window) (panel : Panel) (r : Raising) : Prop :=
  ∃ pre post, is = pre ++ .okPressed id :: post ∧ (window L).run {} pre = some s ∧
    s.panels[id]? = some panel ∧ panel.finished = false ∧ (raisings L pre)[id]? = some r ∧
    (s.step L (.okPressed id)).answers = s.answers ++ [(id, a)]

theorem Pressed.snoc (h : Pressed L is id a s panel r) (i : WindowInput) :
    Pressed L (is ++ [i]) id a s panel r := by
  obtain ⟨pre, post, rfl, hrest⟩ := h
  exact ⟨pre, post ++ [i], by simp, hrest⟩

/-- **Every OK answer of every run** is given by a press. It is what the
panel's fields hold at that moment in full, not empty and within the bounds
of the prompt, exactly when no field that is read holds a NUL. -/
theorem ok_answers (h : (window L).run {} is = some w) (ha : (id, a) ∈ w.answers)
    (hok : a.status = .ok) :
    ∃ s panel r, Pressed L is id a s panel r ∧ (r.Meets panel a ↔ r.NulFree panel) := by
  suffices hinv : w.Gated (raisings L is) ∧ (window L).run {} is = some w ∧
      ∀ id a, (id, a) ∈ w.answers → a.status = .ok →
        ∃ s panel r, Pressed L is id a s panel r ∧ (r.Meets panel a ↔ r.NulFree panel) from
    hinv.2.2 id a ha hok
  refine Machine.run_history (I := fun w is => w.Gated (raisings L is) ∧
    (window L).run {} is = some w ∧ ∀ id a, (id, a) ∈ w.answers → a.status = .ok →
      ∃ s panel r, Pressed L is id a s panel r ∧ (r.Meets panel a ↔ r.NulFree panel)) ?_ ?_ h
  · exact ⟨⟨rfl, by simp⟩, rfl, by simp⟩
  · rintro s is i s' ⟨hgated, hrun, hans⟩ hstep
    have hrun' := Machine.run_snoc_eq_some.2 ⟨s, hrun, hstep⟩
    obtain rfl := Option.some.inj hstep
    refine ⟨?_, hrun', fun id a hmem hok => ?_⟩
    · rw [raisings, List.filterMap_append]
      exact hgated.step i
    rcases Window.mem_step_answers_ok hmem hok with hmem | ⟨rfl, panel, hpanel, hopen, hon, rfl⟩
    · -- an answer that was given before the last input
      obtain ⟨t, panel, r, hpressed, hmeets⟩ := hans id a hmem hok
      exact ⟨t, panel, r, hpressed.snoc i, hmeets⟩
    · -- or one that the last input gives: the press is it
      obtain ⟨r, hr, hpg⟩ := hgated.gated id panel hpanel hopen
      have hgives : (s.step L (.okPressed id)).answers =
          s.answers ++ [(id, (panel.finishWithStatus .ok).answer)] := by
        simp [Window.step, Window.okPressed, Window.finish, hpanel, hon, hopen]
      exact ⟨s, panel, r, ⟨is, [], rfl, hrun, hpanel, hopen, hr, hgives⟩, hpg.meets_iff hon⟩

/-- A PIN typed and sent. -/
theorem ok_answers_typed : ∃ s panel r,
    Pressed plainLibrary [.showPrompt {}, .edit 0 .primary [0x31, 0x32], .okPressed 0] 0
        ⟨.ok, [0x31, 0x32], []⟩ s panel r ∧
      (r.Meets panel ⟨.ok, [0x31, 0x32], []⟩ ↔ r.NulFree panel) :=
  ok_answers (w := ((Window.showPrompt {} {}).edit 0 .primary [0x31, 0x32]).okPressed 0)
    rfl (by decide +kernel) rfl

/-- A NUL before the rest of the text: the gate counts two bytes, and the
answer is OK with none. -/
theorem ok_answers_nul : ∃ s panel w,
    (window plainLibrary).run {} [.showPrompt {}, .edit 0 .primary [0x00, 0x61]] = some s ∧
      s.panels[0]? = some panel ∧ panel.primaryField = [0x00, 0x61] ∧
      (window plainLibrary).step s (.okPressed 0) = some w ∧ (0, ⟨.ok, [], []⟩) ∈ w.answers ∧
      ¬(Raising.prompt {}).Meets panel ⟨.ok, [], []⟩ :=
  ⟨_, _, _, rfl, rfl, rfl, rfl, by decide +kernel, fun h => h.2 rfl⟩

end Prompter

end LibreDarwin
