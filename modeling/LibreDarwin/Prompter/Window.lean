import LibreDarwin.Prompter.Model.Window
import LibreDarwin.Prompter.Model.Library

/-!
# Every panel is answered once

The registry is the raised panels without an answer, whatever reaches the
window (`Kept`). Answering one panel is the only step that matters
(`finish_answers`); a sweep is a sequence of them over targets taken down
beforehand, which are distinct and all standing, so each of them answers
exactly one (`foldl_answers`).
-/

namespace LibreDarwin

namespace Prompter

open Wire

/-- What a panel is answered with. -/
def WindowInput.status : WindowInput → PromptReplyStatus
  | .okPressed _ => .ok
  | .deadlineFired _ => .timeout
  | _ => .cancelled

/-- The inputs that raise a panel or type into one. -/
def WindowInput.Fills : WindowInput → Prop
  | .showPrompt _ | .showChangePrompt _ | .edit _ _ _ => True
  | _ => False

variable {L : AgentLibrary} {w w' w'' : Window} {id : PanelId} {key : String}
variable {status : PromptReplyStatus} {ids : List PanelId}

/-- Typing changes the fields and the gate. -/
theorem Panel.edit_keeps (panel : Panel) (field : Field) (value : NSString) :
    (panel.edit field value).finished = panel.finished ∧
      (panel.edit field value).state = panel.state := by
  cases field with
  | primary => exact ⟨rfl, rfl⟩
  | new =>
    rw [Panel.edit]
    split
    · exact ⟨rfl, rfl⟩
    · exact ⟨rfl, rfl⟩
  | confirm =>
    rw [Panel.edit]
    split
    · exact ⟨rfl, rfl⟩
    · exact ⟨rfl, rfl⟩

namespace Window

/-- The panels answered so far. -/
def answered (w : Window) : List PanelId := w.answers.map Prod.fst

/-- **What every window keeps.** -/
structure Kept (w : Window) : Prop where
  aged : Aged w.entries
  keys : w.raised.length = w.panels.length
  entry : ∀ key id, (key, id) ∈ w.entries ↔ w.raised[id]? = some key ∧ id ∉ w.answered
  once : w.answered.Nodup
  finished : ∀ (id : PanelId) (panel : Panel), w.panels[id]? = some panel → (panel.finished ↔ id ∈ w.answered)
  bound : ∀ id ∈ w.answered, id < w.panels.length
  blank : ∀ (id : PanelId) (panel : Panel), w.panels[id]? = some panel → panel.finished = false →
    panel.state.primary = [] ∧ panel.state.secondary = []
  secrets : ∀ e ∈ w.answers, e.2.status ≠ .ok → e.2.primary = [] ∧ e.2.secondary = []

/-- **One window answers some panels of another**, and does nothing else. -/
structure Answers (w w' : Window) (ids : List PanelId) (status : PromptReplyStatus) : Prop where
  nodup : ids.Nodup
  standing : ∀ id ∈ ids, ∃ key, (key, id) ∈ w.entries
  answers : ∃ new : List (PanelId × PanelAnswer), w'.answers = w.answers ++ new ∧
    new.map Prod.fst = ids ∧ ∀ e ∈ new, e.2.status = status
  entries : w'.entries = w.entries.filter fun e => e.2 ∉ ids
  raised : w'.raised = w.raised
  others : ∀ id ∉ ids, w'.panels[id]? = w.panels[id]?

theorem Answers.refl : Answers w w [] status :=
  ⟨List.nodup_nil, by simp, ⟨[], by simp, rfl, by simp⟩, by simp, rfl, fun _ _ => rfl⟩

theorem Answers.trans {ids' : List PanelId} (h : Answers w w' ids status)
    (h' : Answers w' w'' ids' status) : Answers w w'' (ids ++ ids') status := by
  obtain ⟨new, hnew, hids, hstatus⟩ := h.answers
  obtain ⟨new', hnew', hids', hstatus'⟩ := h'.answers
  -- what the second answers was still standing after the first
  have hlate : ∀ id ∈ ids', id ∉ ids ∧ ∃ key, (key, id) ∈ w.entries := by
    intro id hid
    obtain ⟨key, hkey⟩ := h'.standing id hid
    rw [h.entries, List.mem_filter] at hkey
    exact ⟨by simpa using hkey.2, key, hkey.1⟩
  refine ⟨?_, ?_, ⟨new ++ new', ?_, ?_, ?_⟩, ?_, h'.raised.trans h.raised, ?_⟩
  · exact List.nodup_append.2 ⟨h.nodup, h'.nodup, fun a ha b hb hab => (hlate b hb).1 (hab ▸ ha)⟩
  · intro id hid
    rcases List.mem_append.1 hid with hid | hid
    · exact h.standing id hid
    · exact (hlate id hid).2
  · rw [hnew', hnew, List.append_assoc]
  · rw [List.map_append, hids, hids']
  · intro e he
    rcases List.mem_append.1 he with he | he
    · exact hstatus e he
    · exact hstatus' e he
  · rw [h'.entries, h.entries, List.filter_filter]
    refine List.filter_congr fun e _ => ?_
    simp [Bool.and_comm]
  · intro id hid
    rw [List.mem_append, not_or] at hid
    rw [h'.others id hid.2, h.others id hid.1]

/-! ## Answering one panel -/

theorem Kept.standing_iff (hk : Kept w) :
    (∃ key, (key, id) ∈ w.entries) ↔ ∃ panel, w.panels[id]? = some panel ∧ ¬panel.finished := by
  constructor
  · rintro ⟨key, he⟩
    obtain ⟨hraised, hopen⟩ := (hk.entry key id).1 he
    have hlt : id < w.panels.length := hk.keys ▸ (List.getElem?_eq_some_iff.1 hraised).1
    refine ⟨w.panels[id], List.getElem?_eq_getElem hlt, fun hfin => hopen ?_⟩
    exact (hk.finished id _ (List.getElem?_eq_getElem hlt)).1 hfin
  · rintro ⟨panel, hpanel, hfin⟩
    have hlt : id < w.raised.length := hk.keys ▸ (List.getElem?_eq_some_iff.1 hpanel).1
    refine ⟨w.raised[id], (hk.entry _ id).2 ⟨List.getElem?_eq_getElem hlt, fun hans => hfin ?_⟩⟩
    exact (hk.finished id panel hpanel).2 hans

/-- A panel that has answered, or was never raised, is left alone. -/
theorem Kept.finish_eq_self (hk : Kept w) (h : ¬∃ key, (key, id) ∈ w.entries) :
    w.finish id status = w := by
  rw [hk.standing_iff] at h
  rw [finish]
  cases hpanel : w.panels[id]? with
  | none => rfl
  | some panel =>
    have hfin : panel.finished = true := by
      by_contra hfin
      exact h ⟨panel, hpanel, hfin⟩
    exact if_pos hfin

theorem finish_eq {panel : Panel} (hpanel : w.panels[id]? = some panel)
    (hfin : panel.finished = false) :
    w.finish id status =
      { w with
        panels := w.panels.set id (panel.finishWithStatus status)
        entries := w.entries.eraseP fun e => e.2 = id
        answers := w.answers ++ [(id, (panel.finishWithStatus status).answer)] } := by
  rw [finish, hpanel]
  simp [hfin]

/-- A panel has one entry. -/
theorem Kept.nodup_ids (hk : Kept w) : (w.entries.map Prod.snd).Nodup := by
  refine List.Nodup.map_on ?_ hk.aged.nodup
  rintro ⟨k, i⟩ hki ⟨k', i'⟩ hki' rfl
  have hraised := ((hk.entry k i).1 hki).1
  rw [((hk.entry k' i).1 hki').1] at hraised
  rw [Option.some.inj hraised]

theorem Kept.finish_answers (hk : Kept w) (h : ∃ key, (key, id) ∈ w.entries) :
    Answers w (w.finish id status) [id] status := by
  obtain ⟨panel, hpanel, hfin⟩ := hk.standing_iff.1 h
  rw [finish_eq hpanel (by simpa using hfin)]
  refine ⟨List.nodup_singleton id, ?_, ⟨_, rfl, rfl, ?_⟩, ?_, rfl, ?_⟩
  · intro i hi
    obtain rfl := List.mem_singleton.1 hi
    exact h
  · intro e he
    obtain rfl := List.mem_singleton.1 he
    rfl
  · rw [eraseP_eq_filter hk.nodup_ids]
    exact List.filter_congr fun e _ => by simp
  · intro i hi
    exact List.getElem?_set_ne (Ne.symm (List.ne_of_not_mem_cons hi))

/-- **Answering keeps the window.** -/
theorem Kept.finish (hk : Kept w) : Kept (w.finish id status) := by
  by_cases h : ∃ key, (key, id) ∈ w.entries
  swap
  · rw [hk.finish_eq_self h]
    exact hk
  obtain ⟨panel, hpanel, hfin⟩ := hk.standing_iff.1 h
  obtain ⟨key, hkey⟩ := h
  have hopen : id ∉ w.answered := ((hk.entry key id).1 hkey).2
  have hlt : id < w.panels.length := (List.getElem?_eq_some_iff.1 hpanel).1
  have hfin : panel.finished = false := by simpa using hfin
  rw [finish_eq hpanel hfin]
  refine ⟨?_, ?_, ?_, ?_, ?_, ?_, ?_, ?_⟩
  · exact hk.aged.sublist List.eraseP_sublist
  · simpa using hk.keys
  · intro k i
    rw [eraseP_eq_filter hk.nodup_ids, List.mem_filter, hk.entry]
    simp only [answered, List.map_append, List.mem_append, List.map_cons, List.map_nil,
      List.mem_singleton, ne_eq, decide_not, Bool.not_eq_eq_eq_not, Bool.not_true,
      decide_eq_false_iff_not, not_or, and_assoc]
  · simp only [answered, List.map_append, List.map_cons, List.map_nil]
    exact List.nodup_append.2 ⟨hk.once, List.nodup_singleton id, fun a ha b hb hab =>
      hopen (List.mem_singleton.1 hb ▸ hab ▸ ha)⟩
  · intro i p hp
    simp only [answered, List.map_append, List.mem_append, List.map_cons, List.map_nil,
      List.mem_singleton]
    rw [List.getElem?_set] at hp
    split at hp
    · rename_i heq
      obtain rfl := Option.some.inj hp
      exact iff_of_true rfl (.inr heq.symm)
    · rename_i hne
      rw [hk.finished i p hp]
      exact ⟨.inl, fun h => h.resolve_right fun heq => hne heq.symm⟩
  · intro i hi
    simp only [answered, List.map_append, List.mem_append, List.map_cons, List.map_nil,
      List.mem_singleton] at hi
    rw [List.length_set]
    rcases hi with hi | rfl
    · exact hk.bound i hi
    · exact hlt
  · intro i p hp hblank
    rw [List.getElem?_set] at hp
    split at hp
    · obtain rfl := Option.some.inj hp
      cases hblank
    · exact hk.blank i p hp hblank
  · intro e he hne
    rcases List.mem_append.1 he with he | he
    · exact hk.secrets e he hne
    · obtain rfl := List.mem_singleton.1 he
      obtain ⟨hprimary, hsecondary⟩ := hk.blank id panel hpanel hfin
      have hstatus : status ≠ .ok := hne
      simp [Panel.answer, Panel.finishWithStatus, hstatus, hprimary, hsecondary]

/-! ## A sweep -/

/-- **Standing targets, one after another.** -/
theorem foldl_answers (hk : Kept w) (hnodup : ids.Nodup)
    (hstanding : ∀ id ∈ ids, ∃ key, (key, id) ∈ w.entries) :
    Answers w (ids.foldl (fun w id => w.finish id status) w) ids status ∧
      Kept (ids.foldl (fun w id => w.finish id status) w) := by
  induction ids generalizing w with
  | nil => exact ⟨.refl, hk⟩
  | cons id ids ih =>
    rw [List.nodup_cons] at hnodup
    have hfirst : Answers w (w.finish id status) [id] status :=
      hk.finish_answers (hstanding id List.mem_cons_self)
    -- the others are other panels, so they are standing still
    have hrest : ∀ i ∈ ids, ∃ key, (key, i) ∈ (w.finish id status).entries := by
      intro i hi
      obtain ⟨key, hkey⟩ := hstanding i (List.mem_cons_of_mem _ hi)
      refine ⟨key, ?_⟩
      rw [hfirst.entries, List.mem_filter]
      refine ⟨hkey, decide_eq_true fun hmem => hnodup.1 ?_⟩
      rw [← List.mem_singleton.1 hmem]
      exact hi
    obtain ⟨hanswers, hkept⟩ := ih hk.finish hnodup.2 hrest
    exact ⟨hfirst.trans hanswers, hkept⟩

/-- The targets of a sweep are distinct entries of the registry. -/
theorem Kept.targets_spec (hk : Kept w) (sweep : Sweep) (wanted : String) :
    (w.targets sweep wanted).Nodup ∧
      ∀ id ∈ w.targets sweep wanted, ∃ key, (key, id) ∈ w.entries := by
  have hmap : ∀ entries : PanelRegistry, entries.Sublist w.entries →
      (entries.map Prod.snd).Nodup ∧ ∀ id ∈ entries.map Prod.snd, ∃ key, (key, id) ∈ w.entries := by
    intro entries hsub
    refine ⟨(hsub.map Prod.snd).nodup hk.nodup_ids, fun id hid => ?_⟩
    obtain ⟨⟨key, _⟩, he, rfl⟩ := List.mem_map.1 hid
    exact ⟨key, hsub.subset he⟩
  cases sweep with
  | everything => exact hmap _ (List.Sublist.refl _)
  | addressed => exact hmap _ List.filter_sublist
  | unaddressed =>
    rw [targets]
    cases hfind : w.entries.find? fun e => e.1 = "" with
    | none => simp
    | some e =>
      have he : e ∈ w.entries := List.mem_of_find?_eq_some hfind
      simpa using ⟨e.1, he⟩

theorem Kept.finishPanels (hk : Kept w) (sweep : Sweep) (wanted : String) :
    Answers w (w.finishPanels sweep wanted).1 (w.targets sweep wanted) .cancelled ∧
      Kept (w.finishPanels sweep wanted).1 :=
  foldl_answers hk (hk.targets_spec sweep wanted).1 (hk.targets_spec sweep wanted).2

/-! ## Raising and typing -/

theorem getElem?_snoc_of_lt {α : Type} {l : List α} {a : α} {i : ℕ} (h : i < l.length) :
    (l ++ [a])[i]? = l[i]? := by
  rw [List.getElem?_append_left h]

theorem Kept.raise {panel : Panel} (hk : Kept w) (hfin : panel.finished = false)
    (hblank : panel.state.primary = [] ∧ panel.state.secondary = []) :
    Kept (w.raise key panel) := by
  have hbound : ∀ id key, (key, id) ∈ w.entries → id < w.panels.length := by
    intro id key he
    rw [← hk.keys]
    exact (List.getElem?_eq_some_iff.1 ((hk.entry key id).1 he).1).1
  have hfresh : w.panels.length ∉ w.answered := fun h => lt_irrefl _ (hk.bound _ h)
  refine ⟨?_, ?_, ?_, hk.once, ?_, ?_, ?_, hk.secrets⟩
  · exact hk.aged.emplace fun e he => hbound e.2 e.1 he
  · simpa [Window.raise] using hk.keys
  · intro k i
    simp only [Window.raise, mem_emplace, Prod.mk.injEq, hk.entry]
    rw [List.getElem?_append]
    split
    · rename_i hlt
      have hne : i ≠ w.panels.length := by
        rw [hk.keys] at hlt
        exact hlt.ne
      simp [hne, answered]
    · rename_i hge
      have hnone : w.raised[i]? = none := List.getElem?_eq_none (not_lt.1 hge)
      rw [hnone]
      have hkeys := hk.keys
      by_cases heq : i = w.panels.length
      · subst heq
        have hsub : w.panels.length - w.raised.length = 0 := by omega
        simp only [and_true, reduceCtorEq, false_and, or_false, hsub, List.getElem?_cons_zero,
          Option.some.injEq]
        exact ⟨fun h => ⟨h.symm, hfresh⟩, fun h => h.1.symm⟩
      · have hne : w.raised.length ≠ i := fun h => heq (h.symm.trans hkeys)
        have hsub : i - w.raised.length ≠ 0 :=
          Nat.sub_ne_zero_of_lt (lt_of_le_of_ne (not_lt.1 hge) hne)
        simp [heq, hsub]
  · intro i p hp
    rw [Window.raise, List.getElem?_append] at hp
    split at hp
    · exact hk.finished i p hp
    · rename_i hge
      have hans : i ∉ w.answered := fun h => hge (hk.bound i h)
      rw [List.getElem?_singleton] at hp
      split at hp
      · obtain rfl := Option.some.inj hp
        exact iff_of_false (by simp [hfin]) hans
      · cases hp
  · intro i hi
    rw [Window.raise, List.length_append]
    exact Nat.lt_add_right _ (hk.bound i hi)
  · intro i p hp hopen
    rw [Window.raise, List.getElem?_append] at hp
    split at hp
    · exact hk.blank i p hp hopen
    · rw [List.getElem?_singleton] at hp
      split at hp
      · obtain rfl := Option.some.inj hp
        exact hblank
      · cases hp

theorem Kept.edit {field : Field} {value : NSString} (hk : Kept w) :
    Kept (w.edit id field value) := by
  rw [Window.edit]
  cases hpanel : w.panels[id]? with
  | none => exact hk
  | some panel =>
    dsimp only
    split
    · exact hk
    have hlt : id < w.panels.length := (List.getElem?_eq_some_iff.1 hpanel).1
    obtain ⟨hfinished, hstate⟩ := panel.edit_keeps field value
    refine ⟨hk.aged, by simpa using hk.keys, hk.entry, hk.once, ?_, ?_, ?_, hk.secrets⟩
    · intro i p hp
      rw [List.getElem?_set] at hp
      split at hp
      · rename_i heq
        obtain rfl := Option.some.inj hp
        rw [hfinished]
        exact heq ▸ hk.finished id panel hpanel
      · exact hk.finished i p hp
    · intro i hi
      rw [List.length_set]
      exact hk.bound i hi
    · intro i p hp hopen
      rw [List.getElem?_set] at hp
      split at hp
      · obtain rfl := Option.some.inj hp
        rw [hstate]
        exact hk.blank id panel hpanel (hfinished ▸ hopen)
      · exact hk.blank i p hp hopen

theorem Kept.init : Kept {} where
  aged := Aged.nil
  keys := rfl
  entry := by simp
  once := List.nodup_nil
  finished := by simp
  bound := by simp [answered]
  blank := by simp
  secrets := by simp

/-- **The step lemma.** -/
theorem Kept.step (hk : Kept w) (i : WindowInput) : Kept (w.step L i) := by
  cases i with
  | showPrompt req => exact hk.raise rfl ⟨rfl, rfl⟩
  | showChangePrompt req =>
    rw [Window.step, showChangePrompt]
    split
    · exact hk
    · exact hk.raise rfl ⟨rfl, rfl⟩
  | edit id field value => exact hk.edit
  | okPressed id =>
    rw [Window.step, okPressed]
    cases w.panels[id]? with
    | none => exact hk
    | some panel =>
      dsimp only
      split
      · exact hk.finish
      · exact hk
  | cancelPressed id => exact hk.finish
  | windowShouldClose id => exact hk.finish
  | deadlineFired id =>
    rw [Window.step, deadlineFired]
    cases w.panels[id]? with
    | none => exact hk
    | some panel =>
      dsimp only
      split
      · exact hk.finish
      · exact hk
  | dismiss promptId => exact (hk.finishPanels _ _).2
  | dismissAll => exact (hk.finishPanels _ _).2
  | liveIds => exact hk

/-! ## What an input answers -/

/-- **The panels an input reaches**, among those standing. -/
def Covers (w : Window) : WindowInput → String × PanelId → Prop
  | .okPressed id, e => e.2 = id ∧ ∃ panel, w.panels[id]? = some panel ∧ panel.okEnabled
  | .cancelPressed id, e => e.2 = id
  | .windowShouldClose id, e => e.2 = id
  | .deadlineFired id, e =>
    e.2 = id ∧ ∃ panel, w.panels[id]? = some panel ∧ panel.deadlineArmed
  | .dismiss promptId, e =>
    if promptId = "" then e.1 = "" ∧ ∀ e' ∈ w.entries, e'.1 = "" → e.2 ≤ e'.2
    else e.1 = promptId ∨ e.1 = ""
  | .dismissAll, _ => True
  | .showPrompt _, _ | .showChangePrompt _, _ | .edit _ _ _, _ | .liveIds, _ => False

theorem Kept.answers_one (hk : Kept w) (id : PanelId) (status : PromptReplyStatus) (C : Prop)
    (h : C → w' = w.finish id status)
    (h' : ¬C → w' = w) :
    ∃ ids, Answers w w' ids status ∧
      ∀ i, i ∈ ids ↔ ∃ key, (key, i) ∈ w.entries ∧ i = id ∧ C := by
  by_cases hC : C ∧ ∃ key, (key, id) ∈ w.entries
  · obtain ⟨hC, hstanding⟩ := hC
    rw [h hC]
    refine ⟨[id], hk.finish_answers hstanding, fun i => ?_⟩
    rw [List.mem_singleton]
    constructor
    · rintro rfl
      obtain ⟨key, hkey⟩ := hstanding
      exact ⟨key, hkey, rfl, hC⟩
    · rintro ⟨key, -, heq, -⟩
      exact heq
  · have heq : w' = w := by
      by_cases hC' : C
      · rw [h hC', hk.finish_eq_self fun hstanding => hC ⟨hC', hstanding⟩]
      · exact h' hC'
    rw [heq]
    refine ⟨[], .refl, fun i => iff_of_false List.not_mem_nil ?_⟩
    rintro ⟨key, hkey, rfl, hC'⟩
    exact hC ⟨hC', key, hkey⟩

/-- The targets of a dismissal are the panels it covers. -/
theorem Kept.mem_targets (hk : Kept w) (promptId : String) :
    id ∈ w.targets (if promptId.isEmpty then .unaddressed else .addressed) promptId ↔
      ∃ key, (key, id) ∈ w.entries ∧ w.Covers (.dismiss promptId) (key, id) := by
  by_cases hid : promptId = ""
  · subst hid
    have hempty : ("".isEmpty) = true := rfl
    simp only [hempty, if_true, targets, Covers]
    cases hfind : w.entries.find? fun e => e.1 = "" with
    | none =>
      rw [List.find?_eq_none] at hfind
      refine iff_of_false (by simp) ?_
      rintro ⟨key, he, rfl, -⟩
      exact hfind _ he (by simp)
    | some e =>
      obtain ⟨hkey, he, hleast⟩ := hk.aged.find?_least hfind
      simp only [Option.map_some, Option.toList_some, List.mem_singleton]
      constructor
      · rintro rfl
        exact ⟨e.1, he, hkey, hleast⟩
      · rintro ⟨key, he', hkey', hleast'⟩
        exact le_antisymm (hleast' e he hkey) (hleast _ he' hkey')
  · have hempty : promptId.isEmpty = false := by
      simpa using hid
    simp only [hempty, targets, Covers, if_neg hid, Bool.false_eq_true, if_false, List.mem_map,
      List.mem_filter, decide_eq_true_eq]
    constructor
    · rintro ⟨⟨key, _⟩, ⟨he, hsel⟩, rfl⟩
      exact ⟨key, he, hsel.symm⟩
    · rintro ⟨key, he, hsel⟩
      exact ⟨(key, id), ⟨he, hsel.symm⟩, rfl⟩

/-- **An input answers the standing panels it covers**, and no other. -/
theorem Kept.step_answers (hk : Kept w) (i : WindowInput) (hi : ¬i.Fills) :
    ∃ ids, Answers w (w.step L i) ids i.status ∧
      ∀ id, id ∈ ids ↔ ∃ key, (key, id) ∈ w.entries ∧ w.Covers i (key, id) := by
  cases i with
  | showPrompt req => exact absurd trivial hi
  | showChangePrompt req => exact absurd trivial hi
  | edit id field value => exact absurd trivial hi
  | okPressed id =>
    refine hk.answers_one id .ok (∃ panel, w.panels[id]? = some panel ∧ panel.okEnabled) ?_ ?_
    · rintro ⟨panel, hpanel, hok⟩
      simp [Window.step, okPressed, hpanel, hok]
    · intro h
      rw [Window.step, okPressed]
      cases hpanel : w.panels[id]? with
      | none => rfl
      | some panel => exact if_neg fun hok => h ⟨panel, hpanel, hok⟩
  | cancelPressed id =>
    obtain ⟨ids, hans, hids⟩ := hk.answers_one id .cancelled True
      (fun _ => rfl) (fun h => absurd trivial h)
    exact ⟨ids, hans, fun i => by simpa [Covers] using hids i⟩
  | windowShouldClose id =>
    obtain ⟨ids, hans, hids⟩ := hk.answers_one id .cancelled True
      (fun _ => rfl) (fun h => absurd trivial h)
    exact ⟨ids, hans, fun i => by simpa [Covers] using hids i⟩
  | deadlineFired id =>
    refine hk.answers_one id .timeout (∃ panel, w.panels[id]? = some panel ∧ panel.deadlineArmed) ?_ ?_
    · rintro ⟨panel, hpanel, harmed⟩
      simp [Window.step, deadlineFired, hpanel, harmed]
    · intro h
      rw [Window.step, deadlineFired]
      cases hpanel : w.panels[id]? with
      | none => rfl
      | some panel => exact if_neg fun harmed => h ⟨panel, hpanel, harmed⟩
  | dismiss promptId => exact ⟨_, (hk.finishPanels _ _).1, fun id => hk.mem_targets promptId⟩
  | dismissAll =>
    refine ⟨_, (hk.finishPanels .everything "").1, fun id => ?_⟩
    simp [targets, Covers]
  | liveIds => exact ⟨[], .refl, fun id => by simp [Covers]⟩

/-- Raising a panel, or typing, answers none. -/
theorem step_fills (i : WindowInput) (hi : i.Fills) :
    (w.step L i).answers = w.answers ∧
      (∀ e ∈ w.entries, e ∈ (w.step L i).entries) ∧
      ∀ id < w.panels.length, (∀ field value, i ≠ .edit id field value) →
        (w.step L i).panels[id]? = w.panels[id]? := by
  have hraise : ∀ key panel, (w.raise key panel).answers = w.answers ∧
      (∀ e ∈ w.entries, e ∈ (w.raise key panel).entries) ∧
      ∀ id < w.panels.length, (w.raise key panel).panels[id]? = w.panels[id]? := by
    intro key panel
    exact ⟨rfl, fun e he => mem_emplace.2 (.inr he), fun id hlt => getElem?_snoc_of_lt hlt⟩
  cases i with
  | showPrompt req =>
    obtain ⟨hans, hentries, hpanels⟩ := hraise req.promptId (promptPanel req)
    exact ⟨hans, hentries, fun id hlt _ => hpanels id hlt⟩
  | showChangePrompt req =>
    rw [Window.step, showChangePrompt]
    split
    · exact ⟨rfl, fun _ he => he, fun _ _ _ => rfl⟩
    · obtain ⟨hans, hentries, hpanels⟩ := hraise req.promptId (changePanel req)
      exact ⟨hans, hentries, fun id hlt _ => hpanels id hlt⟩
  | edit id field value =>
    rw [Window.step, Window.edit]
    cases hpanel : w.panels[id]? with
    | none => exact ⟨rfl, fun _ he => he, fun _ _ _ => rfl⟩
    | some panel =>
      dsimp only
      split
      · exact ⟨rfl, fun _ he => he, fun _ _ _ => rfl⟩
      · refine ⟨rfl, fun _ he => he, fun id' _ hne => ?_⟩
        refine List.getElem?_set_ne ?_
        rintro rfl
        exact hne field value rfl
  | _ => exact absurd hi id

end Window

theorem window_kept (h : (window L).Reachable w) : w.Kept := by
  refine h.invariant ?_ ?_
  · rintro s rfl
    exact Window.Kept.init
  · intro s i s' hk hstep
    obtain rfl := Option.some.inj hstep
    exact hk.step i

/-- **Every panel is answered once, and stands until then.** At every
point of every run a raised panel either stands, under its id and once, or
has one answer, whose secrets are empty unless it was an OK. An input
answers exactly the standing panels it covers, and touches no other. -/
theorem panels_answered_once (h : (window L).Reachable w) :
    (∀ (id : PanelId) key, w.raised[id]? = some key →
      w.answered.count id + (w.entries.map Prod.snd).count id = 1) ∧
    (∀ key id, (key, id) ∈ w.entries ↔ w.raised[id]? = some key ∧ id ∉ w.answered) ∧
    w.liveIds = w.entries.map Prod.fst ∧
    (∀ e ∈ w.answers, e.2.status ≠ .ok → e.2.primary = [] ∧ e.2.secondary = []) ∧
    (∀ i : WindowInput, ¬i.Fills →
      ∃ ids, w.Answers (w.step L i) ids i.status ∧
        ∀ id, id ∈ ids ↔ ∃ key, (key, id) ∈ w.entries ∧ w.Covers i (key, id)) ∧
    (∀ i : WindowInput, i.Fills →
      (w.step L i).answers = w.answers ∧
        (∀ e ∈ w.entries, e ∈ (w.step L i).entries) ∧
        ∀ id < w.panels.length, (∀ field value, i ≠ .edit id field value) →
          (w.step L i).panels[id]? = w.panels[id]?) ∧
    w.dismissAll.2 = w.entries.length.toUInt32 := by
  have hk := window_kept h
  refine ⟨?_, hk.entry, rfl, hk.secrets, hk.step_answers, Window.step_fills, ?_⟩
  · intro id key hraised
    by_cases hans : id ∈ w.answered
    · have hgone : id ∉ w.entries.map Prod.snd := by
        intro hmem
        obtain ⟨⟨k, _⟩, he, rfl⟩ := List.mem_map.1 hmem
        exact ((hk.entry k _).1 he).2 hans
      rw [List.count_eq_one_of_mem hk.once hans, List.count_eq_zero_of_not_mem hgone]
    · have hstands : id ∈ w.entries.map Prod.snd :=
        List.mem_map.2 ⟨(key, id), (hk.entry key id).2 ⟨hraised, hans⟩, rfl⟩
      rw [List.count_eq_zero_of_not_mem hans, List.count_eq_one_of_mem hk.nodup_ids hstands]
  · rw [Window.dismissAll, Window.finishPanels, Window.targets, List.length_map]

/-- Two panels without an id, and a dismissal without one. -/
def twoPanels : Window := ((Window.showPrompt {} {}).showPrompt {}).dismiss ""

theorem panels_answered_once_two :
    twoPanels.answered.count 0 + (twoPanels.entries.map Prod.snd).count 0 = 1 ∧
      twoPanels.answered = [0] ∧ twoPanels.liveIds = [""] :=
  ⟨(panels_answered_once (L := plainLibrary)
    ⟨{}, [.showPrompt {}, .showPrompt {}, .dismiss ""], rfl, rfl⟩).1 0 "" (by decide), by decide, by decide⟩

end Prompter

end LibreDarwin
