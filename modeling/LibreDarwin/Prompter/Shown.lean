import LibreDarwin.Prompter.Exchange

/-!
# What stands on the screen was asked for

Every panel was raised for a request its connection made, under that
request's id and with its bounds (`Shown`). The list of what the panels
were raised for is a ghost: the prompter keeps no such list.
-/

namespace LibreDarwin

namespace Prompter

open Wire

/-- The handler's call a panel is raised by. -/
def Raising.call : Raising → Call
  | .prompt req => .provider req
  | .change req => .multiProvider req

def Raising.promptId : Raising → String
  | .prompt req => req.promptId
  | .change req => req.promptId

/-- The panel a block of the main queue raises. -/
def MainBlock.raising : MainBlock → Option (ConnId × Raising)
  | .showPrompt conn req => some (conn, .prompt req)
  | .showChangePrompt conn req => some (conn, .change req)
  | .dismiss _ _ | .liveIds _ | .dismissAll _ => none

variable {L : AgentLibrary} {s s' : System}

theorem Call.raising_mainBlock {call : Call} {c conn : ConnId} {block : MainBlock} {r : Raising}
    (hblock : call.mainBlock L c = some block) (hr : block.raising = some (conn, r)) :
    conn = c ∧ r.call = call := by
  cases call with
  | provider req =>
    cases hblock
    cases hr
    exact ⟨rfl, rfl⟩
  | multiProvider req =>
    rw [Call.mainBlock] at hblock
    split at hblock
    · cases hblock
      cases hr
      exact ⟨rfl, rfl⟩
    · cases hblock
  | cancel promptId =>
    cases hblock
    cases hr
  | confirmProvider req => cases hblock
  | reset =>
    cases hblock
    cases hr

/-- Only a cancellation is handled inline. -/
theorem cancel_of_handle {frame : Bytes} {call : Call} (h : dispatch L frame = .handle call) :
    ∃ promptId, call = .cancel promptId := by
  have hacted := acted_of_handle h
  cases hacted with
  | cancel hparse => exact ⟨_, rfl⟩

/-- A panel is answered with one of three words. -/
def PanelAnswer.Plain (a : PanelAnswer) : Prop :=
  a.status = .ok ∨ a.status = .cancelled ∨ a.status = .timeout

theorem Window.Kept.plain_step {w : Window} {i : WindowInput} (hk : w.Kept)
    (h : ∀ e ∈ w.answers, e.2.Plain) : ∀ e ∈ (w.step L i).answers, e.2.Plain := by
  by_cases hi : i.Fills
  · rw [(step_fills i hi).1]
    exact h
  · obtain ⟨ids, hanswers, -⟩ := hk.step_answers (L := L) i hi
    obtain ⟨new, hnew, -, hstatus⟩ := hanswers.answers
    intro e he
    rw [hnew] at he
    rcases List.mem_append.1 he with he | he
    · exact h e he
    · rw [PanelAnswer.Plain, hstatus e he]
      cases i <;> simp [WindowInput.status]

namespace System

/-- **What the screen shows**, with what each panel was raised for. -/
structure Shown (s : System) (rs : List Raising) : Prop where
  raisers : rs.length = s.raisers.length
  gated : s.window.Gated rs
  keys : s.window.raised = rs.map Raising.promptId
  asked : ∀ (n : PanelId) c r, s.raisers[n]? = some c → rs[n]? = some r →
    (Peer.Name.conn c, Mark.called r.call) ∈ s.server.trace
  queued : ∀ block ∈ s.mainQueue, ∀ c r, block.raising = some (c, r) →
    (Peer.Name.conn c, Mark.called r.call) ∈ s.server.trace
  plain : ∀ e ∈ s.window.answers, e.2.Plain

theorem Shown.init : Shown {} [] where
  raisers := rfl
  gated := ⟨rfl, by simp⟩
  keys := rfl
  asked := by simp
  queued := by simp
  plain := by simp

variable {rs : List Raising}

/-- A step that leaves the screen alone. -/
theorem Shown.of_queue {new : List MainBlock} (h : s.Shown rs) (hg : s.Grows s')
    (hwindow : s'.window = s.window) (hraisers : s'.raisers = s.raisers)
    (hqueue : s'.mainQueue = s.mainQueue ++ new)
    (hnew : ∀ block ∈ new, ∀ c r, block.raising = some (c, r) →
      (Peer.Name.conn c, Mark.called r.call) ∈ s'.server.trace) : s'.Shown rs := by
  refine ⟨?_, ?_, ?_, ?_, ?_, ?_⟩
  · rw [hraisers]
    exact h.raisers
  · rw [hwindow]
    exact h.gated
  · rw [hwindow]
    exact h.keys
  · intro n c r hc hr
    rw [hraisers] at hc
    exact hg.trace.subset (h.asked n c r hc hr)
  · intro block hblock c r hr
    rw [hqueue] at hblock
    rcases List.mem_append.1 hblock with hblock | hblock
    · exact hg.trace.subset (h.queued block hblock c r hr)
    · exact hnew block hblock c r hr
  · rw [hwindow]
    exact h.plain

/-- A turn of the window that raises nothing. -/
theorem Shown.of_window {i : WindowInput} {queue : List MainBlock} (hk : Kept L s) (h : s.Shown rs)
    (hserver : s'.server = s.server) (hraisers : s'.raisers = s.raisers)
    (hwindow : s'.window = s.window.step L i) (hraises : i.raises L = none)
    (hraised : (s.window.step L i).raised = s.window.raised) (hqueue : s'.mainQueue = queue)
    (hsub : queue ⊆ s.mainQueue) : s'.Shown rs := by
  refine ⟨?_, ?_, ?_, ?_, ?_, ?_⟩
  · rw [hraisers]
    exact h.raisers
  · have hgated := h.gated.step (L := L) i
    rw [hraises, Option.toList_none, List.append_nil] at hgated
    rw [hwindow]
    exact hgated
  · rw [hwindow, hraised]
    exact h.keys
  · rw [hraisers, hserver]
    exact h.asked
  · rw [hserver]
    intro block hblock
    exact h.queued block (hsub (hqueue ▸ hblock))
  · rw [hwindow]
    exact hk.window.plain_step h.plain

/-- The main queue raises a panel. -/
theorem Shown.raise {c : ConnId} {r : Raising} {block : MainBlock} (h : s.Shown rs)
    (hserver : s'.server = s.server) (hraisers : s'.raisers = s.raisers ++ [c])
    (hwindow : s'.window = s.window.raise r.promptId r.panel)
    (hqueue : s.mainQueue = block :: s'.mainQueue) (hblock : block.raising = some (c, r)) :
    s'.Shown (rs ++ [r]) := by
  refine ⟨?_, ?_, ?_, ?_, ?_, ?_⟩
  · rw [hraisers, List.length_append, List.length_append, h.raisers]
    rfl
  · rw [hwindow]
    exact h.gated.raise
  · rw [hwindow, Window.raise, h.keys, List.map_append]
    rfl
  · intro n d r' hd hr'
    rw [hserver]
    rw [hraisers] at hd
    by_cases hn : n < s.raisers.length
    · rw [List.getElem?_append_left hn] at hd
      rw [List.getElem?_append_left (h.raisers ▸ hn)] at hr'
      exact h.asked n d r' hd hr'
    · rw [List.getElem?_append_right (not_lt.1 hn), List.getElem?_singleton] at hd
      rw [List.getElem?_append_right (h.raisers ▸ not_lt.1 hn), h.raisers,
        List.getElem?_singleton] at hr'
      split at hd
      · rename_i hz
        rw [if_pos hz] at hr'
        obtain rfl := Option.some.inj hd
        obtain rfl := Option.some.inj hr'
        exact h.queued block (hqueue ▸ List.mem_cons_self) _ _ hblock
      · cases hd
  · rw [hserver]
    intro b hb
    exact h.queued b (hqueue ▸ List.mem_cons_of_mem _ hb)
  · rw [hwindow]
    exact h.plain

theorem Shown.serial {i : ServerInput} (hk : Kept L s) (h : s.Shown rs)
    (hstep : s.serial L i = some s') : s'.Shown rs := by
  have hg : s.Grows s' := grows_step (i := .serial i) hk hstep
  rw [System.serial] at hstep
  split at hstep
  swap
  · cases hstep
  obtain ⟨server, -, rfl⟩ := Option.map_eq_some_iff.1 hstep
  cases hd : s.dispatched L i with
  | none =>
    simp only [hd] at hg ⊢
    exact h.of_queue hg rfl rfl (List.append_nil _).symm (by simp)
  | some e =>
    obtain ⟨conn, d⟩ := e
    simp only [hd] at hg ⊢
    refine h.of_queue hg rfl rfl rfl fun block hblock c r hr => ?_
    -- what goes to the main queue from here is a cancellation
    have hframe : ∃ frame, d = dispatch L frame := by
      cases i with
      | readReady id frames ok =>
        cases frames with
        | nil => cases hd
        | cons frame frames =>
          rw [dispatched] at hd
          split at hd
          · cases hd
            exact ⟨frame, rfl⟩
          · cases hd
      | _ => cases hd
    obtain ⟨frame, rfl⟩ := hframe
    cases hdispatch : dispatch L frame with
    | drop =>
      rw [hdispatch] at hblock
      cases hblock
    | post task =>
      rw [hdispatch] at hblock
      cases hblock
    | handle call =>
      obtain ⟨promptId, rfl⟩ := cancel_of_handle hdispatch
      rw [hdispatch] at hblock
      obtain rfl := List.mem_singleton.1 hblock
      cases hr

theorem Shown.runBlock {i : ℕ} (hk : Kept L s) (h : s.Shown rs) (hstep : s.runBlock L i = some s') :
    s'.Shown rs := by
  have hg : s.Grows s' := grows_step (i := .runBlock i) hk hstep
  rw [System.runBlock] at hstep
  cases hi : s.server.blocks[i]? with
  | none => simp [hi] at hstep
  | some worker =>
    simp only [hi] at hstep
    obtain ⟨server, hrun, rfl⟩ := Option.map_eq_some_iff.1 hstep
    refine h.of_queue hg rfl rfl rfl fun block hblock c r hr => ?_
    obtain ⟨conn, task, called⟩ := worker
    cases task with
    | refuse reply => cases hblock
    | call call =>
      obtain ⟨rfl, hcall⟩ := Call.raising_mainBlock (Option.mem_toList.1 hblock) hr
      rw [hcall]
      rw [Server.runBlock, hi] at hrun
      simp only at hrun
      split at hrun
      · cases hrun
      · obtain rfl := Option.some.inj hrun
        simp [Server.log]

theorem Shown.mainTurn (hk : Kept L s) (h : s.Shown rs) (hstep : s.mainTurn = some s') :
    ∃ rs', s'.Shown rs' := by
  rw [System.mainTurn] at hstep
  cases hqueue : s.mainQueue with
  | nil => simp [hqueue] at hstep
  | cons block queue =>
    simp only [hqueue, Option.some.injEq] at hstep
    subst hstep
    cases block with
    | showPrompt conn req => exact ⟨_, h.raise rfl rfl rfl hqueue rfl⟩
    | showChangePrompt conn req => exact ⟨_, h.raise rfl rfl rfl hqueue rfl⟩
    | liveIds conn =>
      refine ⟨rs, h.of_window (i := .liveIds) hk rfl rfl rfl rfl rfl rfl ?_⟩
      exact hqueue ▸ List.subset_cons_self _ _
    | dismiss conn promptId =>
      obtain ⟨ids, hanswers, -⟩ := hk.window.step_answers (L := L) (.dismiss promptId) id
      refine ⟨rs, h.of_window (i := .dismiss promptId) hk rfl rfl rfl rfl hanswers.raised
        rfl ?_⟩
      exact hqueue ▸ List.subset_cons_self _ _
    | dismissAll conn =>
      obtain ⟨ids, hanswers, -⟩ := hk.window.step_answers (L := L) .dismissAll id
      refine ⟨rs, h.of_window (i := .dismissAll) hk rfl rfl rfl rfl hanswers.raised rfl ?_⟩
      exact hqueue ▸ List.subset_cons_self _ _

/-- **The step lemma.** -/
theorem Shown.step {i : SystemInput} (hk : Kept L s) (h : s.Shown rs)
    (hstep : s.step L i = some s') : ∃ rs', s'.Shown rs' := by
  cases i with
  | serial i => exact ⟨rs, h.serial hk hstep⟩
  | runBlock i => exact ⟨rs, h.runBlock hk hstep⟩
  | providerReturns i result =>
    have hg := grows_step hk hstep
    obtain ⟨block, server, pre, post, -, -, -, -, -, -, rfl⟩ := providerReturns_cases hstep
    exact ⟨rs, h.of_queue hg rfl rfl (List.append_nil _).symm (by simp)⟩
  | mainTurn => exact h.mainTurn hk hstep
  | resetGoesOn conn =>
    have hg := grows_step hk hstep
    rw [System.step, System.resetGoesOn] at hstep
    split at hstep
    · obtain rfl := Option.some.inj hstep
      exact ⟨rs, h.of_queue hg rfl rfl rfl (by simp [MainBlock.raising])⟩
    · cases hstep
  | user i =>
    rw [System.step] at hstep
    split at hstep
    swap
    · cases hstep
    rename_i hi
    obtain rfl := Option.some.inj hstep
    refine ⟨rs, h.of_window (i := i) hk rfl rfl rfl ?_ (hk.window.step_user hi).1 rfl
      (List.Subset.refl _)⟩
    cases i with
    | showPrompt req => cases hi
    | showChangePrompt req => cases hi
    | _ => rfl

end System

/-- The prompter's part of a step. -/
theorem Exchange.step_prompter {s s' : Exchange} {i : ExchangeInput} (h : s.step L i = some s') :
    s'.prompter = s.prompter ∨ ∃ j, s.prompter.step L j = some s'.prompter ∧
      (i = .prompter j ∨ ∃ authorized, j = .serial (.accept authorized)) := by
  cases i with
  | connect call authorized =>
    obtain ⟨p, hstep, rfl⟩ := Option.map_eq_some_iff.1 h
    exact .inr ⟨_, hstep, .inr ⟨_, rfl⟩⟩
  | send i =>
    rw [Exchange.step, Exchange.send] at h
    split at h
    · cases h
    split at h
    · cases h
    obtain rfl := Option.some.inj h
    exact .inl rfl
  | returns i met =>
    rw [Exchange.step, Exchange.returns] at h
    split at h
    · cases h
    split at h
    · obtain rfl := Option.some.inj h
      exact .inl rfl
    · cases h
  | prompter i =>
    rw [Exchange.step, Exchange.stepPrompter] at h
    split at h
    · obtain ⟨p, hstep, rfl⟩ := Option.map_eq_some_iff.1 h
      exact .inr ⟨_, hstep, .inl rfl⟩
    · cases h

theorem exchange_shown {s : Exchange} (h : (exchange L).Reachable s) :
    ∃ rs, s.prompter.Shown rs := by
  suffices hinv : s.Kept L ∧ ∃ rs, s.prompter.Shown rs from hinv.2
  refine h.invariant (I := fun s => s.Kept L ∧ ∃ rs, s.prompter.Shown rs) ?_ ?_
  · rintro s rfl
    exact ⟨.init, [], .init⟩
  · rintro s i s' ⟨hk, rs, hshown⟩ hstep
    refine ⟨hk.step hstep, ?_⟩
    obtain hsame | ⟨j, hj, -⟩ := Exchange.step_prompter hstep
    · exact ⟨rs, hsame ▸ hshown⟩
    · exact hshown.step hk.prompter hj

end Prompter

end LibreDarwin
