import LibreDarwin.Prompter.Heard

/-!
# What the agent gets was typed for it

An OK answer is given by a press on the button of its own panel. Followed
from the press to the agent's result, what the agent holds is what the
fields of the panel it asked for held at that moment, within the bounds it
asked with.
-/

namespace LibreDarwin

namespace Prompter

open Wire

variable {L : AgentLibrary}

/-- **Only a press of the holder's gives an OK**, whatever else the
prompter does. -/
theorem System.mem_step_answers_ok {s s' : System} {i : SystemInput} {n : PanelId}
    {a : PanelAnswer} (h : s.step L i = some s') (ha : (n, a) ∈ s'.window.answers)
    (hok : a.status = .ok) :
    (n, a) ∈ s.window.answers ∨ i = .user (.okPressed n) ∧ ∃ panel, s.window.panels[n]? = some panel ∧
      panel.finished = false ∧ panel.okEnabled = true ∧ a = (panel.finishWithStatus .ok).answer := by
  have hwindow : ∀ {j : WindowInput}, s'.window = s.window.step L j → j ≠ .okPressed n →
      (n, a) ∈ s.window.answers := by
    intro j hj hne
    rw [hj] at ha
    rcases Window.mem_step_answers_ok ha hok with ha | ⟨heq, -⟩
    · exact ha
    · exact absurd heq hne
  cases i with
  | serial i =>
    obtain ⟨server, -, ⟨-, rfl⟩ | ⟨c, d, -, rfl⟩⟩ := serial_cases h
    · exact .inl ha
    · exact .inl ha
  | runBlock i =>
    obtain ⟨block, server, pre, post, -, -, -, -, -, -, rfl⟩ := runBlock_cases h
    exact .inl ha
  | providerReturns i result =>
    obtain ⟨block, server, pre, post, -, -, -, -, -, -, rfl⟩ := providerReturns_cases h
    exact .inl ha
  | mainTurn =>
    left
    rw [System.step, System.mainTurn] at h
    cases hqueue : s.mainQueue with
    | nil => simp [hqueue] at h
    | cons block queue =>
      simp only [hqueue, Option.some.injEq] at h
      subst h
      cases block with
      | showPrompt conn req => exact ha
      | showChangePrompt conn req => exact ha
      | liveIds conn => exact ha
      | dismiss conn promptId => exact hwindow (j := .dismiss promptId) rfl (by simp)
      | dismissAll conn => exact hwindow (j := .dismissAll) rfl (by simp)
  | resetGoesOn conn =>
    left
    rw [System.step, System.resetGoesOn] at h
    split at h
    · obtain rfl := Option.some.inj h
      exact ha
    · cases h
  | user i =>
    rw [System.step] at h
    split at h
    · obtain rfl := Option.some.inj h
      rcases Window.mem_step_answers_ok ha hok with ha | ⟨rfl, hpanel⟩
      · exact .inl ha
      · exact .inr ⟨rfl, hpanel⟩
    · cases h

/-- **The press on the panel of a connection**, in a run of the two sides:
the panel as it stood there. -/
def PressedOn (L : AgentLibrary) (is : List ExchangeInput) (c : ConnId) (panel : Panel) : Prop :=
  ∃ n pre post t, is = pre ++ .prompter (.user (.okPressed n)) :: post ∧
    (exchange L).run {} pre = some t ∧ t.prompter.raisers[n]? = some c ∧
    t.prompter.window.panels[n]? = some panel ∧ panel.finished = false

theorem PressedOn.snoc {is : List ExchangeInput} {c : ConnId} {panel : Panel}
    (h : PressedOn L is c panel) (i : ExchangeInput) : PressedOn L (is ++ [i]) c panel := by
  obtain ⟨n, pre, post, t, rfl, hrest⟩ := h
  exact ⟨n, pre, post ++ [i], t, by simp, hrest⟩

/-- **Every OK answer has its press**: on the panel of the connection, as
that stood by its gate, raised by a call of the connection's. -/
def Pressing (L : AgentLibrary) (is : List ExchangeInput) (s : System) : Prop :=
  ∀ (n : PanelId) (a : PanelAnswer) (c : ConnId), (n, a) ∈ s.window.answers →
    s.raisers[n]? = some c → a.status = .ok →
    ∃ panel r, PressedOn L is c panel ∧ panel.Gated r ∧ panel.okEnabled = true ∧
      a = (panel.finishWithStatus .ok).answer ∧
      (Peer.Name.conn c, Mark.called r.call) ∈ s.server.trace

/-- Who raised a panel stays who raised it. -/
theorem System.Grows.raiser {s s' : System} {n : PanelId} {c : ConnId} (hg : s.Grows s')
    (hlt : n < s.raisers.length) (hc : s'.raisers[n]? = some c) : s.raisers[n]? = some c := by
  have hold := List.getElem?_eq_getElem hlt
  have hlater := getElem?_of_prefix hg.raisers hold
  exact hold.trans (hlater.symm.trans hc)

theorem Pressing.mono {is : List ExchangeInput} {s s' : System} {i : ExchangeInput}
    (h : Pressing L is s) (hk : s.Kept L) (hg : s.Grows s') {n : PanelId} {a : PanelAnswer}
    {c : ConnId} (ha : (n, a) ∈ s.window.answers) (hc : s'.raisers[n]? = some c)
    (hok : a.status = .ok) :
    ∃ panel r, PressedOn L (is ++ [i]) c panel ∧ panel.Gated r ∧ panel.okEnabled = true ∧
      a = (panel.finishWithStatus .ok).answer ∧
      (Peer.Name.conn c, Mark.called r.call) ∈ s'.server.trace := by
  have hlt : n < s.raisers.length := by
    rw [hk.raisers, hk.window.keys]
    exact hk.window.bound n (List.mem_map_of_mem ha)
  obtain ⟨panel, r, hpressed, hgated, hon, heq, hcalled⟩ := h n a c ha (hg.raiser hlt hc) hok
  exact ⟨panel, r, hpressed.snoc i, hgated, hon, heq, hg.trace.subset hcalled⟩

theorem Pressing.step {is : List ExchangeInput} {s s' : Exchange} {rs : List Raising}
    {i : ExchangeInput} (h : Pressing L is s.prompter) (hk : s.Kept L)
    (hshown : s.prompter.Shown rs) (hrun : (exchange L).run {} is = some s)
    (hstep : s.step L i = some s') : Pressing L (is ++ [i]) s'.prompter := by
  obtain hsame | ⟨j, hj, hinput⟩ := Exchange.step_prompter hstep
  · rw [hsame]
    intro n a c ha hc hok
    exact h.mono hk.prompter (.of_eq rfl rfl rfl rfl) ha hc hok
  have hg := System.grows_step hk.prompter hj
  intro n a c ha hc hok
  rcases System.mem_step_answers_ok hj ha hok with ha | ⟨rfl, panel, hpanel, hopen, hon, rfl⟩
  · exact h.mono hk.prompter hg ha hc hok
  · -- the press is this step's, on a panel that stands by its gate
    obtain rfl := hinput.resolve_right (by rintro ⟨authorized, ⟨⟩⟩)
    have hlt : n < s.prompter.raisers.length := by
      rw [hk.prompter.raisers, hk.prompter.window.keys]
      exact (List.getElem?_eq_some_iff.1 hpanel).1
    have hc' := hg.raiser hlt hc
    obtain ⟨r, hr, hgated⟩ := hshown.gated.gated n panel hpanel hopen
    exact ⟨panel, r, ⟨n, is, [], s, rfl, hrun, hc', hpanel, hopen⟩, hgated, hon, rfl,
      hg.trace.subset (hshown.asked n c r hc' hr)⟩

theorem exchange_pressing {is : List ExchangeInput} {s : Exchange}
    (h : (exchange L).run {} is = some s) : Pressing L is s.prompter := by
  suffices hinv : (s.Kept L ∧ ∃ rs, s.prompter.Shown rs) ∧ (exchange L).run {} is = some s ∧
      Pressing L is s.prompter from hinv.2.2
  refine Machine.run_history (I := fun s is => (s.Kept L ∧ ∃ rs, s.prompter.Shown rs) ∧
    (exchange L).run {} is = some s ∧ Pressing L is s.prompter) ?_ ?_ h
  · exact ⟨⟨.init, [], .init⟩, rfl, by rintro n a c ⟨⟩⟩
  · rintro s is i s' ⟨⟨hk, rs, hshown⟩, hrun, hpressing⟩ hstep
    refine ⟨⟨hk.step hstep, ?_⟩, Machine.run_snoc_eq_some.2 ⟨s, hrun, hstep⟩,
      hpressing.step hk hshown hrun hstep⟩
    obtain hsame | ⟨j, hj, -⟩ := Exchange.step_prompter hstep
    · exact ⟨rs, hsame ▸ hshown⟩
    · exact hshown.step hk.prompter hj

/-! ## The agent's result -/

/-- What an OK answer was read from, followed back to the press. -/
theorem System.Answered.pressed {is : List ExchangeInput} {s : Exchange} {c : ConnId} {r : Raising}
    {promptId : String} {a : PanelAnswer} (h : s.prompter.Answered c r.call promptId a)
    (hk : s.Kept L) (hpressing : Pressing L is s.prompter) (hok : a.status = .ok) :
    ∃ panel, PressedOn L is c panel ∧ panel.Gated r ∧ panel.okEnabled = true ∧
      a = (panel.finishWithStatus .ok).answer := by
  obtain ⟨n, hn, -, ha⟩ := h.panel
  obtain ⟨panel, r', hpressed, hgated, hon, heq, hcalled⟩ :=
    hpressing n a c ((ha a).2 rfl) ((hn n).2 rfl) hok
  suffices hr : r' = r by exact ⟨panel, hpressed, hr ▸ hgated, hon, heq⟩
  -- a connection calls one handler
  have hone : r'.call = r.call := by
    have hlife := hk.prompter.served.life c
    have h₁ := Server.mem_marksOf.2 hcalled
    have h₂ := Server.mem_marksOf.2 h.called
    rw [show s.prompter.server.marksOf (.conn c) = (s.prompter.server.account c).marks from rfl]
      at h₁ h₂
    generalize s.prompter.server.account c = account at hlife h₁ h₂
    cases hlife with
    | served m frames ok hserving => cases hserving <;> simp_all [heard]
    | _ => simp [heard] at h₁
  cases r with
  | prompt req => cases r' <;> cases hone; rfl
  | change req => cases r' <;> cases hone; rfl

theorem PromptResult.ofAnswer_ok (hL : L.Agrees) {a : PanelAnswer}
    (h : (PromptResult.ofAnswer L a).status = .ok) :
    a.status = .ok ∧ (PromptResult.ofAnswer L a).secret = a.primary := by
  rw [ofAnswer] at h ⊢
  split at h
  · cases h
  · rename_i hfits
    rw [if_neg hfits]
    exact ⟨(hL.means _).1 h, rfl⟩

theorem PinChangePromptResult.ofAnswer_ok (hL : L.Agrees) {a : PanelAnswer}
    (h : (PinChangePromptResult.ofAnswer L a).status = .ok) :
    a.status = .ok ∧ (PinChangePromptResult.ofAnswer L a).current = a.primary ∧
      (PinChangePromptResult.ofAnswer L a).newPin = a.secondary := by
  rw [ofAnswer] at h ⊢
  split at h
  · cases h
  · rename_i hfits
    rw [if_neg hfits]
    exact ⟨(hL.means _).1 h, rfl, rfl⟩

/-- **An OK is what was typed for it.** Whenever a call comes back with an
OK, the holder has pressed the button of the panel this call raised. The
secret is the text of that panel's field up to its first NUL, which is all
of it exactly when it has none; a PIN change hands over the current and the
new PIN of its own panel, and then both are within the bounds the agent
asked with, and the new one was typed twice. -/
theorem ok_is_as_typed (hL : L.Agrees) {is : List ExchangeInput} {s : Exchange}
    (h : (exchange L).run {} is = some s) {line : Line} {met : ResetPeer} (hline : line ∈ s.lines)
    (hmet : line.met = some met)
    (hask : L.decode (line.call.body L) = some (toCbor ((line.call.message L).fields L)))
    (hreply : ∀ reply ∈ s.prompter.repliesTo line.peer,
      L.decode (reply.body L) = some (toCbor (reply.fields L))) :
    (∀ r, line.call.run L met = .secret r → r.status = .ok →
      ∃ c panel, line.peer = .conn c ∧ PressedOn L is c panel ∧
        r.secret = readSecret panel.primaryField ∧
        (utf8 panel.primaryField = some r.secret ∧ r.secret ≠ [] ↔
          (0 : UInt16) ∉ panel.primaryField)) ∧
    ∀ r o, line.call = .requestPinChange o → line.call.run L met = .pinChange r → r.status = .ok →
      ∃ c panel, line.peer = .conn c ∧ PressedOn L is c panel ∧
        r.current = readSecret panel.primaryField ∧ r.newPin = readSecret panel.newField ∧
        ((utf8 panel.primaryField = some r.current ∧ r.current ≠ [] ∧
            WithinRole o.minLength o.maxLength r.current.length) ∧
          (utf8 panel.newField = some r.newPin ∧ r.newPin ≠ [] ∧
            WithinRole o.minLength o.maxLength r.newPin.length) ∧
          panel.confirmField = panel.newField ↔
          (0 : UInt16) ∉ panel.primaryField ∧ (0 : UInt16) ∉ panel.newField) := by
  have hreach : (exchange L).Reachable s := ⟨{}, is, rfl, h⟩
  have hk := exchange_kept hreach
  obtain ⟨rs, hshown⟩ := exchange_shown hreach
  have hpressing := exchange_pressing h
  have hno : L.promptStatusFor .unauthorized false ≠ .ok := by
    rw [Ne, hL.means]
    decide
  have hgives : ¬(line.call.run L met).Void →
      s.prompter.Gives L line.peer line.call (line.call.run L met) := by
    intro hvoid
    refine hk.gives hshown hL hline hmet hask hreply ?_
    by_contra hreads
    exact hvoid (hk.void hline hmet hreads)
  constructor
  · intro r hrun hok
    have hg := hgives (by rw [hrun]; exact fun hvoid => hvoid.1 hok)
    rw [hrun] at hg
    generalize hpeer : line.peer = peer at hg
    generalize line.call = call at hg
    generalize hout : Outcome.secret r = out at hg
    cases hg with
    | rejected n call => cases call <;> cases hout <;> exact absurd hok hno
    | secret hcall hanswered =>
      rename_i c kind o a
      cases hout
      obtain ⟨haok, hsecret⟩ := PromptResult.ofAnswer_ok hL hok
      obtain ⟨panel, hpressed, hgated, hon, rfl⟩ :=
        hanswered.pressed (r := .prompt _) hk hpressing haok
      exact ⟨c, panel, rfl, hpressed, hsecret, by rw [hsecret]; exact hgated.meets_iff hon⟩
    | _ => cases hout
  · rintro r o hcall hrun hok
    have hg := hgives (by rw [hrun]; exact fun hvoid => hvoid.1 hok)
    rw [hrun, hcall] at hg
    generalize hpeer : line.peer = peer at hg
    generalize hout : Outcome.pinChange r = out at hg
    cases hg with
    | rejected n call => cases hout; exact absurd hok hno
    | pinChange hanswered =>
      rename_i c a
      cases hout
      obtain ⟨haok, hcurrent, hnew⟩ := PinChangePromptResult.ofAnswer_ok hL hok
      obtain ⟨panel, hpressed, hgated, hon, rfl⟩ :=
        hanswered.pressed (r := .change _) hk hpressing haok
      have hflow : panel.changeFlow = true := hgated.changeFlow
      refine ⟨c, panel, rfl, hpressed, hcurrent, ?_, ?_⟩
      · rw [hnew]
        simp [Panel.answer, Panel.finishWithStatus, hflow]
      · rw [hcurrent, hnew]
        exact hgated.meets_iff hon
    | secret hcall' _ => cases hcall'

/-- The PIN change of two calls at once. -/
theorem ok_is_as_typed_two : ∃ c panel, Peer.Name.conn 2 = .conn c ∧
    PressedOn plainLibrary twoCalls c panel ∧ [49] = readSecret panel.primaryField ∧
    [50] = readSecret panel.newField := by
  have hrun : ((exchange plainLibrary).run {} twoCalls).any (fun s =>
      ⟨.conn 2, askChange, true, some (metReply
        (.secrets { status := .ok, primary := [49], secondary := [50] }))⟩ ∈ s.lines ∧
      ∀ reply ∈ s.prompter.repliesTo (.conn 2),
        reply = .secrets { status := .ok, primary := [49], secondary := [50] }) = true := by
    decide +kernel
  obtain ⟨s, hs, hend⟩ := (Option.any_eq_true _ _).1 hrun
  obtain ⟨hline, hreplies⟩ := of_decide_eq_true hend
  have hdecodes : ∀ reply ∈ s.prompter.repliesTo (.conn 2), plainLibrary.decode
      (reply.body plainLibrary) = some (toCbor (reply.fields plainLibrary)) := by
    intro reply hmem
    rw [hreplies reply hmem]
    decide +kernel
  obtain ⟨c, panel, hc, hpressed, hcurrent, hnew, -⟩ :=
    (ok_is_as_typed plainLibrary_agrees hs hline rfl (by decide +kernel) hdecodes).2
      { status := .ok, current := [49], newPin := [50] } _ rfl (by decide +kernel) rfl
  exact ⟨c, panel, hc, hpressed, hcurrent, hnew⟩

end Prompter

end LibreDarwin
