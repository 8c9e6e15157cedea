import LibreDarwin.Common.Machine
import LibreDarwin.Common.Multimap
import LibreDarwin.Prompter.Model.Panel

/-!
# The panels on the screen

The registry of the standing panels and what happens to it on the main
thread, one input at a time. A panel is named by its number in the order
of raising. `answers` is the history of the semaphores signalled, each
with what the waiting caller then reads out of the panel, and `raised` the
id each panel was raised with. An answered panel is kept after its
release; nothing that reaches it does anything.
-/

namespace LibreDarwin

namespace Prompter

open Wire

/-- A panel, by its place in the order of raising. -/
abbrev PanelId := ℕ

/-- What a waiting caller takes out of its panel. -/
structure PanelAnswer where
  status : PromptReplyStatus
  primary : Bytes := []
  secondary : Bytes := []
  deriving DecidableEq, Repr

/-- The multimap of the standing panels, by prompt id. -/
abbrev PanelRegistry := List (String × PanelId)

/-- **The window's state.** -/
structure Window where
  panels : List Panel := []
  entries : PanelRegistry := []
  raised : List String := []
  answers : List (PanelId × PanelAnswer) := []
  deriving Repr

inductive Sweep
  | everything
  | addressed
  | unaddressed
  deriving DecidableEq, Repr

def Panel.answer (panel : Panel) : PanelAnswer :=
  ⟨panel.state.status, panel.state.primary, panel.state.secondary⟩

namespace Window

variable (w : Window)

/-- The registry entry goes in before the window appears. -/
def raise (promptId : String) (panel : Panel) : Window :=
  { w with
    panels := w.panels ++ [panel]
    entries := emplace (promptId, w.panels.length) w.entries
    raised := w.raised ++ [promptId] }

def showPrompt (req : PromptRequest) : Window := w.raise req.promptId (promptPanel req)

/-- A flow this window does not implement raises nothing. -/
def showChangePrompt (L : AgentLibrary) (req : RequestSecrets) : Window :=
  if req.kind ≠ L.kKindChangePin then w else w.raise req.promptId (changePanel req)

/-- `finishWithStatus`: a panel answers once, and erases its own entry. -/
def finish (id : PanelId) (status : PromptReplyStatus) : Window :=
  match w.panels[id]? with
  | none => w
  | some panel =>
    if panel.finished then w
    else
      { w with
        panels := w.panels.set id (panel.finishWithStatus status)
        entries := w.entries.eraseP fun e => e.2 = id
        answers := w.answers ++ [(id, (panel.finishWithStatus status).answer)] }

/-- The panels a sweep selects, in the order of the registry. -/
def targets (sweep : Sweep) (wanted : String) : List PanelId :=
  match sweep with
  | .everything => w.entries.map Prod.snd
  | .addressed => (w.entries.filter fun e => e.1 = "" ∨ e.1 = wanted).map Prod.snd
  | .unaddressed => ((w.entries.find? fun e => e.1 = "").map Prod.snd).toList

/-- The targets are taken down first, and answered one after another. -/
def finishPanels (sweep : Sweep) (wanted : String) : Window × UInt32 :=
  let targets := w.targets sweep wanted
  (targets.foldl (fun w id => w.finish id .cancelled) w, targets.length.toUInt32)

def dismiss (promptId : String) : Window :=
  (w.finishPanels (if promptId.isEmpty then .unaddressed else .addressed) promptId).1

def dismissAll : Window × UInt32 := w.finishPanels .everything ""

def liveIds : List String := w.entries.map Prod.fst

/-- A press on the OK button or Return, which a disabled button does not
take. -/
def okPressed (id : PanelId) : Window :=
  match w.panels[id]? with
  | none => w
  | some panel => if panel.okEnabled then w.finish id .ok else w

def cancelPressed (id : PanelId) : Window := w.finish id .cancelled

def windowShouldClose (id : PanelId) : Window := w.finish id .cancelled

/-- A timer that is not armed does not fire. -/
def deadlineFired (id : PanelId) : Window :=
  match w.panels[id]? with
  | none => w
  | some panel => if panel.deadlineArmed then w.finish id .timeout else w

/-- Typing into a panel that is still up. -/
def edit (id : PanelId) (field : Field) (value : NSString) : Window :=
  match w.panels[id]? with
  | none => w
  | some panel =>
    if panel.finished then w else { w with panels := w.panels.set id (panel.edit field value) }

end Window

/-- What can reach the window. -/
inductive WindowInput
  | showPrompt (req : PromptRequest)
  | showChangePrompt (req : RequestSecrets)
  | edit (id : PanelId) (field : Field) (value : NSString)
  | okPressed (id : PanelId)
  | cancelPressed (id : PanelId)
  | windowShouldClose (id : PanelId)
  | deadlineFired (id : PanelId)
  | dismiss (promptId : String)
  | dismissAll
  | liveIds

/-- One turn of the main thread. -/
def Window.step (L : AgentLibrary) (w : Window) : WindowInput → Window
  | .showPrompt req => w.showPrompt req
  | .showChangePrompt req => w.showChangePrompt L req
  | .edit id field value => w.edit id field value
  | .okPressed id => w.okPressed id
  | .cancelPressed id => w.cancelPressed id
  | .windowShouldClose id => w.windowShouldClose id
  | .deadlineFired id => w.deadlineFired id
  | .dismiss promptId => w.dismiss promptId
  | .dismissAll => w.dismissAll.1
  | .liveIds => w

/-- The window, from an empty screen on. -/
def window (L : AgentLibrary) : Machine Window WindowInput where
  init w := w = {}
  step w i := some (w.step L i)

end Prompter

end LibreDarwin
