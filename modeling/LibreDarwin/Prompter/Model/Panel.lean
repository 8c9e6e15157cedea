import LibreDarwin.Prompter.Model.Protocol

/-!
# One credential panel

The fields of a panel, the gate on its OK button and what answering it
does. A text is what AppKit holds, UTF-16 code units; it has a UTF-8 form
unless a surrogate stands alone. What only the screen shows (words,
layout, the countdown) is left out, and of the deadline timer only that it
is armed is kept.
-/

namespace LibreDarwin

namespace Prompter

open Wire

/-! ## Text -/

/-- `NSString`. -/
abbrev NSString := List UInt16

/-- The bytes of one code point. -/
def utf8Scalar (c : ℕ) : Bytes :=
  if c < 0x80 then [c.toUInt8]
  else if c < 0x800 then [(0xC0 + c / 0x40).toUInt8, (0x80 + c % 0x40).toUInt8]
  else if c < 0x10000 then
    [(0xE0 + c / 0x1000).toUInt8, (0x80 + c / 0x40 % 0x40).toUInt8, (0x80 + c % 0x40).toUInt8]
  else
    [(0xF0 + c / 0x40000).toUInt8, (0x80 + c / 0x1000 % 0x40).toUInt8,
      (0x80 + c / 0x40 % 0x40).toUInt8, (0x80 + c % 0x40).toUInt8]

def isHighSurrogate (u : UInt16) : Bool := 0xD800 ≤ u ∧ u < 0xDC00

def isLowSurrogate (u : UInt16) : Bool := 0xDC00 ≤ u ∧ u < 0xE000

/-- The UTF-8 form of a text that has one. -/
def utf8 : NSString → Option Bytes
  | [] => some []
  | [u] => if isHighSurrogate u ∨ isLowSurrogate u then none else some (utf8Scalar u.toNat)
  | u :: l :: rest =>
    if isHighSurrogate u then
      if isLowSurrogate l then
        (utf8 rest).map fun b =>
          utf8Scalar (0x10000 + (u.toNat - 0xD800) * 0x400 + (l.toNat - 0xDC00)) ++ b
      else none
    else if isLowSurrogate u then none
    else (utf8 (l :: rest)).map fun b => utf8Scalar u.toNat ++ b

/-- `lengthOfBytesUsingEncoding:`, which is 0 for a text without the form. -/
def utf8Length (value : NSString) : ℕ := ((utf8 value).map List.length).getD 0

/-- `readSecret`: up to the first NUL. -/
def readSecret (value : NSString) : Bytes := ((utf8 value).getD []).takeWhile (· ≠ 0)

/-! ## The panel -/

structure PanelState where
  status : PromptReplyStatus := .cancelled
  primary : Bytes := []
  secondary : Bytes := []
  primaryMinLength : UInt32 := 0
  primaryMaxLength : UInt32 := 0
  newMinLength : UInt32 := 0
  newMaxLength : UInt32 := 0
  deriving DecidableEq, Repr

structure Panel where
  changeFlow : Bool
  primaryField : NSString := []
  newField : NSString := []
  confirmField : NSString := []
  okEnabled : Bool := false
  deadlineArmed : Bool := false
  state : PanelState := {}
  finished : Bool := false
  deriving DecidableEq, Repr

inductive Field
  | primary
  | new
  | confirm
  deriving DecidableEq, Repr

def withinBounds (len : ℕ) (minLen maxLen : UInt32) : Bool :=
  minLen.toNat ≤ len ∧ (maxLen = 0 ∨ len ≤ maxLen.toNat)

/-- An unset minimum counts as 1. -/
def changeInputsAcceptable (state : PanelState) (currentLen newLen : ℕ)
    (confirmMatchesNew : Bool) : Bool :=
  withinBounds currentLen (max state.primaryMinLength 1) state.primaryMaxLength &&
    (withinBounds newLen (max state.newMinLength 1) state.newMaxLength && confirmMatchesNew)

namespace Panel

def refreshOkGate (panel : Panel) : Panel :=
  { panel with
    okEnabled :=
      if ¬panel.changeFlow then 0 < utf8Length panel.primaryField
      else
        changeInputsAcceptable panel.state (utf8Length panel.primaryField)
          (utf8Length panel.newField) (panel.confirmField = panel.newField) }

/-- Text in a field, and `controlTextDidChange`. A single-secret panel has
one field. -/
def edit (panel : Panel) (field : Field) (value : NSString) : Panel :=
  match field with
  | .primary => { panel with primaryField := value }.refreshOkGate
  | .new => if panel.changeFlow then { panel with newField := value }.refreshOkGate else panel
  | .confirm =>
    if panel.changeFlow then { panel with confirmField := value }.refreshOkGate else panel

/-- `finishWithStatus`, up to the registry's part: the secrets are read
before the fields are cleared. -/
def finishWithStatus (panel : Panel) (status : PromptReplyStatus) : Panel :=
  { panel with
    finished := true
    state :=
      { panel.state with
        status := status
        primary :=
          if status = .ok then readSecret panel.primaryField else panel.state.primary
        secondary :=
          if status = .ok ∧ panel.changeFlow then readSecret panel.newField
          else panel.state.secondary }
    primaryField := []
    newField := []
    confirmField := []
    deadlineArmed := false }

end Panel

/-- `initWithWindowTitle` and `showWithDeadlineMs`, for one secret. -/
def promptPanel (req : PromptRequest) : Panel :=
  { Panel.refreshOkGate { changeFlow := false } with deadlineArmed := req.deadlineMs ≠ 0 }

/-- And for the PIN pair, with its bounds. -/
def changePanel (req : RequestSecrets) : Panel :=
  { Panel.refreshOkGate
      { changeFlow := true
        state :=
          { primaryMinLength := req.primaryMinLength
            primaryMaxLength := req.primaryMaxLength
            newMinLength := req.newMinLength
            newMaxLength := req.newMaxLength } } with
    deadlineArmed := req.deadlineMs ≠ 0 }

end Prompter

end LibreDarwin
