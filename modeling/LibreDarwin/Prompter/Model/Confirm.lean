import LibreDarwin.Prompter.Model.Words

/-!
# The device owner's confirmation

The dialog is the platform's own. What the prompter has to do with it is
the one sentence it is given, and the status its outcome is turned into.
-/

namespace LibreDarwin

namespace Prompter

variable (F : Foundation)

/-- Who the sentence says is asking. -/
def attribution (requester : String) : NSString :=
  F.stringWithFormat (localized F "prompter_confirm_requested_by" "(requested by “%@”)")
    [requesterName F requester]

/-- `localizedReason`: the sentence, a blank, and who is asking. -/
def localizedReason (req : ConfirmAction) : NSString :=
  localized F req.descriptionKey req.description ++ 0x20 :: attribution F req.requester

/-- `LAErrorUserCancel` -/
def kUserCancel : ℤ := -2

/-- What LocalAuthentication makes of a policy: it cannot be evaluated at
all, or the reply block hears of a success or an error. A description is
none where it has no UTF-8 form. -/
inductive Evaluation
  | unavailable (localizedDescription : Option String)
  | success
  | failure (code : ℤ) (localizedDescription : Option String)
  deriving DecidableEq, Repr

/-- `confirmWithDeviceOwner`, against what the owner does. -/
def confirmWithDeviceOwner : Evaluation → ConfirmReply
  | .unavailable description =>
    { status := .error, userMessage := description.getD "authentication unavailable" }
  | .success => { status := .ok, userMessage := "" }
  | .failure code description =>
    { status := if code = kUserCancel then .cancelled else .error
      userMessage := description.getD "" }

end Prompter

end LibreDarwin
