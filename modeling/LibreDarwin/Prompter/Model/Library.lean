import LibreDarwin.Prompter.Model.Protocol
import LibreDarwin.Wire.Model.Codec

/-!
# An agent library

The vocabulary of the agent library, over the definite-length codec: the
library the results of this part are tried on.
-/

namespace LibreDarwin

namespace Prompter

open Wire

def kindToken : PromptKind → String
  | .pin => "pin"
  | .can => "can"
  | .mrz => "mrz"
  | .changePin => "change_pin"

def replyStatusToken : PromptReplyStatus → String
  | .ok => "ok"
  | .okMrz => "ok_mrz"
  | .cancelled => "cancelled"
  | .timeout => "timeout"
  | .error => "error"
  | .unauthorized => "unauthorized"

def readerInterfaceToken : ReaderInterface → String
  | .unknown => "unknown"
  | .contact => "contact"
  | .contactless => "contactless"

/-- An answer in the MRZ form is one only to who offered it. -/
def promptStatusFor : PromptReplyStatus → Bool → PromptStatus
  | .ok, _ => .ok
  | .okMrz, offered => if offered then .ok else .error
  | .cancelled, _ => .cancelled
  | .timeout, _ => .timeout
  | .error, _ | .unauthorized, _ => .error

/-- The word's own meaning among a list of candidates. -/
def fromToken {α : Type} (token : α → String) (all : List α) (word : String) : Option α :=
  all.find? fun a => token a = word

def plainLibrary : AgentLibrary where
  decode := Codec.decode
  encode := Codec.encodeValue
  kindToken := kindToken
  kindFromToken := fromToken kindToken [.pin, .can, .mrz, .changePin]
  replyStatusToken := replyStatusToken
  replyStatusFromToken :=
    fromToken replyStatusToken [.ok, .okMrz, .cancelled, .timeout, .error, .unauthorized]
  readerInterfaceToken := readerInterfaceToken
  kMaxSecretBytes := 1024
  kKindChangePin := "change_pin"
  promptStatusFor := promptStatusFor

theorem plainLibrary_kind (word : String) (kind : PromptKind) :
    plainLibrary.kindFromToken word = some kind ↔ plainLibrary.kindToken kind = word := by
  constructor
  · intro h
    have hword := List.find?_some h
    exact of_decide_eq_true hword
  · rintro rfl
    cases kind <;> decide

end Prompter

end LibreDarwin
