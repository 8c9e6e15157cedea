import LibreDarwin.Prompter.Model.Client

/-!
# Cancelling and resetting

The two calls of the client that ask the holder nothing. The reset waits
for its answer out of one allowance: the poll for the first byte first,
and what is left of it for the rest of the frame. Times are those of the
steady clock, in nanoseconds.
-/

namespace LibreDarwin

namespace Prompter

open Wire

inductive LogLevel
  | info
  | warn
  | error
  deriving DecidableEq, Repr

/-- A line the log facade is handed. -/
structure LogLine where
  level : LogLevel
  text : String
  deriving DecidableEq, Repr

def kResetReplyBudgetMs : ℤ := 500

/-- `kPromptReceiveBudget`, in milliseconds. -/
def kPromptReceiveBudget : ℤ := 330000

inductive PollReturn
  | ready
  | expired
  | interrupted
  | failed
  deriving DecidableEq, Repr

/-- One turn of the wait: the clock when it begins, what `poll` returns,
and the clock behind it. -/
structure PollTurn where
  begins : ℤ
  poll : PollReturn
  behind : ℤ
  deriving DecidableEq, Repr

/-- How a wait ends, or that it does not within the turns there were. -/
inductive Waited
  | waiting
  | gaveUp
  | readable (leftUs : ℤ)
  deriving DecidableEq, Repr

/-- `waitReadable`, with the timeouts it hands to `poll`. -/
def waitReadable (deadline : ℤ) : List PollTurn → List ℤ × Waited
  | [] => ([], .waiting)
  | turn :: turns =>
    let left := (deadline - turn.begins).tdiv 1000000
    if left ≤ 0 then ([], .gaveUp)
    else
      match turn.poll with
      | .ready => ([left], .readable ((deadline - turn.behind).tdiv 1000))
      | .expired | .failed => ([left], .gaveUp)
      | .interrupted =>
        let (timeouts, waited) := waitReadable deadline turns
        (left :: timeouts, waited)

/-- `setsockopt`. macOS refuses the option with `EINVAL` where the peer
has closed already. -/
inductive SetOption
  | done
  | einval
  | failed
  deriving DecidableEq, Repr

/-- **What a reset meets** beside what every exchange does. -/
structure ResetPeer extends Peer where
  now : ℤ
  turns : List PollTurn
  bounded : SetOption

variable (L : AgentLibrary)

/-- A rejected peer gets no frame. -/
def cancel (peer : Peer) (promptId : String) : List Bytes :=
  if ¬peer.connects ∨ ¬peer.verifies then []
  else [L.encode (toCbor (PromptCancel.fields ⟨promptId⟩))]

/-- `reset`, with the line it logs; none while it still waits. -/
def reset (peer : ResetPeer) : Option LogLine × List Bytes :=
  if ¬peer.connects then
    (some ⟨.info, "prompter not running at start-up; nothing to reset"⟩, [])
  else if ¬peer.verifies then
    (some ⟨.warn, "prompter reset skipped: the serving peer failed verification"⟩, [])
  else
    let body := L.encode (toCbor resetFields)
    if ¬peer.sends then (some ⟨.warn, "prompter reset could not be sent"⟩, [body])
    else
      match (waitReadable (peer.now + kResetReplyBudgetMs * 1000000) peer.turns).2 with
      | .waiting => (none, [body])
      | .gaveUp =>
        (some ⟨.warn, "prompter did not answer the reset within the start-up budget"⟩, [body])
      | .readable _ =>
        if peer.bounded = .failed then
          (some ⟨.warn, "prompter reset: the reply wait could not be bounded, so it was not taken"⟩,
            [body])
        else
          match peer.received with
          | .error _ => (some ⟨.warn, "prompter gave no readable answer to the reset"⟩, [body])
          | .ok frame =>
            match parseResetDone L frame with
            | .error _ =>
              (some ⟨.warn, "prompter answered the reset with a message this build cannot read"⟩,
                [body])
            | .ok done =>
              (some ⟨.info, s!"prompter reset: {done.closed} window(s) closed"⟩, [body])

end Prompter

end LibreDarwin
