import LibreDarwin.Prompter.Model.Reset

/-!
# How long the agent waits

A receive timeout of nothing is no timeout at all, and one with a second's
worth of microseconds is refused, so both budgets have to be packed with
care. The reset's two waits come out of one allowance, whatever interrupts
the first.
-/

namespace LibreDarwin

namespace Prompter

variable {deadline n k : ℤ} {turns : List PollTurn} {turn : PollTurn}

end Prompter

end LibreDarwin
