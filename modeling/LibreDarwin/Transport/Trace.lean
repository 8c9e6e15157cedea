import LibreDarwin.Transport.Outbound
import LibreDarwin.Transport.Model.Slot

/-!
# Readings of a trace

What the claims ask of a connection's part of the trace: the frames
enqueued, what the kernel did, the frames delivered, the requests served.
Each is a `filterMap`, so it goes through an append, and the runs of
entries a step adds (`io`, `delivered`, a farewell) are read off once.
-/

namespace LibreDarwin

namespace Transport

open Wire

variable {Req : Type*}

/-- The frames a trace enqueued. -/
def sentIn (seen : List (Obs Req)) : List Chunk :=
  seen.filterMap fun
    | .enqueued _ frame => some frame
    | _ => none

/-- What the kernel did in a trace. -/
def ioIn (seen : List (Obs Req)) : List Io :=
  seen.filterMap fun
    | .io io => some io
    | _ => none

/-- The frames a trace delivered. -/
def deliveredIn (seen : List (Obs Req)) : List WireFrame :=
  seen.filterMap fun
    | .delivered frame => some frame
    | _ => none

/-- A request as the sink got it: caller, request, descriptors. -/
abbrev Heard (Req : Type*) := CallerToken × Req × List Fd

/-- The requests a trace handed to the sink. -/
def requestsIn (seen : List (Obs Req)) : List (Heard Req) :=
  seen.filterMap fun
    | .request caller req fds => some (caller, req, fds)
    | _ => none

/-- How often a trace accepted the connection. -/
def connectsIn (seen : List (Obs Req)) : ℕ :=
  seen.countP fun
    | .connected => true
    | _ => false

section Append

variable (a b : List (Obs Req))

@[simp] theorem sentIn_append : sentIn (a ++ b) = sentIn a ++ sentIn b := List.filterMap_append

@[simp] theorem ioIn_append : ioIn (a ++ b) = ioIn a ++ ioIn b := List.filterMap_append

@[simp] theorem deliveredIn_append : deliveredIn (a ++ b) = deliveredIn a ++ deliveredIn b :=
  List.filterMap_append

@[simp] theorem requestsIn_append : requestsIn (a ++ b) = requestsIn a ++ requestsIn b :=
  List.filterMap_append

@[simp] theorem connectsIn_append : connectsIn (a ++ b) = connectsIn a + connectsIn b :=
  List.countP_append

end Append

/-! A frame enqueued. -/

@[simp] theorem sentIn_enqueued (m : Message) (frame : Chunk) :
    sentIn ([.enqueued m frame] : List (Obs Req)) = [frame] := rfl

@[simp] theorem ioIn_enqueued (m : Message) (frame : Chunk) :
    ioIn ([.enqueued m frame] : List (Obs Req)) = [] := rfl

@[simp] theorem deliveredIn_enqueued (m : Message) (frame : Chunk) :
    deliveredIn ([.enqueued m frame] : List (Obs Req)) = [] := rfl

@[simp] theorem requestsIn_enqueued (m : Message) (frame : Chunk) :
    requestsIn ([.enqueued m frame] : List (Obs Req)) = [] := rfl

@[simp] theorem connectsIn_enqueued (m : Message) (frame : Chunk) :
    connectsIn ([.enqueued m frame] : List (Obs Req)) = 0 := rfl

/-! What the kernel did. -/

section Io

variable (io : List Io)

@[simp] theorem sentIn_io : sentIn (io.map .io : List (Obs Req)) = [] := by
  simp [sentIn, List.filterMap_map]

@[simp] theorem ioIn_io : ioIn (io.map .io : List (Obs Req)) = io := by
  simp [ioIn, List.filterMap_map]

@[simp] theorem deliveredIn_io : deliveredIn (io.map .io : List (Obs Req)) = [] := by
  simp [deliveredIn, List.filterMap_map]

@[simp] theorem requestsIn_io : requestsIn (io.map .io : List (Obs Req)) = [] := by
  simp [requestsIn, List.filterMap_map]

@[simp] theorem connectsIn_io : connectsIn (io.map .io : List (Obs Req)) = 0 := by
  simp [connectsIn, List.countP_map, Function.comp_def]

end Io

/-! A close. -/

section Farewell

variable (why : CloseReason) (handlers : List HandlerId) (caller : CallerToken)

@[simp] theorem sentIn_farewell :
    sentIn (farewell why handlers caller : List (Obs Req)) = [] := by
  simp [sentIn, farewell, List.filterMap_map]

@[simp] theorem ioIn_farewell : ioIn (farewell why handlers caller : List (Obs Req)) = [] := by
  simp [ioIn, farewell, List.filterMap_map]

@[simp] theorem deliveredIn_farewell :
    deliveredIn (farewell why handlers caller : List (Obs Req)) = [] := by
  simp [deliveredIn, farewell, List.filterMap_map]

@[simp] theorem requestsIn_farewell :
    requestsIn (farewell why handlers caller : List (Obs Req)) = [] := by
  simp [requestsIn, farewell, List.filterMap_map]

@[simp] theorem connectsIn_farewell :
    connectsIn (farewell why handlers caller : List (Obs Req)) = 0 := by
  simp [connectsIn, farewell, List.countP_map, Function.comp_def]

end Farewell

/-! A read. -/

section Delivered

variable (frames : List WireFrame)

@[simp] theorem sentIn_delivered : sentIn (frames.map .delivered : List (Obs Req)) = [] := by
  simp [sentIn, List.filterMap_map]

@[simp] theorem ioIn_delivered : ioIn (frames.map .delivered : List (Obs Req)) = [] := by
  simp [ioIn, List.filterMap_map]

@[simp] theorem deliveredIn_delivered :
    deliveredIn (frames.map .delivered : List (Obs Req)) = frames := by
  simp [deliveredIn, List.filterMap_map]

@[simp] theorem requestsIn_delivered :
    requestsIn (frames.map .delivered : List (Obs Req)) = [] := by
  simp [requestsIn, List.filterMap_map]

@[simp] theorem connectsIn_delivered :
    connectsIn (frames.map .delivered : List (Obs Req)) = 0 := by
  simp [connectsIn, List.countP_map, Function.comp_def]

end Delivered

/-! A frame handed to the sink, if there is one. -/

section Served

variable (heard : Bool) (caller : CallerToken) (req : Req) (fds : List Fd)

@[simp] theorem sentIn_served :
    sentIn (if heard then [.request caller req fds] else [] : List (Obs Req)) = [] := by
  cases heard <;> rfl

@[simp] theorem ioIn_served :
    ioIn (if heard then [.request caller req fds] else [] : List (Obs Req)) = [] := by
  cases heard <;> rfl

@[simp] theorem deliveredIn_served :
    deliveredIn (if heard then [.request caller req fds] else [] : List (Obs Req)) = [] := by
  cases heard <;> rfl

@[simp] theorem connectsIn_served :
    connectsIn (if heard then [.request caller req fds] else [] : List (Obs Req)) = 0 := by
  cases heard <;> rfl

end Served

/-! The mark of a last frame. -/

@[simp] theorem sentIn_lastFrame : sentIn ([.lastFrame] : List (Obs Req)) = [] := rfl

@[simp] theorem ioIn_lastFrame : ioIn ([.lastFrame] : List (Obs Req)) = [] := rfl

@[simp] theorem deliveredIn_lastFrame : deliveredIn ([.lastFrame] : List (Obs Req)) = [] := rfl

@[simp] theorem requestsIn_lastFrame : requestsIn ([.lastFrame] : List (Obs Req)) = [] := rfl

@[simp] theorem connectsIn_lastFrame : connectsIn ([.lastFrame] : List (Obs Req)) = 0 := rfl

end Transport

end LibreDarwin
