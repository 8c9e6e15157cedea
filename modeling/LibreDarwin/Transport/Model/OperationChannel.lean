import LibreDarwin.Wire.Model.Messages

/-!
# What an operation hands its client

`SocketOperationChannel::emitResult`: the payload of a finished operation
becomes one message and the descriptors that go with it, one for each
photo, artifact or batch row. Putting bytes behind a descriptor is the
system's, and may fail; then there is no message.
-/

namespace LibreDarwin

namespace OperationChannel

open Wire

/-- The result of an operation, as the core hands it over. What goes inline
is given encoded. -/
inductive ResultPayload
  | cardRead (identity : Bytes)
  | certs (certs : List Bytes)
  | photos (photos : List (String × Bytes))
  | artifact (bytes : Bytes)
  | batch (rows : List (String × Bytes))
  | credentials (body : Bytes)
  deriving DecidableEq, Repr

/-- The loop over photos or rows: each item's bytes go behind a descriptor
of their own, and the item carries its index. `fds` are those so far. -/
def materialize (anonFdFromBytes : Bytes → Option Fd) :
    List Fd → List (String × Bytes) → Option (List (String × ℕ) × List Fd)
  | fds, [] => some ([], fds)
  | fds, (key, bytes) :: items =>
    (anonFdFromBytes bytes).bind fun fd =>
      (materialize anonFdFromBytes (fds ++ [fd]) items).map fun rest =>
        ((key, fds.length) :: rest.1, rest.2)

/-- `emitResult`: what it posts to `sendTo`. -/
def emitResult (anonFdFromBytes : Bytes → Option Fd) (op : ℕ) :
    ResultPayload → Option (Message × List Fd)
  | .cardRead identity => some (.opResultReady op (.identity identity), [])
  | .certs certs => some (.opResultReady op (.certificates certs), [])
  | .photos photos =>
    (materialize anonFdFromBytes [] photos).map fun out =>
      (.opResultReady op (.photos out.1), out.2)
  | .artifact bytes =>
    (anonFdFromBytes bytes).map fun fd => (.opResultReady op (.sign 0), [fd])
  | .batch rows =>
    (materialize anonFdFromBytes [] rows).map fun out =>
      (.opResultReady op (.signBatch out.1), out.2)
  | .credentials body => some (.opResultReady op (.credentials body), [])

/-- The descriptors a payload needs. -/
def ResultPayload.descriptors : ResultPayload → ℕ
  | .photos items => items.length
  | .batch items => items.length
  | .artifact _ => 1
  | _ => 0

end OperationChannel

end LibreDarwin
