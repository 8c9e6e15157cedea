import LibreDarwin.Wire.Model.Messages

/-!
# A file behind a descriptor

`anonFdFromBytes`: bytes are written to a temporary file without a name.
The kernel takes part of a write, interrupts it or fails it as it likes;
what it answers is given, and after that every answer is a failure.
-/

namespace LibreDarwin

namespace Wire

/-- What a descriptor is open on, and where it is positioned. -/
structure OpenFile where
  content : Bytes
  offset : ℕ
  deriving DecidableEq, Repr

/-- What `pwrite` comes to: some of the bytes asked for, `EINTR`, or
another error. -/
inductive PwriteAnswer
  | wrote (count : ℕ)
  | interrupted
  | failed
  deriving DecidableEq, Repr

/-- What the kernel answers one call of `anonFdFromBytes`. -/
structure FileAnswers where
  mkstemp : Bool
  pwrite : List PwriteAnswer
  deriving DecidableEq, Repr

/-- A file after `data` was written at `off`; a hole reads as zeros. -/
def pwrite (file data : Bytes) (off : ℕ) : Bytes :=
  file.take off ++ List.replicate (off - file.length) 0 ++ data ++ file.drop (off + data.length)

/-- The loop over the bytes not written. No progress is a failure. -/
def writeLoop (bytes : Bytes) : List PwriteAnswer → Bytes → ℕ → Option Bytes
  | [], file, off => if off < bytes.length then none else some file
  | answer :: answers, file, off =>
    if off < bytes.length then
      match answer with
      | .failed => none
      | .interrupted => writeLoop bytes answers file off
      | .wrote count =>
        let w := min count (bytes.length - off)
        if w = 0 then none
        else writeLoop bytes answers (pwrite file ((bytes.drop off).take w) off) (off + w)
    else some file

/-- `pwrite` moves no position, and `lseek` puts it at the start. -/
def anonFdFromBytes (kernel : FileAnswers) (bytes : Bytes) : Option OpenFile :=
  if kernel.mkstemp then (writeLoop bytes kernel.pwrite [] 0).map fun content => ⟨content, 0⟩
  else none

end Wire

end LibreDarwin
