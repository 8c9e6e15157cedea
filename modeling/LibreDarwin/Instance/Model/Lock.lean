import LibreDarwin.Common.Machine

/-!
# One instance on a socket path

`SingleInstanceLock::acquire` and `release`, one system call at a time.
Contenders share the lock path; each has at most one descriptor, on the
file it opened. A file is not its inode number: a number may come back once
its file is gone, and all that `pathNames` compares is numbers.

A contender that holds the lock may bind the socket, which is what the
transport and the prompter acquire it for, and may die at any moment.
-/

namespace LibreDarwin

namespace Instance

/-- A file. `ino` stands for device and inode; `serial` tells apart files
that had the same number one after the other. -/
structure File where
  serial : ℕ
  ino : ℕ
  deriving DecidableEq, Repr

/-- `ServerStartError::Kind`. -/
inductive Kind
  | anotherInstance
  | failed
  deriving DecidableEq, Repr

/-- `kAcquireAttempts`. -/
def kAcquireAttempts : ℕ := 8

/-- Where a contender is: the call it makes next, or what it rests in. -/
inductive Pc
  | idle
  | opening (attempt : ℕ)
  | opened (attempt : ℕ) (f : File)
  | checked (attempt : ℕ) (f : File)
  | granted (attempt : ℕ) (f : File)
  | retrying (attempt : ℕ) (f : File)
  | failing (f : File) (kind : Kind)
  | failed (kind : Kind)
  | holding (f : File)
  | releasing (f : File)
  | named (f : File)
  | closing (f : File)
  deriving DecidableEq, Repr

/-- What a contender did, in order. `unlinked` is the lock path, `bound`
the socket path, what was there before removed. -/
inductive Mark (P : Type*)
  | acquiring (p : P)
  | failed (p : P) (kind : Kind)
  | unlinked (p : P)
  | bound (p : P)
  deriving DecidableEq, Repr

/-- The lock path, the open descriptors, the locks, and the contenders. -/
structure LockState (P : Type*) where
  path : Option File
  nextSerial : ℕ
  fds : List (P × File)
  locks : List (File × P)
  pc : P → Pc
  trace : List (Mark P)

/-- A system call of a contender, with what it answers where it may fail;
the calls of `acquire` and `release` themselves; a bind; and an end without
notice. -/
inductive LockInput (P : Type*)
  | acquire (p : P)
  | openCreate (p : P) (ok : Bool) (ino : ℕ)
  | fstat (p : P) (ok : Bool)
  | flock (p : P) (ok : Bool)
  | lstat (p : P) (ok : Bool)
  | unlink (p : P) (ok : Bool)
  | close (p : P)
  | bind (p : P)
  | release (p : P)
  | exit (p : P)
  deriving DecidableEq, Repr

/-- Whose call it is. -/
def LockInput.contender {P : Type*} : LockInput P → P
  | .acquire p | .openCreate p _ _ | .fstat p _ | .flock p _ | .lstat p _ | .unlink p _ | .close p
  | .bind p | .release p | .exit p => p

namespace LockState

variable {P : Type*} [DecidableEq P] (s : LockState P)

/-- The contender goes on to `c`. -/
def goto (p : P) (c : Pc) : LockState P := { s with pc := Function.update s.pc p c }

def mark (m : Mark P) : LockState P := { s with trace := s.trace ++ [m] }

/-- `acquire` returns an error. -/
def fail (p : P) (kind : Kind) : LockState P := (s.goto p (.failed kind)).mark (.failed p kind)

/-- The last descriptor of a contender is closed, and its lock with it. -/
def drop (p : P) : LockState P :=
  { s with fds := s.fds.filter fun e => e.1 ≠ p
           locks := s.locks.filter fun e => e.2 ≠ p }

/-- `pathNames`; `ok` is whether the call itself succeeds. -/
def pathNames (ok : Bool) (f : File) : Bool := ok && s.path.map File.ino == some f.ino

/-- Open the file the path names, or make one. A new file does not get the
number of one that a descriptor refers to. -/
def openCreate (p : P) (attempt ino : ℕ) : Option (LockState P) :=
  match s.path with
  | some f => some ({ s with fds := (p, f) :: s.fds }.goto p (.opened attempt f))
  | none =>
    if ino ∈ s.fds.map (fun e => e.2.ino) then none
    else
      let f := ⟨s.nextSerial, ino⟩
      some ({ s with path := some f
                     nextSerial := s.nextSerial + 1
                     fds := (p, f) :: s.fds }.goto p (.opened attempt f))

/-- **One system call.** -/
def step : LockInput P → Option (LockState P)
  | .acquire p =>
    match s.pc p with
    | .idle | .failed _ => some ((s.goto p (.opening 0)).mark (.acquiring p))
    | _ => none
  | .openCreate p ok ino =>
    match s.pc p with
    | .opening attempt => if ok then s.openCreate p attempt ino else some (s.fail p .failed)
    | _ => none
  | .fstat p ok =>
    match s.pc p with
    | .opened attempt f => some (s.goto p (if ok then .checked attempt f else .failing f .failed))
    | _ => none
  | .flock p ok =>
    match s.pc p with
    | .checked attempt f =>
      if f ∈ s.locks.map Prod.fst then some (s.goto p (.failing f .anotherInstance))
      else if ok then some ({ s with locks := (f, p) :: s.locks }.goto p (.granted attempt f))
      else some (s.goto p (.failing f .failed))
    | _ => none
  | .lstat p ok =>
    match s.pc p with
    | .granted attempt f =>
      some (s.goto p (if s.pathNames ok f then .holding f else .retrying attempt f))
    | .releasing f => some (s.goto p (if s.pathNames ok f then .named f else .closing f))
    | _ => none
  | .unlink p ok =>
    match s.pc p with
    | .named f =>
      some (({ s with path := if ok then none else s.path }.goto p (.closing f)).mark
        (.unlinked p))
    | _ => none
  | .close p =>
    match s.pc p with
    | .retrying attempt _ =>
      some (if attempt + 1 < kAcquireAttempts then (s.drop p).goto p (.opening (attempt + 1))
        else (s.drop p).fail p .failed)
    | .failing _ kind => some ((s.drop p).fail p kind)
    | .closing _ => some ((s.drop p).goto p .idle)
    | _ => none
  | .bind p =>
    match s.pc p with
    | .holding _ => some (s.mark (.bound p))
    | _ => none
  | .release p =>
    match s.pc p with
    | .holding f => some (s.goto p (.releasing f))
    | _ => none
  | .exit p => some ((s.drop p).goto p .idle)

end LockState

/-- Nobody has started; the path may name a file a dead holder left. -/
structure Quiet {P : Type*} (s : LockState P) : Prop where
  fds : s.fds = []
  locks : s.locks = []
  pc : ∀ p, s.pc p = .idle
  trace : s.trace = []

def LockState.quiet (P : Type*) (path : Option File) : LockState P where
  path := path
  nextSerial := 0
  fds := []
  locks := []
  pc _ := .idle
  trace := []

theorem LockState.quiet_quiet (P : Type*) (path : Option File) :
    Quiet (LockState.quiet P path) := ⟨rfl, rfl, fun _ => rfl, rfl⟩

/-- **The contenders of a lock path.** -/
def lockMachine (P : Type*) [DecidableEq P] : Machine (LockState P) (LockInput P) where
  init := Quiet
  step s i := s.step i

end Instance

end LibreDarwin
