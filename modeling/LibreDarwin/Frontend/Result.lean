import LibreDarwin.Frontend.Departed
import LibreDarwin.Frontend.Model.Result
import LibreDarwin.Wire.Model.AnonFd

/-!
# What an emitted result leaves behind

A visit of a payload writes nothing down but the stash of a signed
artifact, and only `postResult` comes after it. So a result that is not
emitted leaves nothing, unless the stash was posted and something was
thrown after it (`all_or_nothing_iff`). One that is emitted is one frame,
in which every item has the index of a file with its bytes
(`result_descriptors`).
-/

namespace LibreDarwin

namespace SocketOperationChannel

open Wire Transport Script
open Frontend (SignedArtifact OpId)

/-! ## Bytes behind a descriptor -/

theorem pwrite_at_end {file data : Bytes} : pwrite file data file.length = file ++ data := by
  simp [pwrite]

/-- **The write loop** has written what comes before `off`, however the
kernel cuts it up. -/
theorem writeLoop_eq {bytes file file' : Bytes} {answers : List PwriteAnswer} {off : ℕ}
    (h : writeLoop bytes answers file off = some file') (hfile : file = bytes.take off) :
    file' = bytes := by
  have hdone : ∀ off, ¬off < bytes.length → bytes.take off = bytes := fun off hoff =>
    List.take_of_length_le (not_lt.1 hoff)
  induction answers generalizing file off with
  | nil =>
    rw [writeLoop] at h
    split at h
    · cases h
    · rename_i hoff
      rw [← Option.some.inj h, hfile, hdone off hoff]
  | cons answer answers ih =>
    unfold writeLoop at h
    split at h
    · rename_i hoff
      cases answer with
      | failed => cases h
      | interrupted => exact ih h hfile
      | wrote count =>
        -- the file grows by the next `count` bytes, and is a start of them still
        dsimp only at h
        split at h
        · cases h
        · refine ih h ?_
          have hlen : file.length = off := by
            rw [hfile, List.length_take]
            omega
          rw [List.take_add, ← hfile, ← hlen]
          exact pwrite_at_end
    · rename_i hoff
      rw [← Option.some.inj h, hfile, hdone off hoff]

/-- **A descriptor that is had holds the bytes**, and is positioned at the
start. -/
theorem anonFdFromBytes_eq {kernel : FileAnswers} {bytes : Bytes} {file : OpenFile}
    (h : anonFdFromBytes kernel bytes = some file) : file = ⟨bytes, 0⟩ := by
  rw [anonFdFromBytes] at h
  split at h
  · obtain ⟨content, hcontent, rfl⟩ := Option.map_eq_some_iff.1 h
    rw [writeLoop_eq hcontent rfl]
  · cases h

/-! ## The visit -/

/-- The bytes that go behind descriptors, in order. -/
def Payload.items : Payload → List Bytes
  | .photos ps => ps.map PhotoSnapshot.bytes
  | .artifact a => [a.bytes]
  | .batch rs => rs.map BatchSignedRow.bytes
  | .cardRead _ | .certs _ | .credentials _ => []

/-- What a payload is on the wire: every item with its place. -/
def Payload.onWire : Payload → WireResult
  | .cardRead b => .identity b
  | .certs cs => .certificates cs
  | .photos ps => .photos (ps.mapIdx fun i p => ⟨p.key, i⟩)
  | .artifact a => .sign 0 a.info
  | .batch rs => .signBatch (rs.mapIdx fun i r => ⟨r.displayName, i, r.info, r.code⟩)
  | .credentials b => .credentials b

/-- The indices a result names, in order. -/
def WireResult.indices : WireResult → List ℕ
  | .photos items => items.map PhotoItem.photo
  | .sign artifact _ => [artifact]
  | .signBatch rows => rows.map SignBatchRow.artifact
  | .identity _ | .certificates _ | .credentials _ => []

/-- The stashes of a payload that is emitted. -/
def Payload.stashes {δ : Type} (channel : Channel) : Payload → List (Posted δ)
  | .artifact a => if channel.onSignArtifact then [.stash channel.opId a] else []
  | _ => []

section Visit

variable {δ ι ω : Type} {throws : EmitStep → Bool} {anonFd : ℕ → Bytes → Option δ}
variable {channel : Channel} {payload : Payload} {fds : List δ}

@[simp] theorem mayThrow_ok {step : EmitStep} {u : Unit} :
    (mayThrow throws step : Emitting δ Unit).result = .ok u ↔ throws step = false :=
  result_refuseIf

@[simp] theorem mayThrow_log {step : EmitStep} :
    (mayThrow throws step : Emitting δ Unit).log = [] := log_refuseIf

theorem materializeAt_ok {index : ℕ} {bytes : Bytes} {fd : δ} :
    (materializeAt throws anonFd index bytes).result = .ok fd ↔
      throws (.materialize index) = false ∧ anonFd index bytes = some fd ∧
        throws (.collect index) = false := by
  simp only [materializeAt, result_bind, mayThrow_ok, result_ofOption, result_pure]
  constructor
  · rintro ⟨-, hmat, fd', hfd, -, hcol, rfl⟩
    exact ⟨hmat, hfd, hcol⟩
  · rintro ⟨hmat, hfd, hcol⟩
    exact ⟨(), hmat, fd, hfd, (), hcol, rfl⟩

/-- **The loop, when it ends**: one descriptor for each item, in order,
and every item names its own. -/
theorem materializeAll_ok {bytes : ι → Bytes} {item : ι → ℕ → ω} {file : Bytes → δ}
    (hfile : ∀ k b fd, anonFd k b = some fd → fd = file b) {xs : List ι}
    {out : List ω × List δ}
    (h : (materializeAll throws anonFd bytes item fds xs).result = .ok out) :
    out = (xs.mapIdx fun i x => item x (fds.length + i), fds ++ xs.map fun x => file (bytes x)) := by
  induction xs generalizing fds out with
  | nil =>
    rw [materializeAll, result_pure] at h
    simp [← h]
  | cons x xs ih =>
    simp only [materializeAll, result_bind, result_pure] at h
    obtain ⟨fd, hfd, rest, hrest, rfl⟩ := h
    obtain ⟨-, hfd, -⟩ := materializeAt_ok.1 hfd
    rw [ih hrest, hfile _ _ _ hfd]
    simp [List.mapIdx_cons, Nat.add_comm, Nat.add_left_comm]

theorem materializeAt_log {index : ℕ} {bytes : Bytes} :
    (materializeAt throws anonFd index bytes).log = [] :=
  log_bind_eq_nil mayThrow_log fun _ => log_bind_eq_nil log_ofOption fun _ =>
    log_bind_eq_nil mayThrow_log fun _ => rfl

theorem materializeAll_log {bytes : ι → Bytes} {item : ι → ℕ → ω} {xs : List ι} :
    (materializeAll throws anonFd bytes item fds xs).log = [] := by
  induction xs generalizing fds with
  | nil => rfl
  | cons x xs ih =>
    exact log_bind_eq_nil materializeAt_log fun _ => log_bind_eq_nil ih fun _ => rfl

/-- A visit of anything but a signed artifact posts nothing. -/
theorem visit_log (h : ∀ a, payload ≠ .artifact a) :
    (visit throws anonFd channel payload).log = [] := by
  cases payload with
  | artifact a => exact absurd rfl (h a)
  | photos ps => exact log_bind_eq_nil materializeAll_log fun _ => rfl
  | batch rs => exact log_bind_eq_nil materializeAll_log fun _ => rfl
  | cardRead b => exact log_bind_eq_nil mayThrow_log fun _ => rfl
  | certs cs => exact log_bind_eq_nil mayThrow_log fun _ => rfl
  | credentials b => exact log_bind_eq_nil mayThrow_log fun _ => rfl

/-- Whether the stash of a signed artifact is reached and posted. -/
def Stashed (throws : EmitStep → Bool) (anonFd : ℕ → Bytes → Option δ) (channel : Channel)
    (a : SignedArtifact) : Prop :=
  channel.onSignArtifact = true ∧ (anonFd 0 a.bytes).isSome = true ∧
    throws (.materialize 0) = false ∧ throws (.collect 0) = false ∧ throws .stash = false

/-- **The visit of a signed artifact** ends with the stash posted, or posts
nothing. -/
theorem visit_artifact_log (throws : EmitStep → Bool) (anonFd : ℕ → Bytes → Option δ)
    (channel : Channel) (a : SignedArtifact) :
    (Stashed throws anonFd channel a ∧
        (∃ out, (visit throws anonFd channel (.artifact a)).result = .ok out) ∧
        (visit throws anonFd channel (.artifact a)).log = [.stash channel.opId a]) ∨
      ¬Stashed throws anonFd channel a ∧ (visit throws anonFd channel (.artifact a)).log = [] := by
  rw [visit]
  cases hfd : (materializeAt throws anonFd 0 a.bytes).result with
  | error e =>
    -- no descriptor: the sink is not reached
    refine .inr ⟨?_, (bind_of_error hfd).1.trans materializeAt_log⟩
    rintro ⟨-, hsome, hmat, hcol, -⟩
    obtain ⟨fd, hfd'⟩ := Option.isSome_iff_exists.1 hsome
    rw [materializeAt_ok.2 ⟨hmat, hfd', hcol⟩] at hfd
    cases hfd
  | ok fd =>
    obtain ⟨hmat, hfd', hcol⟩ := materializeAt_ok.1 hfd
    rw [(bind_of_ok hfd).1, (bind_of_ok hfd).2, materializeAt_log, List.nil_append, Stashed,
      stashArtifact]
    cases hsink : channel.onSignArtifact with
    | false => exact .inr ⟨by simp, rfl⟩
    | true =>
      rw [if_pos rfl, mayThrow]
      cases hstash : throws .stash with
      | true => exact .inr ⟨by simp, rfl⟩
      | false => exact .inl ⟨⟨rfl, by rw [hfd']; rfl, hmat, hcol, rfl⟩, ⟨_, rfl⟩, rfl⟩

/-- The steps after the visit. -/
def lateSteps : List EmitStep := [.encode, .share, .post]

theorem postResult_cases (throws : EmitStep → Bool) (channel : Channel) (result : WireResult)
    (fds : List δ) :
    ((∀ step ∈ lateSteps, throws step = false) ∧
        (postResult throws channel result fds).result = .ok () ∧
        (postResult throws channel result fds).log =
          [.sendTo channel.connId channel.opId result fds]) ∨
      (∃ step ∈ lateSteps, throws step = true) ∧
        (postResult throws channel result fds).result = .error () ∧
        (postResult throws channel result fds).log = [] := by
  simp only [lateSteps, List.mem_cons, List.not_mem_nil, or_false, forall_eq_or_imp, forall_eq,
    exists_eq_or_imp, exists_eq_left, postResult, mayThrow]
  cases hencode : throws .encode with
  | true => exact .inr ⟨.inl rfl, rfl, rfl⟩
  | false =>
    cases hshare : throws .share with
    | true => exact .inr ⟨.inr (.inl rfl), rfl, rfl⟩
    | false =>
      cases hpost : throws .post with
      | true => exact .inr ⟨.inr (.inr rfl), rfl, rfl⟩
      | false => exact .inl ⟨⟨rfl, rfl, rfl⟩, rfl, rfl⟩

/-- A visit that ends has posted the stash its payload has. -/
theorem visit_ok_log {out : WireResult × List δ}
    (h : (visit throws anonFd channel payload).result = .ok out) :
    (visit throws anonFd channel payload).log = payload.stashes channel := by
  by_cases hart : ∃ a, payload = .artifact a
  · obtain ⟨a, rfl⟩ := hart
    rw [Payload.stashes]
    rcases visit_artifact_log throws anonFd channel a with
      ⟨hstashed, -, hlog⟩ | ⟨hnot, hlog⟩
    · rw [if_pos hstashed.1, hlog]
    · rw [hlog]
      -- the visit ended and nothing was posted: there is no sink
      simp only [visit, result_bind, materializeAt_ok] at h
      obtain ⟨fd, ⟨hmat, hfd, hcol⟩, u, hsink, -⟩ := h
      rw [if_neg]
      intro hon
      rw [stashArtifact, if_pos hon, result_bind] at hsink
      obtain ⟨_, hstash, -⟩ := hsink
      exact hnot ⟨hon, by rw [hfd]; rfl, hmat, hcol, mayThrow_ok.1 hstash⟩
  · rw [visit_log fun a ha => hart ⟨a, ha⟩]
    cases payload with
    | artifact a => exact absurd ⟨a, rfl⟩ hart
    | _ => rfl

/-- **A visit that ends** has every item on the wire, and a descriptor for
each. -/
theorem visit_ok (file : Bytes → δ) (hfile : ∀ k b fd, anonFd k b = some fd → fd = file b)
    {out : WireResult × List δ} (h : (visit throws anonFd channel payload).result = .ok out) :
    out = (payload.onWire, payload.items.map file) := by
  cases payload with
  | photos ps =>
    simp only [visit, result_bind, result_pure] at h
    obtain ⟨items, hitems, rfl⟩ := h
    rw [materializeAll_ok hfile hitems]
    simp [Payload.onWire, Payload.items]
  | batch rs =>
    simp only [visit, result_bind, result_pure] at h
    obtain ⟨items, hitems, rfl⟩ := h
    rw [materializeAll_ok hfile hitems]
    simp [Payload.onWire, Payload.items]
  | artifact a =>
    simp only [visit, result_bind, result_pure, materializeAt_ok] at h
    obtain ⟨fd, ⟨-, hfd, -⟩, -, -, rfl⟩ := h
    rw [hfile _ _ _ hfd]
    rfl
  | cardRead b =>
    simp only [visit, inline, result_bind, result_pure] at h
    obtain ⟨-, -, rfl⟩ := h
    rfl
  | certs cs =>
    simp only [visit, inline, result_bind, result_pure] at h
    obtain ⟨-, -, rfl⟩ := h
    rfl
  | credentials b =>
    simp only [visit, inline, result_bind, result_pure] at h
    obtain ⟨-, -, rfl⟩ := h
    rfl

/-- **How `emitResult` ends**: with the frame after what the visit posted,
or with what the visit posted alone. -/
theorem emitResult_cases (throws : EmitStep → Bool) (anonFd : ℕ → Bytes → Option δ)
    (channel : Channel) (payload : Payload) :
    (∃ out, (visit throws anonFd channel payload).result = .ok out ∧
        (∀ step ∈ lateSteps, throws step = false) ∧
        (emitResult throws anonFd channel payload).result = .ok () ∧
        (emitResult throws anonFd channel payload).log =
          (visit throws anonFd channel payload).log ++
            [.sendTo channel.connId channel.opId out.1 out.2]) ∨
      (∀ out, (visit throws anonFd channel payload).result = .ok out →
          ∃ step ∈ lateSteps, throws step = true) ∧
        (emitResult throws anonFd channel payload).result = .error () ∧
        (emitResult throws anonFd channel payload).log =
          (visit throws anonFd channel payload).log := by
  rw [emitResult]
  cases hvisit : (visit throws anonFd channel payload).result with
  | error e =>
    obtain ⟨hlog, herror⟩ := bind_of_error (f := fun out : WireResult × List δ =>
      postResult throws channel out.1 out.2) hvisit
    exact .inr ⟨fun _ h => absurd h (by simp), herror, hlog⟩
  | ok out =>
    obtain ⟨hlog, hresult⟩ := bind_of_ok (f := fun out : WireResult × List δ =>
      postResult throws channel out.1 out.2) hvisit
    rw [hlog, hresult]
    rcases postResult_cases throws channel out.1 out.2 with
      ⟨hquiet, hok, hsent⟩ | ⟨hthrown, herror, hnil⟩
    · exact .inl ⟨out, rfl, hquiet, hok, by rw [hsent]⟩
    · exact .inr ⟨fun _ _ => hthrown, herror, by rw [hnil, List.append_nil]⟩

/-! ## All or nothing -/

/-- **A result leaves all or nothing**: nothing at all where it is not
emitted, else one frame, and the record a signed artifact has. -/
structure AllOrNothing (channel : Channel) (payload : Payload) (x : Emitting δ Unit) : Prop where
  failed : x.result = .error () → x.log = []
  emitted : x.result = .ok () → ∃ result fds,
    x.log = payload.stashes channel ++ [.sendTo channel.connId channel.opId result fds]

/-- The stash is posted, and something is thrown after it. -/
def Payload.StashedThenThrown (throws : EmitStep → Bool) (anonFd : ℕ → Bytes → Option δ)
    (channel : Channel) : Payload → Prop
  | .artifact a => Stashed throws anonFd channel a ∧ ∃ step ∈ lateSteps, throws step = true
  | _ => False

/-- **A result leaves all or nothing exactly when** no signed artifact is
stashed before something is thrown. -/
theorem all_or_nothing_iff (throws : EmitStep → Bool) (anonFd : ℕ → Bytes → Option δ)
    (channel : Channel) (payload : Payload) :
    AllOrNothing channel payload (emitResult throws anonFd channel payload) ↔
      ¬payload.StashedThenThrown throws anonFd channel := by
  rcases emitResult_cases throws anonFd channel payload with
    ⟨out, hvisit, hquiet, hok, hlog⟩ | ⟨hlate, herror, hlog⟩
  · -- it is emitted: nothing was thrown
    refine iff_of_true ⟨fun h => ?_, fun _ => ⟨out.1, out.2, ?_⟩⟩ fun hthen => ?_
    · rw [hok] at h
      cases h
    · rw [hlog, visit_ok_log hvisit]
    · cases payload with
      | artifact a =>
        obtain ⟨-, step, hstep, hthrown⟩ := hthen
        rw [hquiet step hstep] at hthrown
        cases hthrown
      | _ => exact hthen
  · -- it is not: what is left is what the visit posted
    have hiff : AllOrNothing channel payload (emitResult throws anonFd channel payload) ↔
        (visit throws anonFd channel payload).log = [] := by
      rw [← hlog]
      refine ⟨fun h => h.failed herror, fun h => ⟨fun _ => h, fun hok => ?_⟩⟩
      rw [herror] at hok
      cases hok
    rw [hiff]
    by_cases hart : ∃ a, payload = .artifact a
    · obtain ⟨a, rfl⟩ := hart
      rcases visit_artifact_log throws anonFd channel a with
        ⟨hstashed, ⟨out, hvisit⟩, hvlog⟩ | ⟨hnot, hvlog⟩
      · rw [hvlog]
        exact iff_of_false (List.cons_ne_nil _ _) (not_not.2 ⟨hstashed, hlate out hvisit⟩)
      · exact iff_of_true hvlog fun hthen => hnot hthen.1
    · refine iff_of_true (visit_log fun a ha => hart ⟨a, ha⟩) fun hthen => ?_
      cases payload with
      | artifact a => exact hart ⟨a, rfl⟩
      | _ => exact hthen

end Visit

/-- **The descriptors of an emitted result.** Every item is on the wire
once and in its order, the indices are those of the descriptors sent with
it, and each descriptor is open on its item's bytes, at the start. -/
theorem result_descriptors {throws : EmitStep → Bool} {kernel : ℕ → FileAnswers}
    {channel : Channel} {payload : Payload}
    (h : (emitResult throws (fun k => anonFdFromBytes (kernel k)) channel payload).result = .ok ()) :
    ∃ fds : List OpenFile,
      (emitResult throws (fun k => anonFdFromBytes (kernel k)) channel payload).log =
        payload.stashes channel ++
          [.sendTo channel.connId channel.opId payload.onWire fds] ∧
      payload.onWire.indices = List.range fds.length ∧ fds.length = payload.items.length ∧
      ∀ (k : ℕ) b, payload.items[k]? = some b → fds[k]? = some ⟨b, 0⟩ := by
  rcases emitResult_cases throws (fun k => anonFdFromBytes (kernel k)) channel payload with
    ⟨out, hvisit, -, -, hlog⟩ | ⟨-, herror, -⟩
  swap
  · rw [h] at herror
    cases herror
  have hout := visit_ok (fun b => OpenFile.mk b 0) (fun k b fd hfd => anonFdFromBytes_eq hfd) hvisit
  have hindices : payload.onWire.indices = List.range payload.items.length := by
    cases payload with
    | photos ps =>
      exact List.ext_getElem (by simp [Payload.onWire, WireResult.indices, Payload.items])
        (by simp [Payload.onWire, WireResult.indices])
    | batch rs =>
      exact List.ext_getElem (by simp [Payload.onWire, WireResult.indices, Payload.items])
        (by simp [Payload.onWire, WireResult.indices])
    | _ => rfl
  refine ⟨out.2, ?_, ?_, ?_, fun k b hb => ?_⟩
  · rw [hlog, visit_ok_log hvisit, hout]
  · rw [hindices, hout, List.length_map]
  · rw [hout, List.length_map]
  · rw [hout, List.getElem?_map, hb]
    rfl

/-- Two rows, the second of which failed; the kernel takes one byte at a
time and interrupts. -/
def twoRows : Payload :=
  .batch [⟨"a.pdf", [1, 2], ⟨"pades", "b-b", false, true⟩, 0⟩,
    ⟨"b.pdf", [], ⟨"", "", false, false⟩, 3⟩]

theorem result_descriptors_two : ∃ fds : List OpenFile,
    (emitResult (fun _ => false)
        (fun _ => anonFdFromBytes ⟨true, [.wrote 1, .interrupted, .wrote 5]⟩) ⟨1, 5, true⟩
        twoRows).log =
      twoRows.stashes ⟨1, 5, true⟩ ++ [.sendTo 1 5 twoRows.onWire fds] ∧
      twoRows.onWire.indices = List.range fds.length ∧ fds.length = twoRows.items.length ∧
      ∀ (k : ℕ) b, twoRows.items[k]? = some b → fds[k]? = some ⟨b, 0⟩ :=
  result_descriptors rfl

/-! ## In the frontend -/

section Frontend

open Frontend

variable {anonFd : Bytes → Option Fd} {op : OpId} {x : Operation} {ι ω : Type}

/-- A payload as the frontend's emission has it. -/
def Payload.emission : Payload → OperationChannel.ResultPayload
  | .cardRead b => .cardRead b
  | .certs cs => .certs cs
  | .photos ps => .photos (ps.map fun p => (p.key, p.bytes))
  | .artifact a => .artifact a.bytes
  | .batch rs => .batch (rs.map fun r => (r.displayName, r.bytes))
  | .credentials b => .credentials b

def Payload.info : Payload → SignMeta
  | .artifact a => a.info
  | _ => ⟨"", "", false, false⟩

def WireResult.opResult : WireResult → OpResult
  | .identity b => .identity b
  | .certificates cs => .certificates cs
  | .photos is => .photos (is.map fun i => (i.key, i.photo))
  | .sign i _ => .sign i
  | .signBatch rs => .signBatch (rs.map fun r => (r.displayName, r.artifact))
  | .credentials b => .credentials b

/-- The block something posted is on the loop. -/
def Posted.block (owner : CallerToken) (payload : Payload) : Posted Fd → Frontend.Block
  | .stash opId a => .stash opId owner a
  | .sendTo connId opId result fds =>
    .event opId connId (.opResultReady opId result.opResult) fds (artifactBytes payload.emission)

theorem materializeAt_none {index : ℕ} {bytes : Bytes} (h : anonFd bytes = none) :
    (materializeAt (fun _ => false) (fun _ => anonFd) index bytes).result = .error () := by
  simp [materializeAt, mayThrow, refuseIf, ofOption, h, bind, andThen, pure, refuse]

/-- Where nothing is thrown the loop is the frontend's. -/
theorem materializeAll_quiet (anonFd : Bytes → Option Fd) (bytes : ι → Bytes) (key : ι → String)
    (item : ι → ℕ → ω) (pair : ω → String × ℕ) (hpair : ∀ x i, pair (item x i) = (key x, i))
    (fds : List Fd) (xs : List ι) :
    ((materializeAll (fun _ => false) (fun _ => anonFd) bytes item fds xs).result.toOption.map
        fun out => (out.1.map pair, out.2)) =
      OperationChannel.materialize anonFd fds (xs.map fun x => (key x, bytes x)) := by
  induction xs generalizing fds with
  | nil => rfl
  | cons x xs ih =>
    rw [List.map_cons, OperationChannel.materialize, materializeAll]
    cases hfd : anonFd (bytes x) with
    | none =>
      rw [(bind_of_error (materializeAt_none hfd)).2]
      rfl
    | some fd =>
      have hat : (materializeAt (fun _ => false) (fun _ => anonFd) fds.length (bytes x)).result =
          .ok fd := materializeAt_ok.2 ⟨rfl, hfd, rfl⟩
      rw [(bind_of_ok hat).2, Option.bind_some, ← ih]
      cases hrest : (materializeAll (fun _ => false) (fun _ => anonFd) bytes item (fds ++ [fd])
          xs).result with
      | error e =>
        rw [(bind_of_error hrest).2]
        rfl
      | ok rest =>
        rw [(bind_of_ok hrest).2]
        simp [pure, Except.toOption, hpair]

/-- The visit is what the frontend takes `emitResult` for. -/
theorem visit_quiet (anonFd : Bytes → Option Fd) (op : OpId) (channel : Channel)
    (payload : Payload) :
    ((visit (fun _ => false) (fun _ => anonFd) channel payload).result.toOption.map
        fun out => (Message.opResultReady op out.1.opResult, out.2)) =
      OperationChannel.emitResult anonFd op payload.emission := by
  cases payload with
  | photos ps =>
    have hloop := materializeAll_quiet anonFd PhotoSnapshot.bytes PhotoSnapshot.key
      (fun p i => PhotoItem.mk p.key i) (fun i => (i.key, i.photo)) (fun _ _ => rfl) [] ps
    rw [Payload.emission, OperationChannel.emitResult, ← hloop, visit]
    cases hout : (materializeAll (fun _ => false) (fun _ => anonFd) PhotoSnapshot.bytes
        (fun p i => PhotoItem.mk p.key i) [] ps).result with
    | error e =>
      rw [(bind_of_error hout).2]
      rfl
    | ok out =>
      rw [(bind_of_ok hout).2]
      rfl
  | batch rs =>
    have hloop := materializeAll_quiet anonFd BatchSignedRow.bytes BatchSignedRow.displayName
      (fun r i => SignBatchRow.mk r.displayName i r.info r.code)
      (fun r => (r.displayName, r.artifact)) (fun _ _ => rfl) [] rs
    rw [Payload.emission, OperationChannel.emitResult, ← hloop, visit]
    cases hout : (materializeAll (fun _ => false) (fun _ => anonFd) BatchSignedRow.bytes
        (fun r i => SignBatchRow.mk r.displayName i r.info r.code) [] rs).result with
    | error e =>
      rw [(bind_of_error hout).2]
      rfl
    | ok out =>
      rw [(bind_of_ok hout).2]
      rfl
  | artifact a =>
    rw [Payload.emission, OperationChannel.emitResult, visit]
    cases hfd : anonFd a.bytes with
    | none =>
      rw [(bind_of_error (materializeAt_none hfd)).2]
      rfl
    | some fd =>
      rw [(bind_of_ok (materializeAt_ok.2 ⟨rfl, hfd, rfl⟩)).2, stashArtifact]
      cases channel.onSignArtifact <;> rfl
  | _ => rfl

/-- **Where nothing is thrown**, what is posted is the frontend's
emission. -/
theorem emissionBlocks_eq (payload : Payload) :
    (emitResult (fun _ => false) (fun _ => anonFd) ⟨x.connId, op, x.onSignArtifact⟩ payload).log.map
        (Posted.block x.owner payload) =
      emissionBlocks anonFd op x (.result payload.emission payload.info) := by
  have hquiet := visit_quiet anonFd op ⟨x.connId, op, x.onSignArtifact⟩ payload
  rw [emissionBlocks, ← hquiet]
  rcases emitResult_cases (fun _ => false) (fun _ => anonFd) ⟨x.connId, op, x.onSignArtifact⟩
    payload with
    ⟨out, hvisit, -, -, hlog⟩ | ⟨hlate, -, hlog⟩
  · rw [hlog, hvisit, visit_ok_log hvisit, List.map_append]
    have hstash : (payload.stashes ⟨x.connId, op, x.onSignArtifact⟩).map
        (Posted.block x.owner payload) = stashBlock op x payload.info payload.emission := by
      cases payload with
      | artifact a =>
        rw [Payload.stashes, Payload.emission, stashBlock]
        split
        · rfl
        · rfl
      | _ => rfl
    rw [hstash]
    rfl
  · have hvisit : ∀ out, (visit (fun _ => false) (fun _ => anonFd)
        ⟨x.connId, op, x.onSignArtifact⟩ payload).result ≠ .ok out := by
      intro out hout
      obtain ⟨step, -, hthrown⟩ := hlate out hout
      cases hthrown
    have hnil : (visit (fun _ => false) (fun _ => anonFd)
        ⟨x.connId, op, x.onSignArtifact⟩ payload).log = [] := by
      by_cases hart : ∃ a, payload = .artifact a
      · obtain ⟨a, rfl⟩ := hart
        rcases visit_artifact_log _ _ _ a with ⟨-, ⟨out, hout⟩, -⟩ | ⟨-, hnil⟩
        · exact absurd hout (hvisit out)
        · exact hnil
      · exact visit_log fun a ha => hart ⟨a, ha⟩
    rw [hlog, hnil]
    cases hres : (visit (fun _ => false) (fun _ => anonFd)
        ⟨x.connId, op, x.onSignArtifact⟩ payload).result with
    | ok out => exact absurd hres (hvisit out)
    | error e => rfl

/-- A signed document whose event cannot be encoded. -/
def unencoded : Emitting Fd Unit :=
  emitResult (fun step => step = .encode) (fun _ _ => some 9) ⟨1, 5, true⟩
    (.artifact ⟨[1], ⟨"pades", "b-b", false, true⟩⟩)

def unencodedBlocks : List Frontend.Block :=
  unencoded.log.map
    (Posted.block (callerToken 1) (.artifact ⟨[1], ⟨"pades", "b-b", false, true⟩⟩))

/-- **An artifact of an operation that failed.** The event cannot be
encoded, so `emitResult` is false; the record is posted all the same, and
a later GetSignResult is answered with the document. -/
theorem all_or_nothing_stashed :
    unencoded.result = .error () ∧ unencoded.log ≠ [] ∧
      ∃ s t, (frontend plainAgent).run (.start 0)
          ([connects, insertsCard] ++ sendsRequest 1 [3, 7] [4] (plainOutside 5 [])) = some s ∧
        (frontend plainAgent).run { s with posted := s.posted ++ unencodedBlocks }
          ([.run quietOutside] ++ sendsRequest 1 [1, 8, 5] [] (plainOutside 6 [])) = some t ∧
        .replied 1 1 (.signRecovery 8 0 ⟨"pades", "b-b", false, true⟩) (some (5, [1])) true ∈ t.log :=
  ⟨rfl, List.cons_ne_nil _ _, _, _, rfl, rfl, List.mem_of_getLast? rfl⟩

end Frontend

end SocketOperationChannel

end LibreDarwin
