import LibreDarwin.Frontend.Model.Frontend

/-!
# One document, alone or in a batch

The handlers of Sign and SignBatch repeat one another up to the loop over
the documents, and a loop over one document is its body. So the two are
alike (`sign_alike_batch`): they ask and read the same, are refused with
the same error, and launch with the same parameters.
-/

namespace LibreDarwin

namespace Frontend

open Wire Transport Script

variable {V Trust : Type*} {A : Agent V Trust} {o : Outside} {s : FrontendState V}
variable {n : ℕ} {i : Inbound}

/-- The batch of the one document of a signature request. -/
def Sign.asBatch (msg : Sign) (name : String) : SignBatch where
  card := msg.card
  cert := msg.cert
  docs := [⟨name, msg.inFd⟩]
  opts := msg.opts

/-- An inbound that carries another request. -/
def Inbound.carrying (i : Inbound) (body : Request) : Inbound :=
  { i with request := { i.request with body := body } }

/-- **Launches that sign alike**: one target, one set of parameters but for
the document and its name, which the batch has in its list. -/
inductive SignsAlike (L : Library V) (opts : SignOpts) (name : String) : Ending → Ending → Prop
  | mk (target : OperationTarget) (p : SignParams) :
    p.displayName = L.sanitizeLabel (opts.displayName.getD "") →
    SignsAlike L opts name (.launch target (.sign p) true)
      (.launch target
        (.signBatch { p with inputDocument := [], displayName := "" }
          [⟨L.sanitizeLabel name, p.inputDocument⟩]) false)

/-- The loop over one document is one read. -/
theorem readDocument_alike (index : ℕ) (name : String) :
    Alike (fun doc inputs => inputs = [⟨A.library.sanitizeLabel name, doc⟩])
      (readDocument o n i A.library.kMaxInputBytes index)
      (forEach (readEntry A o n i) [⟨name, index⟩]) := by
  rw [forEach_singleton]
  refine Alike.map_right (P := fun doc input => input = ⟨A.library.sanitizeLabel name, doc⟩) ?_ ?_
  · exact (Alike.refl _).map_right fun doc doc' heq => by rw [heq]
  · rintro doc input rfl
    rfl

/-- **Sign and a batch of its document agree**: they ask the same gates and
read the same descriptor, and are refused with the same error, or launch
alike. -/
theorem sign_alike_batch (msg : Sign) (name : String)
    (hcount : A.library.isValidBatchDocumentCount 1 = true) :
    Alike (SignsAlike A.library msg.opts name)
      (handle A o s n (i.carrying (.sign msg)))
      (handle A o s n (i.carrying (.signBatch (msg.asBatch name)))) := by
  -- the card, the certificate, the authorizer and the limiter are one script
  refine Alike.bind_left _ fun routing => ?_
  refine Alike.bind_left _ fun _ => ?_
  refine Alike.bind_left _ fun _ => ?_
  refine Alike.bind_left _ fun _ => ?_
  -- a check that the batch has alone, and that one document passes
  have hone : (!A.library.isValidBatchDocumentCount (msg.asBatch name).docs.length) = false := by
    rw [Bool.not_eq_false']
    exact hcount
  rw [hone, refuseIf_false_bind]
  refine Alike.bind (readDocument_alike (A := A) msg.inFd name) fun doc inputs hinputs => ?_
  subst hinputs
  refine Alike.bind_left _ fun resolved => ?_
  exact Alike.pure (.mk (operationTarget o i routing)
    (signParams msg.cert doc (A.library.sanitizeLabel (msg.opts.displayName.getD "")) resolved) rfl)

/-- A client with one document, once a card is in. -/
def bringsDocument : Inbound := ⟨1, callerToken 1, ⟨7, .getState⟩, [4]⟩

theorem sign_alike_batch_launches :
    ∃ s e, (frontend plainAgent).run (.start 0) [connects, insertsCard] = some s ∧
      (handle plainAgent (plainOutside 5 []) s 0 (bringsDocument.carrying (.sign plainSign))).result =
        .ok e ∧
      Alike (SignsAlike plainLibrary plainSign.opts "a.pdf")
        (handle plainAgent (plainOutside 5 []) s 0 (bringsDocument.carrying (.sign plainSign)))
        (handle plainAgent (plainOutside 5 []) s 0
          (bringsDocument.carrying (.signBatch (plainSign.asBatch "a.pdf")))) :=
  ⟨_, _, rfl, rfl, sign_alike_batch (A := plainAgent) plainSign "a.pdf" rfl⟩

end Frontend

end LibreDarwin
