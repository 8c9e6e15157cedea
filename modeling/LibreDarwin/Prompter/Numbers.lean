import LibreDarwin.Prompter.Parsing
import LibreDarwin.Prompter.Model.Library

/-!
# Numbers on the prompter's wire

An integer crosses the wire at 64 bits and is held at 32. A version is
judged at its full width first; the other numbers are cut down unjudged,
so they are what was carried exactly while what was carried fits
(`exact_iff_narrow`). Past that a deadline of `2 ^ 32` milliseconds is
read as none at all.
-/

namespace LibreDarwin

namespace Prompter

open Wire

variable {L : AgentLibrary} {m : CborMap} {k : String} {n : UInt32} {body : Bytes}

/-- **A number is what was carried**, or the default of an absent key. -/
def Exact (m : CborMap) (k : String) (n : UInt32) : Prop :=
  m[k]? = none ∧ n = 0 ∨ ∃ carried, m[k]? = some (.uint carried) ∧ n.toNat = carried.toNat

/-- What is carried under a key fits the field. -/
def Narrow (m : CborMap) (k : String) : Prop :=
  ∀ carried, m[k]? = some (.uint carried) → carried.toNat < 2 ^ 32

/-- And a version: absent, or the one announced. -/
def ExactVersion (m : CborMap) (version : Option UInt32) : Prop :=
  m["v"]? = none ∧ version = none ∨
    ∃ carried v, m["v"]? = some (.uint carried) ∧ version = some v ∧ v.toNat = carried.toNat

theorem HasUint.exact_iff_narrow (h : HasUint m k n) : Exact m k n ↔ Narrow m k := by
  obtain ⟨read, hread, rfl⟩ := h
  rcases optUint_eq_some.1 hread with ⟨hnone, rfl⟩ | hsome
  · refine iff_of_true (.inl ⟨hnone, rfl⟩) ?_
    intro carried hcarried
    rw [hnone] at hcarried
    cases hcarried
  · have hmod : read.toUInt32.toNat = read.toNat % 2 ^ 32 := rfl
    constructor
    · rintro (⟨hnone, -⟩ | ⟨carried, hcarried, heq⟩) carried' hcarried'
      · rw [hsome] at hnone
        cases hnone
      · rw [hsome] at hcarried hcarried'
        cases hcarried
        cases hcarried'
        have := Nat.mod_lt read.toNat (show 0 < 2 ^ 32 by decide)
        omega
    · intro hnarrow
      have := hnarrow read hsome
      exact .inr ⟨read, hsome, by omega⟩

theorem StatusIn.exactVersion {status : PromptReplyStatus} {msg : String} {v : Option UInt32}
    (h : StatusIn L m status msg v) : ExactVersion m v := by
  rcases optReplyVersion_eq_ok.1 h.protocolVersion with hnone | ⟨carried, hsome, hle, rfl⟩
  · exact .inl hnone
  · refine .inr ⟨carried, _, hsome, rfl, ?_⟩
    have hmod : carried.toUInt32.toNat = carried.toNat % 2 ^ 32 := rfl
    have hbound : carried.toNat ≤ 2 ^ 32 - 1 := UInt64.le_iff_toNat_le.1 hle
    omega

/-! ## Requests -/

/-- The 32-bit fields of a request, each with the key it is carried under. -/
def PrompterRequest.numbers : PrompterRequest → List (String × UInt32)
  | .prompt r =>
    [("minLength", r.minLength), ("maxLength", r.maxLength), ("attempt", r.attempt),
      ("deadlineMs", r.deadlineMs), ("altDeadlineMs", r.altDeadlineMs)]
  | .secrets r =>
    [("primaryMinLength", r.primaryMinLength), ("primaryMaxLength", r.primaryMaxLength),
      ("newMinLength", r.newMinLength), ("newMaxLength", r.newMaxLength),
      ("deadlineMs", r.deadlineMs)]
  | .cancel _ | .confirm _ | .reset => []

/-- The numeric keys of the request a map holds. -/
def numericKeys (m : CborMap) : List String :=
  if m["t"]? = some (.text "RequestSecret") then
    ["minLength", "maxLength", "attempt", "deadlineMs", "altDeadlineMs"]
  else if m["t"]? = some (.text "RequestSecrets") then
    ["primaryMinLength", "primaryMaxLength", "newMinLength", "newMaxLength", "deadlineMs"]
  else []

namespace PrompterRequest.In

variable {r : PrompterRequest}

theorem keys (h : r.In L m) : r.numbers.map Prod.fst = numericKeys m := by
  cases r with
  | prompt r => simp [numbers, numericKeys, h.1]
  | secrets r => simp [numbers, numericKeys, h.1]
  | cancel r => simp [numbers, numericKeys, h.1]
  | confirm r => simp [numbers, numericKeys, h.1]
  | reset =>
    have ht : m["t"]? = some (.text "Reset") := h
    simp [numbers, numericKeys, ht]

theorem hasUint (h : r.In L m) : ∀ e ∈ r.numbers, HasUint m e.1 e.2 := by
  cases r with
  | prompt r =>
    have hin := h.2
    simp [numbers, hin.minLength, hin.maxLength, hin.attempt, hin.deadlineMs, hin.altDeadlineMs]
  | secrets r =>
    have hin := h.2
    simp [numbers, hin.primaryMinLength, hin.primaryMaxLength, hin.newMinLength,
      hin.newMaxLength, hin.deadlineMs]
  | _ => simp [numbers]

theorem exact_iff (h : r.In L m) :
    (∀ e ∈ r.numbers, Exact m e.1 e.2) ↔ ∀ k ∈ numericKeys m, Narrow m k := by
  rw [← h.keys, List.forall_mem_map]
  exact forall₂_congr fun e he => (h.hasUint e he).exact_iff_narrow

end PrompterRequest.In

/-- **When a number is exact.** A version always is; the numbers of a
request and the count of a reset are exactly if everything carried under
the numeric keys of the message fits 32 bits. -/
theorem numbers_exact_iff (hm : topMap L body = .ok m) :
    (∀ r, parsePrompterRequest L body = .ok r →
      ((∀ e ∈ r.numbers, Exact m e.1 e.2) ↔ ∀ k ∈ numericKeys m, Narrow m k)) ∧
    (∀ r, parseResetDone L body = .ok r → (Exact m "closed" r.closed ↔ Narrow m "closed")) ∧
    (∀ r, parsePromptReply L body = .ok r → ExactVersion m r.protocolVersion) ∧
    (∀ r, parseMultiPromptReply L body = .ok r → ExactVersion m r.protocolVersion) ∧
    (∀ r, parseConfirmReply L body = .ok r → ExactVersion m r.protocolVersion) := by
  refine ⟨fun r h => ?_, fun r h => ?_, fun r h => ?_, fun r h => ?_, fun r h => ?_⟩
  · obtain ⟨m', hm', -, hin⟩ := parsePrompterRequest_eq_ok.1 h
    obtain rfl := Except.ok.inj (hm.symm.trans hm')
    exact hin.exact_iff
  · obtain ⟨m', hm', -, hclosed⟩ := parseResetDone_eq_ok.1 h
    obtain rfl := Except.ok.inj (hm.symm.trans hm')
    exact hclosed.exact_iff_narrow
  · obtain ⟨m', hm', hstatus, -⟩ := parsePromptReply_eq_ok.1 h
    obtain rfl := Except.ok.inj (hm.symm.trans hm')
    exact hstatus.exactVersion
  · obtain ⟨m', hm', hstatus, -⟩ := parseMultiPromptReply_eq_ok.1 h
    obtain rfl := Except.ok.inj (hm.symm.trans hm')
    exact hstatus.exactVersion
  · obtain ⟨m', hm', hstatus, -⟩ := parseConfirmReply_eq_ok.1 h
    obtain rfl := Except.ok.inj (hm.symm.trans hm')
    exact hstatus.exactVersion

/-- A prompt for a PIN with a deadline of so many milliseconds. -/
def pinWithin (deadlineMs : UInt64) : CborMap :=
  ofFields [("t", some (.text "RequestSecret")), ("kind", some (.text "pin")),
    ("deadlineMs", some (.uint deadlineMs))]

theorem topMap_pinWithin (deadlineMs : UInt64)
    (h : plainLibrary.decode (plainLibrary.encode (.ofMap (pinWithin deadlineMs))) =
      some (.ofMap (pinWithin deadlineMs))) :
    topMap plainLibrary (plainLibrary.encode (.ofMap (pinWithin deadlineMs))) =
      .ok (pinWithin deadlineMs) := topMap_encode h

/-- A minute. -/
theorem numbers_exact_iff_minute :
    (∀ e ∈ (PrompterRequest.prompt { kind := .pin, deadlineMs := 60000 }).numbers,
      Exact (pinWithin 60000) e.1 e.2) ↔
        ∀ k ∈ numericKeys (pinWithin 60000), Narrow (pinWithin 60000) k :=
  (numbers_exact_iff (topMap_pinWithin 60000 (by decide +kernel))).1 _ (by decide +kernel)

/-- **The longest deadline is none.** -/
theorem deadline_reduced :
    topMap plainLibrary (plainLibrary.encode (.ofMap (pinWithin (2 ^ 32)))) =
      .ok (pinWithin (2 ^ 32)) ∧
    (pinWithin (2 ^ 32))["deadlineMs"]? = some (.uint 4294967296) ∧
    parsePrompterRequest plainLibrary (plainLibrary.encode (.ofMap (pinWithin (2 ^ 32)))) =
      .ok (.prompt { kind := .pin, deadlineMs := 0 }) ∧
    ¬Exact (pinWithin (2 ^ 32)) "deadlineMs" 0 := by
  have hcarried : (pinWithin (2 ^ 32))["deadlineMs"]? = some (.uint 4294967296) := by decide +kernel
  refine ⟨topMap_pinWithin _ (by decide +kernel), hcarried, by decide +kernel, ?_⟩
  rintro (⟨hnone, -⟩ | ⟨carried, hsome, heq⟩)
  · rw [hcarried] at hnone
    cases hnone
  · rw [hcarried] at hsome
    cases hsome
    revert heq
    decide

end Prompter

end LibreDarwin
