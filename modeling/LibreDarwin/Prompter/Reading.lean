import LibreDarwin.Prompter.Model.Protocol
import LibreDarwin.Common.Keyed

/-!
# What the readers of a field answer

One lemma for each reader of a map: when it succeeds, and with what. The
parsers are sequences of these, so `bind_eq_ok` and the lemmas here turn
"the message was accepted" into what its map holds; and `topMap_encode`
with the `_ofFields` lemmas say what a reader finds in an encoder's own
map.
-/

namespace LibreDarwin

/-- A step of a fallible sequence succeeds with what the next takes. -/
theorem bind_eq_ok {ε α β : Type} {x : Except ε α} {f : α → Except ε β} {b : β} :
    x >>= f = .ok b ↔ ∃ a, x = .ok a ∧ f a = .ok b := by
  cases x <;> simp [bind, Except.bind]

theorem map_eq_ok {ε α β : Type} {f : α → β} {x : Except ε α} {b : β} :
    f <$> x = .ok b ↔ ∃ a, x = .ok a ∧ f a = b := by
  cases x <;> simp [Functor.map, Except.map]

@[simp] theorem ok_bind {ε α β : Type} {a : α} {f : α → Except ε β} :
    (Except.ok a >>= f) = f a := rfl

@[simp] theorem error_bind {ε α β : Type} {e : ε} {f : α → Except ε β} :
    ((Except.error e : Except ε α) >>= f) = .error e := rfl

namespace Prompter

open Wire

variable {L : AgentLibrary} {m : CborMap} {k : String}

/-! ## Accessors -/

theorem asText_eq_some {value : CborValue} {s : String} :
    value.asText = some s ↔ value = .text s := by
  cases value <;> simp [CborValue.asText]

theorem asUInt_eq_some {value : CborValue} {n : UInt64} :
    value.asUInt = some n ↔ value = .uint n := by
  cases value <;> simp [CborValue.asUInt]

theorem asArray_eq_some {value : CborValue} {items : List CborValue} :
    value.asArray = some items ↔ value = .array items := by
  cases value <;> simp [CborValue.asArray]

theorem mapM_asText_eq_some {items : List CborValue} {words : List String} :
    items.mapM CborValue.asText = some words ↔ items = words.map .text := by
  induction items generalizing words with
  | nil => cases words <;> simp
  | cons item items ih =>
    rw [List.mapM_cons]
    constructor
    · intro h
      obtain ⟨w, hw, h⟩ := Option.bind_eq_some_iff.1 h
      obtain ⟨ws, hws, h⟩ := Option.bind_eq_some_iff.1 h
      obtain rfl := Option.some.inj h
      rw [asText_eq_some.1 hw, ih.1 hws]
      rfl
    · intro h
      cases words with
      | nil => cases h
      | cons w ws =>
        obtain ⟨rfl, hws⟩ := List.cons_eq_cons.1 h
        rw [ih.2 hws]
        rfl

/-! ## Readers -/

@[simp] theorem orWrongType_eq_ok {α : Type} {o : Option α} {a : α} :
    orWrongType o = .ok a ↔ o = some a := by
  cases o <;> simp [orWrongType]

theorem optText_eq_some {s : String} :
    optText m k = some s ↔ m[k]? = none ∧ s = "" ∨ m[k]? = some (.text s) := by
  rw [optText]
  cases m[k]? with
  | none => simp [eq_comm]
  | some value => simp [asText_eq_some]

theorem optUint_eq_some {n : UInt64} :
    optUint m k = some n ↔ m[k]? = none ∧ n = 0 ∨ m[k]? = some (.uint n) := by
  rw [optUint]
  cases m[k]? with
  | none => simp [eq_comm]
  | some value => simp [asUInt_eq_some]

theorem optStringArray_eq_some {words : List String} :
    optStringArray m k = some words ↔
      m[k]? = none ∧ words = [] ∨ m[k]? = some (.array (words.map .text)) := by
  rw [optStringArray]
  cases m[k]? with
  | none => simp [eq_comm]
  | some value =>
    simp only [Option.bind_eq_some_iff, asArray_eq_some, mapM_asText_eq_some, reduceCtorEq,
      false_and, Option.some.injEq, false_or]
    constructor
    · rintro ⟨items, rfl, rfl⟩
      rfl
    · rintro rfl
      exact ⟨_, rfl, rfl⟩

theorem optAnnouncedVersion_eq_ok {o : Option UInt64} :
    optAnnouncedVersion m = .ok o ↔
      m["v"]? = none ∧ o = none ∨ ∃ n, m["v"]? = some (.uint n) ∧ o = some n := by
  rw [optAnnouncedVersion]
  cases m["v"]? with
  | none => simp [eq_comm]
  | some value => cases value <;> simp [CborValue.asUInt, eq_comm]

theorem optReplyVersion_eq_ok {o : Option UInt32} :
    optReplyVersion m = .ok o ↔
      m["v"]? = none ∧ o = none ∨
        ∃ n, m["v"]? = some (.uint n) ∧ n ≤ 2 ^ 32 - 1 ∧ o = some n.toUInt32 := by
  rw [optReplyVersion, optAnnouncedVersion]
  cases m["v"]? with
  | none => simp [eq_comm]
  | some value =>
    cases value with
    | uint n =>
      by_cases hn : 2 ^ 32 - 1 < n
      · simp [CborValue.asUInt, hn, UInt64.not_le.2 hn]
      · simp [CborValue.asUInt, hn, UInt64.not_lt.1 hn, eq_comm]
    | _ => simp [CborValue.asUInt]

theorem requiredText_eq_ok {s : String} :
    requiredText m k = .ok s ↔ m[k]? = some (.text s) := by
  rw [requiredText]
  cases m[k]? with
  | none => simp
  | some value => cases value <;> simp [CborValue.asText]

theorem requiredSecret_eq_ok {b : Bytes} :
    requiredSecret L m k = .ok b ↔ m[k]? = some (.bytes b) ∧ b.length ≤ L.kMaxSecretBytes := by
  rw [requiredSecret]
  cases m[k]? with
  | none => simp
  | some value =>
    cases value with
    | bytes b' =>
      by_cases hb : L.kMaxSecretBytes < b'.length
      · simp only [CborValue.asBytes, Option.bind_some, if_pos hb, reduceCtorEq, Option.some.injEq,
          CborValue.bytes.injEq, false_iff, not_and, not_le]
        rintro rfl
        exact hb
      · simp only [CborValue.asBytes, Option.bind_some, if_neg hb, Except.ok.injEq,
          Option.some.injEq, CborValue.bytes.injEq]
        exact ⟨fun h => ⟨h, h ▸ not_lt.1 hb⟩, fun h => h.1⟩
    | _ => simp [CborValue.asBytes]

theorem optDisplayFields_eq_some {d : DisplayFields} :
    optDisplayFields m = some d ↔
      optText m "title" = some d.title ∧ optText m "description" = some d.description ∧
        optText m "requester" = some d.requester ∧ optText m "artifact" = some d.artifact := by
  obtain ⟨title, description, requester, artifact⟩ := d
  simp only [optDisplayFields, Option.bind_eq_bind, Option.bind_eq_some_iff, Option.some.injEq,
    DisplayFields.mk.injEq]
  constructor
  · rintro ⟨_, h1, _, h2, _, h3, _, h4, rfl, rfl, rfl, rfl⟩
    exact ⟨h1, h2, h3, h4⟩
  · rintro ⟨h1, h2, h3, h4⟩
    exact ⟨_, h1, _, h2, _, h3, _, h4, rfl, rfl, rfl, rfl⟩

theorem secretKind_eq_ok {word : String} {kind : PromptKind} :
    secretKind L word = .ok kind ↔ L.kindFromToken word = some kind ∧ kind ≠ .changePin := by
  rw [secretKind]
  cases L.kindFromToken word with
  | none => simp
  | some kind' =>
    by_cases hk : kind' = .changePin
    · simp only [if_pos hk, reduceCtorEq, Option.some.injEq, false_iff, not_and, not_not]
      rintro rfl
      exact hk
    · simp only [if_neg hk, Except.ok.injEq, Option.some.injEq]
      exact ⟨fun h => ⟨h, h ▸ hk⟩, fun h => h.1⟩

theorem replyStatus_eq_ok {status : PromptReplyStatus} :
    replyStatus L m = .ok status ↔
      ∃ word, m["status"]? = some (.text word) ∧ L.replyStatusFromToken word = some status := by
  simp only [replyStatus, bind_eq_ok, requiredText_eq_ok]
  refine exists_congr fun word => and_congr_right fun _ => ?_
  cases L.replyStatusFromToken word <;> simp

/-! ## An encoder's own map -/

section OfFields

variable {fields : List (String × Option CborValue)}

/-- **A map comes back as it was sent.** -/
theorem topMap_encode (h : L.decode (L.encode (toCbor fields)) = some (toCbor fields)) :
    topMap L (L.encode (toCbor fields)) = .ok (ofFields fields) := by
  rw [topMap, h]
  simp only [toCbor, CborValue.ofMap, CborValue.asMap, ofList_toList]

variable (hnodup : (fields.map Prod.fst).Nodup)
include hnodup

theorem requiredText_ofFields {s : String} (h : (k, some (.text s)) ∈ fields) :
    requiredText (ofFields fields) k = .ok s :=
  requiredText_eq_ok.2 (getElem?_ofFields hnodup h)

/-- An empty text is left out, and read as empty. -/
theorem optText_ofFields {s : String} (h : (k, text? s) ∈ fields) :
    optText (ofFields fields) k = some s := by
  rw [optText_eq_some, getElem?_ofFields hnodup h, text?]
  by_cases hs : s = "" <;> simp [hs]

/-- And so is a zero. -/
theorem optUint_ofFields {n : UInt32} (h : (k, uint? n) ∈ fields) :
    optUint (ofFields fields) k = some n.toUInt64 := by
  rw [optUint_eq_some, getElem?_ofFields hnodup h, uint?]
  by_cases hn : n = 0 <;> simp [hn]

theorem optStringArray_ofFields {words : List String} (h : (k, texts? words) ∈ fields) :
    optStringArray (ofFields fields) k = some words := by
  rw [optStringArray_eq_some, getElem?_ofFields hnodup h, texts?]
  by_cases hw : words = [] <;> simp [hw]

theorem optAnnouncedVersion_ofFields (h : version ∈ fields) :
    optAnnouncedVersion (ofFields fields) = .ok (some kPrompterProtocolVersion.toUInt64) :=
  optAnnouncedVersion_eq_ok.2 (.inr ⟨_, getElem?_ofFields hnodup h, rfl⟩)

theorem optReplyVersion_ofFields (h : version ∈ fields) :
    optReplyVersion (ofFields fields) = .ok (some kPrompterProtocolVersion) :=
  optReplyVersion_eq_ok.2 (.inr ⟨_, getElem?_ofFields hnodup h, by decide, rfl⟩)

theorem replyStatus_ofFields {status : PromptReplyStatus}
    (hword : L.replyStatusFromToken (L.replyStatusToken status) = some status)
    (h : ("status", some (.text (L.replyStatusToken status))) ∈ fields) :
    replyStatus L (ofFields fields) = .ok status :=
  replyStatus_eq_ok.2 ⟨_, getElem?_ofFields hnodup h, hword⟩

end OfFields

end Prompter

end LibreDarwin
