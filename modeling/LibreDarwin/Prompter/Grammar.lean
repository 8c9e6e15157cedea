import LibreDarwin.Prompter.Parsing
import LibreDarwin.Prompter.Model.Library

/-!
# The grammar of a request

What a request has to look like, as a table: the keys each of the five
messages knows, and the type of each. `parsePrompterRequest` accepts
exactly the maps of the table (`accepts_iff`), judges the version before
anything else, and reads no other key (`parseMap_congr`).
-/

namespace LibreDarwin

namespace Prompter

open Wire

variable {L : AgentLibrary} {m m' : CborMap} {k : String}

/-! ## The table -/

inductive FieldType
  | text
  | uint
  | texts
  deriving DecidableEq, Repr

def FieldType.Holds : FieldType → CborValue → Prop
  | .text, value => ∃ s, value = .text s
  | .uint, value => ∃ n, value = .uint n
  | .texts, value => ∃ items, value = .array items ∧ ∀ item ∈ items, ∃ s, item = .text s

/-- A key that is absent, or of its type. -/
def Typed (m : CborMap) (e : String × FieldType) : Prop :=
  ∀ value, m[e.1]? = some value → e.2.Holds value

def displayKeys : List (String × FieldType) :=
  [("title", .text), ("description", .text), ("requester", .text), ("artifact", .text)]

def promptKeys : List (String × FieldType) :=
  displayKeys.append
    [("minLength", .uint), ("maxLength", .uint), ("artifacts", .texts), ("attempt", .uint),
      ("lastError", .text), ("promptId", .text), ("deadlineMs", .uint), ("altDeadlineMs", .uint),
      ("readerModel", .text), ("readerInterface", .text), ("readerFull", .text)]

def secretsKeys : List (String × FieldType) :=
  displayKeys.append
    [("primaryMinLength", .uint), ("primaryMaxLength", .uint), ("newMinLength", .uint),
      ("newMaxLength", .uint), ("promptId", .text), ("deadlineMs", .uint)]

def confirmKeys : List (String × FieldType) :=
  displayKeys.append [("descriptionKey", .text)]

def cancelKeys : List (String × FieldType) := [("promptId", .text)]

/-- What a message asks of its `kind`. -/
inductive KindRule
  | none
  | word
  | singleSecret
  deriving DecidableEq, Repr

structure MessageShape where
  name : String
  kind : KindRule
  optional : List (String × FieldType)
  deriving DecidableEq, Repr

/-- The five messages. -/
def shapes : List MessageShape :=
  [⟨"Reset", .none, []⟩, ⟨"CancelCurrent", .none, cancelKeys⟩,
    ⟨"RequestSecrets", .word, secretsKeys⟩, ⟨"ConfirmAction", .word, confirmKeys⟩,
    ⟨"RequestSecret", .singleSecret, promptKeys⟩]

/-- A text, and for a single secret one of its three words. -/
def KindRule.Fits (L : AgentLibrary) (m : CborMap) : KindRule → Prop
  | .none => True
  | .word => ∃ word, m["kind"]? = some (.text word)
  | .singleSecret =>
    ∃ kind ∈ [PromptKind.pin, .can, .mrz], m["kind"]? = some (.text (L.kindToken kind))

structure MessageShape.Fits (L : AgentLibrary) (m : CborMap) (shape : MessageShape) : Prop where
  name : m["t"]? = some (.text shape.name)
  kind : shape.kind.Fits L m
  optional : ∀ e ∈ shape.optional, Typed m e

/-- **The grammar.** -/
structure InGrammar (L : AgentLibrary) (m : CborMap) : Prop where
  version : m["v"]? = none ∨ ∃ n, m["v"]? = some (.uint n) ∧ n ≤ 2
  message : ∃ shape ∈ shapes, shape.Fits L m

/-- The keys the message in a map knows. -/
def knownKeys (m : CborMap) : List String :=
  "v" :: "t" ::
    ((shapes.filter fun shape => m["t"]? = some (.text shape.name)).flatMap fun shape =>
      (if shape.kind = .none then [] else ["kind"]) ++ shape.optional.map Prod.fst)

/-! ## Reading by type -/

theorem typed_text : (∃ s, optText m k = some s) ↔ Typed m (k, .text) := by
  simp only [optText_eq_some, Typed, FieldType.Holds]
  cases m[k]? with
  | none => simp
  | some value => simp

theorem typed_uint : (∃ n, HasUint m k n) ↔ Typed m (k, .uint) := by
  have hread : (∃ n, HasUint m k n) ↔ ∃ n, optUint m k = some n :=
    ⟨fun ⟨_, n, hn, _⟩ => ⟨n, hn⟩, fun ⟨n, hn⟩ => ⟨_, n, hn, rfl⟩⟩
  simp only [hread, optUint_eq_some, Typed, FieldType.Holds]
  cases m[k]? with
  | none => simp
  | some value => simp

theorem exists_texts {items : List CborValue} :
    (∃ words : List String, items = words.map .text) ↔ ∀ item ∈ items, ∃ s, item = .text s := by
  induction items with
  | nil => simp
  | cons item items ih =>
    rw [List.forall_mem_cons, ← ih]
    constructor
    · rintro ⟨_ | ⟨w, ws⟩, h⟩
      · cases h
      · obtain ⟨rfl, rfl⟩ := List.cons_eq_cons.1 h
        exact ⟨⟨w, rfl⟩, ws, rfl⟩
    · rintro ⟨⟨w, rfl⟩, ws, rfl⟩
      exact ⟨w :: ws, rfl⟩

theorem typed_texts : (∃ words, optStringArray m k = some words) ↔ Typed m (k, .texts) := by
  simp only [optStringArray_eq_some, Typed, FieldType.Holds, ← exists_texts]
  cases m[k]? with
  | none => simp
  | some value =>
    simp only [reduceCtorEq, false_and, Option.some.injEq, false_or, forall_eq']
    constructor
    · rintro ⟨words, rfl⟩
      exact ⟨_, rfl, words, rfl⟩
    · rintro ⟨_, rfl, words, rfl⟩
      exact ⟨words, rfl⟩

theorem typed_display :
    (∃ title description requester artifact, DisplayIn m title description requester artifact) ↔
      ∀ e ∈ displayKeys, Typed m e := by
  simp only [displayKeys, List.forall_mem_cons, ← typed_text, List.not_mem_nil, false_implies,
    implies_true, and_true]
  constructor
  · rintro ⟨t, d, r, a, h⟩
    exact ⟨⟨t, h.title⟩, ⟨d, h.description⟩, ⟨r, h.requester⟩, ⟨a, h.artifact⟩⟩
  · rintro ⟨⟨t, ht⟩, ⟨d, hd⟩, ⟨r, hr⟩, ⟨a, ha⟩⟩
    exact ⟨t, d, r, a, ht, hd, hr, ha⟩

/-! ## Each message -/

/-- The words of the three single secrets are those the parser takes. -/
theorem singleSecret_iff
    (hkind : ∀ word kind, L.kindFromToken word = some kind ↔ L.kindToken kind = word) :
    KindRule.singleSecret.Fits L m ↔
      ∃ kind, (∃ word, m["kind"]? = some (.text word) ∧ L.kindFromToken word = some kind) ∧
        kind ≠ .changePin := by
  simp only [KindRule.Fits]
  constructor
  · rintro ⟨kind, hmem, hword⟩
    refine ⟨kind, ⟨_, hword, (hkind _ _).2 rfl⟩, ?_⟩
    rintro rfl
    simp at hmem
  · rintro ⟨kind, ⟨word, hword, htoken⟩, hsingle⟩
    refine ⟨kind, ?_, by rw [(hkind _ _).1 htoken]; exact hword⟩
    cases kind <;> simp_all

theorem exists_prompt
    (hkind : ∀ word kind, L.kindFromToken word = some kind ↔ L.kindToken kind = word) :
    (∃ p : PromptRequest, p.In L m) ↔
      KindRule.singleSecret.Fits L m ∧ ∀ e ∈ promptKeys, Typed m e := by
  rw [singleSecret_iff hkind, promptKeys, List.append_eq, List.forall_mem_append, ← typed_display]
  simp only [List.forall_mem_cons, ← typed_text, ← typed_uint, ← typed_texts, List.not_mem_nil,
    false_implies, implies_true, and_true]
  constructor
  · rintro ⟨p, h⟩
    exact ⟨⟨_, h.kind, h.single⟩, ⟨_, _, _, _, h.display⟩, ⟨_, h.minLength⟩, ⟨_, h.maxLength⟩,
      ⟨_, h.artifacts⟩, ⟨_, h.attempt⟩, ⟨_, h.lastError⟩, ⟨_, h.promptId⟩, ⟨_, h.deadlineMs⟩,
      ⟨_, h.altDeadlineMs⟩, ⟨_, h.readerModel⟩, ⟨_, h.readerInterface⟩, ⟨_, h.readerFull⟩⟩
  · rintro ⟨⟨kind, hword, hsingle⟩, ⟨t, d, r, a, hdisplay⟩, ⟨lo, hlo⟩, ⟨hi, hhi⟩, ⟨items, hitems⟩,
      ⟨n, hn⟩, ⟨err, herr⟩, ⟨id, hid⟩, ⟨dl, hdl⟩, ⟨adl, hadl⟩, ⟨rm, hrm⟩, ⟨ri, hri⟩, ⟨rf, hrf⟩⟩
    exact ⟨⟨kind, t, d, r, a, lo, hi, items, n, err, id, dl, adl, rm, ri, rf⟩,
      hword, hsingle, hdisplay, hlo, hhi, hitems, hn, herr, hid, hdl, hadl, hrm, hri, hrf⟩

theorem exists_secrets :
    (∃ r : RequestSecrets, r.In m) ↔ KindRule.word.Fits L m ∧ ∀ e ∈ secretsKeys, Typed m e := by
  rw [secretsKeys, List.append_eq, List.forall_mem_append, ← typed_display]
  simp only [KindRule.Fits, List.forall_mem_cons, ← typed_text, ← typed_uint, List.not_mem_nil,
    false_implies, implies_true, and_true]
  constructor
  · rintro ⟨r, h⟩
    exact ⟨⟨_, h.kind⟩, ⟨_, _, _, _, h.display⟩, ⟨_, h.primaryMinLength⟩, ⟨_, h.primaryMaxLength⟩,
      ⟨_, h.newMinLength⟩, ⟨_, h.newMaxLength⟩, ⟨_, h.promptId⟩, ⟨_, h.deadlineMs⟩⟩
  · rintro ⟨⟨kind, hkind⟩, ⟨t, d, r, a, hdisplay⟩, ⟨n1, h1⟩, ⟨n2, h2⟩, ⟨n3, h3⟩, ⟨n4, h4⟩,
      ⟨id, hid⟩, ⟨dl, hdl⟩⟩
    exact ⟨⟨kind, t, d, r, a, n1, n2, n3, n4, id, dl⟩, hkind, hdisplay, h1, h2, h3, h4, hid, hdl⟩

theorem exists_confirm :
    (∃ r : ConfirmAction, r.In m) ↔ KindRule.word.Fits L m ∧ ∀ e ∈ confirmKeys, Typed m e := by
  rw [confirmKeys, List.append_eq, List.forall_mem_append, ← typed_display]
  simp only [KindRule.Fits, List.forall_mem_cons, ← typed_text, List.not_mem_nil, false_implies,
    implies_true, and_true]
  constructor
  · rintro ⟨r, h⟩
    exact ⟨⟨_, h.kind⟩, ⟨_, _, _, _, h.display⟩, ⟨_, h.descriptionKey⟩⟩
  · rintro ⟨⟨kind, hkind⟩, ⟨t, d, r, a, hdisplay⟩, ⟨key, hkey⟩⟩
    exact ⟨⟨kind, t, d, key, r, a⟩, hkind, hdisplay, hkey⟩

theorem exists_cancel :
    (∃ r : PromptCancel, optText m "promptId" = some r.promptId) ↔
      ∀ e ∈ cancelKeys, Typed m e := by
  simp only [cancelKeys, List.forall_mem_cons, ← typed_text, List.not_mem_nil, false_implies,
    implies_true, and_true]
  exact ⟨fun ⟨r, h⟩ => ⟨_, h⟩, fun ⟨id, h⟩ => ⟨⟨id⟩, h⟩⟩

/-- **The table is what the parsers read.** -/
theorem exists_shape
    (hkind : ∀ word kind, L.kindFromToken word = some kind ↔ L.kindToken kind = word) :
    (∃ r : PrompterRequest, r.In L m) ↔ ∃ shape ∈ shapes, shape.Fits L m := by
  constructor
  · rintro ⟨r, h⟩
    cases r with
    | prompt p =>
      obtain ⟨hrule, hkeys⟩ := (exists_prompt hkind).1 ⟨p, h.2⟩
      exact ⟨⟨"RequestSecret", .singleSecret, promptKeys⟩, by simp [shapes], h.1, hrule, hkeys⟩
    | cancel c =>
      have hkeys := exists_cancel.1 ⟨c, h.2⟩
      exact ⟨⟨"CancelCurrent", .none, cancelKeys⟩, by simp [shapes], h.1, trivial, hkeys⟩
    | secrets r =>
      obtain ⟨hrule, hkeys⟩ := (exists_secrets (L := L)).1 ⟨r, h.2⟩
      exact ⟨⟨"RequestSecrets", .word, secretsKeys⟩, by simp [shapes], h.1, hrule, hkeys⟩
    | confirm r =>
      obtain ⟨hrule, hkeys⟩ := (exists_confirm (L := L)).1 ⟨r, h.2⟩
      exact ⟨⟨"ConfirmAction", .word, confirmKeys⟩, by simp [shapes], h.1, hrule, hkeys⟩
    | reset => exact ⟨⟨"Reset", .none, []⟩, by simp [shapes], h, trivial, by simp⟩
  · rintro ⟨shape, hshape, hname, hrule, hkeys⟩
    simp only [shapes, List.mem_cons, List.not_mem_nil, or_false] at hshape
    rcases hshape with rfl | rfl | rfl | rfl | rfl
    · exact ⟨.reset, hname⟩
    · obtain ⟨c, hc⟩ := exists_cancel.2 hkeys
      exact ⟨.cancel c, hname, hc⟩
    · obtain ⟨r, hr⟩ := exists_secrets.2 ⟨hrule, hkeys⟩
      exact ⟨.secrets r, hname, hr⟩
    · obtain ⟨r, hr⟩ := exists_confirm.2 ⟨hrule, hkeys⟩
      exact ⟨.confirm r, hname, hr⟩
    · obtain ⟨p, hp⟩ := (exists_prompt hkind).2 ⟨hrule, hkeys⟩
      exact ⟨.prompt p, hname, hp⟩

theorem accepts_iff
    (hkind : ∀ word kind, L.kindFromToken word = some kind ↔ L.kindToken kind = word) :
    (∃ r, parseMap L m = .ok r) ↔ InGrammar L m := by
  simp only [parseMap_eq_ok, exists_and_left, exists_shape hkind]
  exact ⟨fun h => ⟨h.1, h.2⟩, fun h => ⟨h.version, h.message⟩⟩

/-! ## Keys a message does not know -/

section Congr

theorem parseCancel_congr (h : ∀ k ∈ cancelKeys.map Prod.fst, m'[k]? = m[k]?) :
    parseCancel m' = parseCancel m := by
  simp only [cancelKeys, List.map_cons, List.map_nil, List.forall_mem_cons] at h
  simp only [parseCancel, optText, h]

theorem optDisplayFields_congr (h : ∀ k ∈ displayKeys.map Prod.fst, m'[k]? = m[k]?) :
    optDisplayFields m' = optDisplayFields m := by
  simp only [displayKeys, List.map_cons, List.map_nil, List.forall_mem_cons] at h
  simp only [optDisplayFields, optText, h]

theorem parseSecrets_congr (hkind : m'["kind"]? = m["kind"]?)
    (h : ∀ k ∈ secretsKeys.map Prod.fst, m'[k]? = m[k]?) : parseSecrets m' = parseSecrets m := by
  rw [secretsKeys, List.append_eq, List.map_append, List.forall_mem_append] at h
  have hdisplay := optDisplayFields_congr h.1
  have hrest := h.2
  simp only [List.map_cons, List.map_nil, List.forall_mem_cons] at hrest
  simp only [parseSecrets, requiredText, hkind, hdisplay, optText, optUint, hrest]

theorem parseConfirm_congr (hkind : m'["kind"]? = m["kind"]?)
    (h : ∀ k ∈ confirmKeys.map Prod.fst, m'[k]? = m[k]?) : parseConfirm m' = parseConfirm m := by
  rw [confirmKeys, List.append_eq, List.map_append, List.forall_mem_append] at h
  have hdisplay := optDisplayFields_congr h.1
  have hrest := h.2
  simp only [List.map_cons, List.map_nil, List.forall_mem_cons] at hrest
  simp only [parseConfirm, requiredText, hkind, hdisplay, optText, hrest]

theorem parsePrompt_congr (hkind : m'["kind"]? = m["kind"]?)
    (h : ∀ k ∈ promptKeys.map Prod.fst, m'[k]? = m[k]?) : parsePrompt L m' = parsePrompt L m := by
  rw [promptKeys, List.append_eq, List.map_append, List.forall_mem_append] at h
  have hdisplay := optDisplayFields_congr h.1
  have hrest := h.2
  simp only [List.map_cons, List.map_nil, List.forall_mem_cons] at hrest
  simp only [parsePrompt, requiredText, hkind, hdisplay, optText, optUint, optStringArray, hrest]

/-- The keys of a message of the table, where the map holds that message. -/
theorem knownKeys_of_shape (shape : MessageShape) (hshape : shape ∈ shapes)
    (ht : m["t"]? = some (.text shape.name)) (h : ∀ k ∈ knownKeys m, m'[k]? = m[k]?) :
    (shape.kind ≠ .none → m'["kind"]? = m["kind"]?) ∧
      ∀ k ∈ shape.optional.map Prod.fst, m'[k]? = m[k]? := by
  have hmem : ∀ k ∈ (if shape.kind = .none then [] else ["kind"]) ++
      shape.optional.map Prod.fst, m'[k]? = m[k]? := by
    intro k hk
    refine h k (List.mem_cons_of_mem _ (List.mem_cons_of_mem _ (List.mem_flatMap.2 ?_)))
    exact ⟨shape, List.mem_filter.2 ⟨hshape, decide_eq_true ht⟩, hk⟩
  rw [List.forall_mem_append] at hmem
  refine ⟨fun hkind => hmem.1 "kind" ?_, hmem.2⟩
  rw [if_neg hkind]
  exact List.mem_cons_self

theorem parseTagged_congr {t : String} (ht : m["t"]? = some (.text t))
    (h : ∀ k ∈ knownKeys m, m'[k]? = m[k]?) : parseTagged L m' t = parseTagged L m t := by
  rw [parseTagged, parseTagged]
  split
  · rfl
  split
  · subst t
    have hkeys := knownKeys_of_shape ⟨_, .none, cancelKeys⟩ (by simp [shapes]) ht h
    exact parseCancel_congr hkeys.2
  split
  · subst t
    have hkeys := knownKeys_of_shape ⟨_, .word, secretsKeys⟩ (by simp [shapes]) ht h
    exact parseSecrets_congr (hkeys.1 (by decide)) hkeys.2
  split
  · subst t
    have hkeys := knownKeys_of_shape ⟨_, .word, confirmKeys⟩ (by simp [shapes]) ht h
    exact parseConfirm_congr (hkeys.1 (by decide)) hkeys.2
  split
  · subst t
    have hkeys := knownKeys_of_shape ⟨_, .singleSecret, promptKeys⟩ (by simp [shapes])
      ht h
    exact parsePrompt_congr (hkeys.1 (by decide)) hkeys.2
  · rfl

/-- **No other key is read.** -/
theorem parseMap_congr (h : ∀ k ∈ knownKeys m, m'[k]? = m[k]?) :
    parseMap L m' = parseMap L m := by
  have hv : m'["v"]? = m["v"]? := h "v" List.mem_cons_self
  have ht : m'["t"]? = m["t"]? := h "t" (List.mem_cons_of_mem _ List.mem_cons_self)
  have htag : (requiredText m "t" >>= fun t => parseTagged L m' t) =
      (requiredText m "t" >>= fun t => parseTagged L m t) := by
    cases hread : requiredText m "t" with
    | error e => rw [error_bind, error_bind]
    | ok t =>
      rw [ok_bind, ok_bind]
      exact parseTagged_congr (requiredText_eq_ok.1 hread) h
  have hread : requiredText m' "t" = requiredText m "t" := by
    rw [requiredText, requiredText, ht]
  have hversion : optAnnouncedVersion m' = optAnnouncedVersion m := by
    rw [optAnnouncedVersion, optAnnouncedVersion, hv]
  rw [parseMap, parseMap, hversion, hread, htag]

end Congr

/-- A version newer than this build's. -/
theorem parseMap_newer {n : UInt64} (hv : m["v"]? = some (.uint n)) (hn : 2 < n) :
    parseMap L m = .error .unsupportedVersion := by
  have hread : optAnnouncedVersion m = .ok (some n) :=
    optAnnouncedVersion_eq_ok.2 (.inr ⟨n, hv, rfl⟩)
  rw [parseMap, hread, ok_bind, Option.getD_some,
    if_pos (show kPrompterProtocolVersion.toUInt64 < n from hn)]

/-- **`parsePrompterRequest` accepts exactly its grammar**, refuses a
newer version by name whatever else the map holds, and reads no key the
message does not know. -/
theorem request_grammar
    (hkind : ∀ word kind, L.kindFromToken word = some kind ↔ L.kindToken kind = word) :
    (∀ body value, L.decode body = some value →
      ((∃ r, parsePrompterRequest L body = .ok r) ↔
        ∃ m, value.asMap = some m ∧ InGrammar L m)) ∧
    (∀ body value m n, L.decode body = some value → value.asMap = some m →
      m["v"]? = some (.uint n) → 2 < n →
      parsePrompterRequest L body = .error .unsupportedVersion) ∧
    (∀ body body' value value' m m', L.decode body = some value → value.asMap = some m →
      L.decode body' = some value' → value'.asMap = some m' →
      (∀ k ∈ knownKeys m, m'[k]? = m[k]?) →
      parsePrompterRequest L body' = parsePrompterRequest L body) := by
  have hparse : ∀ body value m, L.decode body = some value → value.asMap = some m →
      parsePrompterRequest L body = parseMap L m := by
    intro body value m hdecode hmap
    rw [parsePrompterRequest, topMap_eq_ok.2 ⟨value, hdecode, hmap⟩, ok_bind]
  refine ⟨fun body value hdecode => ?_, ?_, ?_⟩
  · constructor
    · rintro ⟨r, h⟩
      obtain ⟨m, hm, hread⟩ := parsePrompterRequest_eq_ok.1 h
      obtain ⟨value', hdecode', hmap⟩ := topMap_eq_ok.1 hm
      obtain rfl := Option.some.inj (hdecode.symm.trans hdecode')
      exact ⟨m, hmap, (accepts_iff hkind).1 ⟨r, parseMap_eq_ok.2 hread⟩⟩
    · rintro ⟨m, hmap, hgrammar⟩
      rw [hparse body value m hdecode hmap]
      exact (accepts_iff hkind).2 hgrammar
  · intro body value m n hdecode hmap hv hn
    rw [hparse body value m hdecode hmap]
    exact parseMap_newer hv hn
  · intro body body' value value' m m' hdecode hmap hdecode' hmap' h
    rw [hparse body value m hdecode hmap, hparse body' value' m' hdecode' hmap']
    exact parseMap_congr h

/-- A cancellation without an id, and one with a key it does not know. -/
theorem request_grammar_cancel :
    parsePrompterRequest plainLibrary (plainLibrary.encode
        (.map [("t", .text "CancelCurrent"), ("title", .uint 7)])) =
      parsePrompterRequest plainLibrary (plainLibrary.encode (.map [("t", .text "CancelCurrent")])) :=
  (request_grammar (L := plainLibrary) plainLibrary_kind).2.2 _ _
    (.map [("t", .text "CancelCurrent")])
    (.map [("t", .text "CancelCurrent"), ("title", .uint 7)])
    (.ofList [("t", CborValue.text "CancelCurrent")])
    (.ofList [("t", CborValue.text "CancelCurrent"), ("title", CborValue.uint 7)])
    (by decide +kernel) rfl (by decide +kernel) rfl (by decide +kernel)

end Prompter

end LibreDarwin
