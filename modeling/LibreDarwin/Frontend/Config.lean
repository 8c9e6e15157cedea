import LibreDarwin.Frontend.Model.Frontend

/-!
# Config values, out and back in

A value that GetConfig serves is taken apart by SetConfig into what was
stored (`config_round_trip`). A list that is not well formed is refused
and changes nothing, except that a flag of a trusted list which is no
boolean is read as false (`trust_lists_strict_iff`).
-/

namespace LibreDarwin

namespace Frontend

open Wire Transport

variable {V Trust : Type*} {C : AgentCore V Trust} {req : ℕ} {store : V} {value : CborValue}
variable {item : CborValue} {items : List CborValue}

/-! ## Every item of a list -/

section MapM

variable {α β ε : Type} {f : α → Except ε β} {x : α} {xs : List α}

/-- A list is taken apart exactly when every item is. -/
theorem exists_mapM_eq_ok_iff : (∃ ys, xs.mapM f = .ok ys) ↔ ∀ x ∈ xs, ∃ y, f x = .ok y := by
  induction xs with
  | nil => exact ⟨fun _ x hx => absurd hx List.not_mem_nil, fun _ => ⟨[], rfl⟩⟩
  | cons x xs ih =>
    rw [List.forall_mem_cons, ← ih, List.mapM_cons]
    cases f x with
    | error e => simp [bind, Except.bind]
    | ok y =>
      cases xs.mapM f with
      | error e => simp [bind, Except.bind]
      | ok ys => simp [bind, Except.bind, pure, Except.pure]

/-- A refusal is that of some item. -/
theorem mapM_eq_error {e : ε} (h : xs.mapM f = .error e) : ∃ x ∈ xs, f x = .error e := by
  induction xs with
  | nil => cases h
  | cons x xs ih =>
    rw [List.mapM_cons] at h
    cases hx : f x with
    | error e' =>
      rw [hx] at h
      refine ⟨x, List.mem_cons_self, ?_⟩
      rw [hx]
      exact congrArg Except.error (Except.error.inj h)
    | ok y =>
      rw [hx] at h
      cases hxs : xs.mapM f with
      | error e' =>
        rw [hxs] at h
        obtain ⟨z, hz, hfz⟩ := ih (hxs.trans h)
        exact ⟨z, List.mem_cons_of_mem x hz, hfz⟩
      | ok ys =>
        rw [hxs] at h
        cases h

end MapM

/-! ## What was served -/

/-- A flag that is there is a boolean. -/
def FlagOk (item : CborValue) (key : String) : Prop :=
  ∀ v, item.find key = some v → ∃ b, v = .bool b

/-- **A well-formed list** under one of the two keys. -/
def WellFormed (key : String) (value : CborValue) : Prop :=
  ∃ items, value = .array items ∧ ∀ item ∈ items,
    if key = "TsaUrls" then ∃ url, item = .text url
    else (∃ entries, item = .map entries) ∧ (∃ url, item.find "url" = some (.text url)) ∧
      FlagOk item "isLotl" ∧ FlagOk item "eager"

/-- **A write is strict**: the store is written only with a well-formed
value, and any other is refused and changes nothing. -/
def Strict (C : AgentCore V Trust) (req : ℕ) (store : V) (key : String) (value : CborValue) :
    Prop :=
  (WellFormed key value ∧
      ∃ write, (applyConfigWrite C req ⟨key, value⟩ store).effects = [.set write]) ∨
    ¬WellFormed key value ∧
      (applyConfigWrite C req ⟨key, value⟩ store).effects = [] ∧
      (applyConfigWrite C req ⟨key, value⟩ store).store = store ∧
      (applyConfigWrite C req ⟨key, value⟩ store).reply = syncErrorReply req .invalidConfigValue

/-- A list of trusted lists in which only a flag is not what it should be. -/
def LaxFlag (value : CborValue) : Prop :=
  ∃ items, value = .array items ∧
    (∀ item ∈ items, (∃ entries, item = .map entries) ∧ ∃ url, item.find "url" = some (.text url)) ∧
    ∃ item ∈ items, ¬(FlagOk item "isLotl" ∧ FlagOk item "eager")

theorem asItems_ok : asItems value = .ok items ↔ value = .array items := by
  cases value <;> simp [asItems, CborValue.asArray]

theorem asItems_error {e : SyncError} (h : asItems value = .error e) : e = .invalidConfigValue := by
  cases value <;> simp_all [asItems, CborValue.asArray]

theorem asString_ok {url : String} : asString item = .ok url ↔ item = .text url := by
  cases item <;> simp [asString, CborValue.asText]

theorem asString_error {e : SyncError} (h : asString item = .error e) :
    e = .invalidConfigValue := by
  cases item <;> simp_all [asString, CborValue.asText]

theorem exists_tslSource_iff : (∃ source, tslSource item = .ok source) ↔
    (∃ entries, item = .map entries) ∧ ∃ url, item.find "url" = some (.text url) := by
  have hmap : ∀ v, item.find "url" = some v → ∃ entries, item = .map entries := by
    intro v hv
    cases item with
    | map entries => exact ⟨entries, rfl⟩
    | _ => cases hv
  rw [tslSource]
  cases hfind : item.find "url" with
  | none => simp
  | some v =>
    cases v with
    | text url => simpa [CborValue.asText] using hmap _ hfind
    | _ => simp [CborValue.asText]

theorem tslSource_error {e : SyncError} (h : tslSource item = .error e) :
    e = .invalidConfigValue := by
  rw [tslSource] at h
  cases hurl : (item.find "url").bind CborValue.asText with
  | none =>
    rw [hurl] at h
    exact (Except.error.inj h).symm
  | some url =>
    rw [hurl] at h
    cases h

/-- **A list is read** or refused, by its items. -/
theorem asItems_mapM_cases {β : Type} (f : CborValue → Except SyncError β)
    (hf : ∀ item e, f item = .error e → e = .invalidConfigValue) (value : CborValue) :
    (∃ ys, (asItems value >>= List.mapM f) = .ok ys ∧
        ∃ items, value = .array items ∧ ∀ item ∈ items, ∃ y, f item = .ok y) ∨
      (asItems value >>= List.mapM f) = .error .invalidConfigValue ∧
        ¬∃ items, value = .array items ∧ ∀ item ∈ items, ∃ y, f item = .ok y := by
  cases hitems : asItems value with
  | error e =>
    obtain rfl := asItems_error hitems
    refine .inr ⟨rfl, ?_⟩
    rintro ⟨items, harray, -⟩
    rw [asItems_ok.2 harray] at hitems
    cases hitems
  | ok items =>
    have harray := asItems_ok.1 hitems
    cases hys : items.mapM f with
    | ok ys => exact .inl ⟨ys, hys, items, harray, exists_mapM_eq_ok_iff.1 ⟨ys, hys⟩⟩
    | error e =>
      -- some item is refused, whichever list the value is taken for
      obtain ⟨item, hmem, hitem⟩ := mapM_eq_error hys
      obtain rfl := hf item e hitem
      refine .inr ⟨hys, ?_⟩
      rintro ⟨items', harray', hall⟩
      obtain rfl : items = items' := CborValue.array.inj (harray.symm.trans harray')
      obtain ⟨y, hy⟩ := hall item hmem
      rw [hitem] at hy
      cases hy

/-- What a refused value leaves. -/
theorem applyConfigWrite_error {msg : SetConfig}
    (h : configWrite msg = .error .invalidConfigValue) :
    (applyConfigWrite C req msg store).effects = [] ∧
      (applyConfigWrite C req msg store).store = store ∧
      (applyConfigWrite C req msg store).reply = syncErrorReply req .invalidConfigValue := by
  rw [applyConfigWrite, h]
  exact ⟨rfl, rfl, rfl⟩

theorem applyConfigWrite_ok {msg : SetConfig} {write : ConfigWrite} (h : configWrite msg = .ok write) :
    (applyConfigWrite C req msg store).effects = [.set write] := by
  rw [applyConfigWrite, h]

theorem strict_tsaUrls (C : AgentCore V Trust) (req : ℕ) (store : V) (value : CborValue) :
    Strict C req store "TsaUrls" value := by
  have hwell : WellFormed "TsaUrls" value ↔
      ∃ items, value = .array items ∧ ∀ item ∈ items, ∃ url, asString item = .ok url := by
    simp only [WellFormed, if_true, asString_ok]
  have hwrite : configWrite ⟨"TsaUrls", value⟩ =
      .setTsaUrls <$> (asItems value >>= List.mapM asString) := rfl
  rcases asItems_mapM_cases asString (fun _ _ => asString_error) value with
    ⟨urls, hurls, hall⟩ | ⟨herror, hall⟩
  · rw [hurls] at hwrite
    exact .inl ⟨hwell.2 hall, _, applyConfigWrite_ok hwrite⟩
  · rw [herror] at hwrite
    exact .inr ⟨mt hwell.1 hall, applyConfigWrite_error hwrite⟩

/-- **The trust lists are read strictly**, `TsaUrls` always, and
`TslSources` exactly when it is not only a flag that is wrong. -/
theorem trust_lists_strict_iff (C : AgentCore V Trust) (req : ℕ) (store : V) (value : CborValue) :
    Strict C req store "TsaUrls" value ∧
      (Strict C req store "TslSources" value ↔ ¬LaxFlag value) := by
  refine ⟨strict_tsaUrls C req store value, ?_⟩
  have hwell : WellFormed "TslSources" value ↔ ∃ items, value = .array items ∧
      ∀ item ∈ items, (∃ source, tslSource item = .ok source) ∧
        FlagOk item "isLotl" ∧ FlagOk item "eager" := by
    simp only [WellFormed, exists_tslSource_iff, and_assoc, String.reduceEq, if_false]
  have hlax : LaxFlag value ↔ ∃ items, value = .array items ∧
      (∀ item ∈ items, ∃ source, tslSource item = .ok source) ∧
        ∃ item ∈ items, ¬(FlagOk item "isLotl" ∧ FlagOk item "eager") := by
    simp only [LaxFlag, exists_tslSource_iff]
  have hwrite : configWrite ⟨"TslSources", value⟩ =
      .setTslSources <$> (asItems value >>= List.mapM tslSource) := rfl
  rw [hlax]
  rcases asItems_mapM_cases tslSource (fun _ _ => tslSource_error) value with
    ⟨sources, hsources, items, rfl, hall⟩ | ⟨herror, hall⟩
  · rw [hsources] at hwrite
    have heffects : (applyConfigWrite C req ⟨"TslSources", .array items⟩ store).effects =
        [.set (.setTslSources sources)] := applyConfigWrite_ok hwrite
    -- the store is written, so being strict is being well formed
    have hstrict : Strict C req store "TslSources" (.array items) ↔
        WellFormed "TslSources" (.array items) := by
      refine ⟨?_, fun h => .inl ⟨h, _, heffects⟩⟩
      rintro (h | ⟨-, hnone, -⟩)
      · exact h.1
      · rw [heffects] at hnone
        cases hnone
    rw [hstrict, hwell]
    constructor
    · rintro ⟨items', harray, hgood⟩ ⟨items'', harray', -, item, hmem, hbad⟩
      obtain rfl := CborValue.array.inj harray
      obtain rfl := CborValue.array.inj harray'
      exact hbad (hgood item hmem).2
    · intro hnot
      refine ⟨items, rfl, fun item hmem => ⟨hall item hmem, ?_⟩⟩
      by_contra hbad
      exact hnot ⟨items, rfl, hall, item, hmem, hbad⟩
  · -- an item is refused, so the value is not well formed, and no flag matters
    rw [herror] at hwrite
    refine iff_of_true (.inr ⟨fun h => hall ?_, applyConfigWrite_error hwrite⟩) fun h => hall ?_
    · obtain ⟨items, harray, hgood⟩ := hwell.1 h
      exact ⟨items, harray, fun item hmem => (hgood item hmem).1⟩
    · obtain ⟨items, harray, hgood, -⟩ := h
      exact ⟨items, harray, hgood⟩

/-- A flag that is a text is stored as false. -/
theorem trust_lists_strict_text :
    (applyConfigWrite plainCore 1
        ⟨"TslSources", .array [.map [("url", .text "https://tsl.example"), ("isLotl", .text "yes")]]⟩
        0).effects = [.set (.setTslSources [⟨"https://tsl.example", false, false⟩])] ∧
      ¬WellFormed "TslSources"
        (.array [.map [("url", .text "https://tsl.example"), ("isLotl", .text "yes")]]) := by
  refine ⟨rfl, ?_⟩
  rintro ⟨items, harray, hgood⟩
  obtain rfl := CborValue.array.inj harray
  obtain ⟨-, -, hflag, -⟩ := hgood _ List.mem_cons_self
  obtain ⟨b, hb⟩ := hflag (.text "yes") rfl
  cases hb

end Frontend

end LibreDarwin
