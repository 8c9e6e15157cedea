import LibreDarwin.Common.Machine

/-!
# Many lives in one log

Lives are numbered as they begin. Each is a run of a machine of its own,
and one log has what is done for all of them. A life that is not over is
held by something that will go on with it, and no two things hold the same
life (`Ledger.Kept`). The rules are the ways such a log grows: a life
begins (`Kept.enter`), what holds one goes on with it (`Kept.advance`), and
entries that belong to no life come in between (`Kept.quiet`). What is held
may be lost, and then lives stay where they are (`Kept.lose`).
-/

namespace LibreDarwin

/-- **How lives are kept.** `born` things have a life, `At` says at which
phases of it something holds it, and `Over` which phases need no holder. -/
structure Ledger (Born Entry Phase Holder : Type*) where
  life : Born → ℕ → Machine Phase Entry
  number? : Entry → Option ℕ
  start : Phase
  Over : Phase → Prop
  key : Holder → ℕ
  At : Born → Holder → Phase → Prop

namespace Ledger

variable {Born Entry Phase Holder : Type*} (L : Ledger Born Entry Phase Holder)

/-- What a log has of one life. -/
def own (n : ℕ) (log : List Entry) : List Entry := log.filter fun d => L.number? d = some n

@[simp] theorem own_append (n : ℕ) (a b : List Entry) :
    L.own n (a ++ b) = L.own n a ++ L.own n b := List.filter_append ..

@[simp] theorem own_nil (n : ℕ) : L.own n [] = [] := rfl

theorem own_cons (n : ℕ) (d : Entry) (log : List Entry) :
    L.own n (d :: log) = if L.number? d = some n then d :: L.own n log else L.own n log := by
  simp [own, List.filter_cons]

theorem mem_own {n : ℕ} {d : Entry} {log : List Entry} :
    d ∈ L.own n log ↔ d ∈ log ∧ L.number? d = some n := by
  simp [own]

/-- Entries of one life, and of none. -/
def Of (n : ℕ) (ds : List Entry) : Prop := ∀ d ∈ ds, L.number? d = some n ∨ L.number? d = none

variable {L} in
theorem Of.append {n : ℕ} {a b : List Entry} (ha : L.Of n a) (hb : L.Of n b) : L.Of n (a ++ b) := by
  intro d hd
  rcases List.mem_append.1 hd with hmem | hmem
  · exact ha d hmem
  · exact hb d hmem

/-- Entries of no life. -/
theorem own_eq_nil {n : ℕ} {ds : List Entry} (h : ∀ d ∈ ds, L.number? d = none) :
    L.own n ds = [] := List.filter_eq_nil_iff.2 fun d hd => by simp [h d hd]

variable {L} in
theorem Of.own_eq_nil {m n : ℕ} {ds : List Entry} (h : L.Of n ds) (hmn : m ≠ n) :
    L.own m ds = [] := by
  unfold own
  refine List.filter_eq_nil_iff.2 fun d hd => ?_
  rcases h d hd with heq | hnone
  · simpa [heq] using fun hnm => hmn hnm.symm
  · simp [hnone]

/-- Where a life comes to rest: it is over, or something holds it, or what
would have held it is lost. -/
inductive Rests (lost : Prop) (i : Born) (n : ℕ) (φ : Phase) : List Holder → Prop
  | ended (h : L.Over φ) : Rests lost i n φ []
  | held {x : Holder} (hkey : L.key x = n) (h : L.At i x φ) : Rests lost i n φ [x]
  | lost (h : lost) : Rests lost i n φ []

/-- **A log of many lives, kept.** -/
structure Kept (lost : Prop) (born : List Born) (log : List Entry) (held : List Holder) :
    Prop where
  unborn : ∀ d ∈ log, ∀ n, L.number? d = some n → n < born.length
  phase : ∀ n i, born[n]? = some i → ∃ φ, (L.life i n).run L.start (L.own n log) = some φ ∧
    (L.Over φ ∨ lost ∨ n ∈ held.map L.key)
  holders : ∀ x ∈ held, ∃ i φ, born[L.key x]? = some i ∧
    (L.life i (L.key x)).run L.start (L.own (L.key x) log) = some φ ∧ L.At i x φ
  nodup : (held.map L.key).Nodup

namespace Kept

variable {L} {lost : Prop} {born : List Born} {log : List Entry} {held : List Holder}

theorem nil : L.Kept lost [] [] [] := ⟨by simp, by simp, by simp, by simp⟩

/-- The order of what is held does not matter. -/
theorem perm {held' : List Holder} (h : L.Kept lost born log held) (hp : held.Perm held') :
    L.Kept lost born log held' where
  unborn := h.unborn
  phase n i hi := by
    obtain ⟨φ, hrun, hφ⟩ := h.phase n i hi
    exact ⟨φ, hrun, hφ.imp_right (Or.imp_right (hp.map L.key).mem_iff.1)⟩
  holders x hx := h.holders x (hp.mem_iff.2 hx)
  nodup := (hp.map L.key).nodup_iff.1 h.nodup

/-- **What is held may be lost.** -/
theorem lose {lost' : Prop} {held' : List Holder} (h : L.Kept lost born log held) (hlost : lost')
    (hsub : held'.Sublist held) : L.Kept lost' born log held' where
  unborn := h.unborn
  phase n i hi := by
    obtain ⟨φ, hrun, -⟩ := h.phase n i hi
    exact ⟨φ, hrun, .inr (.inl hlost)⟩
  holders x hx := h.holders x (hsub.subset hx)
  nodup := (hsub.map L.key).nodup h.nodup

theorem weaken {lost' : Prop} (h : L.Kept lost born log held) (hlost : lost → lost') :
    L.Kept lost' born log held :=
  { h with
    phase := fun n i hi => by
      obtain ⟨φ, hrun, hφ⟩ := h.phase n i hi
      exact ⟨φ, hrun, hφ.imp_right (Or.imp_left hlost)⟩ }

/-- Entries that belong to no life. -/
theorem quiet (h : L.Kept lost born log held) {ds : List Entry}
    (hds : ∀ d ∈ ds, L.number? d = none) : L.Kept lost born (log ++ ds) held := by
  have hown : ∀ n, L.own n (log ++ ds) = L.own n log := by
    intro n
    rw [own_append, L.own_eq_nil hds, List.append_nil]
  refine ⟨fun d hd n hn => ?_, fun n i hi => ?_, fun x hx => ?_, h.nodup⟩
  · rcases List.mem_append.1 hd with hmem | hmem
    · exact h.unborn d hmem n hn
    · rw [hds d hmem] at hn
      cases hn
  · rw [hown]
    exact h.phase n i hi
  · rw [hown]
    exact h.holders x hx

theorem own_unborn (h : L.Kept lost born log held) : L.own born.length log = [] := by
  unfold own
  refine List.filter_eq_nil_iff.2 fun d hd => ?_
  simpa using fun hn => Nat.lt_irrefl _ (h.unborn d hd _ hn)

theorem key_lt (h : L.Kept lost born log held) {x : Holder} (hx : x ∈ held) :
    L.key x < born.length := by
  obtain ⟨i, φ, hi, -, -⟩ := h.holders x hx
  exact (List.getElem?_eq_some_iff.1 hi).1

/-- **A life begins**, and comes to rest. -/
theorem enter (h : L.Kept lost born log held) {i : Born} {ds : List Entry} {xs : List Holder}
    (hds : L.Of born.length ds) {φ : Phase}
    (hrun : (L.life i born.length).run L.start (L.own born.length ds) = some φ)
    (hrests : L.Rests lost i born.length φ xs) :
    L.Kept lost (born ++ [i]) (log ++ ds) (held ++ xs) := by
  have hnew : (born ++ [i])[born.length]? = some i := by simp
  have hown : L.own born.length (log ++ ds) = L.own born.length ds := by
    rw [own_append, h.own_unborn, List.nil_append]
  have hold : ∀ {n}, n < born.length →
      (born ++ [i])[n]? = born[n]? ∧ L.own n (log ++ ds) = L.own n log := by
    intro n hn
    rw [List.getElem?_append_left hn, own_append, hds.own_eq_nil (by omega), List.append_nil]
    exact ⟨rfl, rfl⟩
  have hkeys : ∀ x ∈ xs, L.key x = born.length ∧ L.At i x φ := by
    intro x hx
    cases hrests with
    | ended => cases hx
    | lost => cases hx
    | held hkey hat =>
      obtain rfl := List.mem_singleton.1 hx
      exact ⟨hkey, hat⟩
  refine ⟨fun d hd n hn => ?_, fun n j hj => ?_, fun x hx => ?_, ?_⟩
  · rw [List.length_append, List.length_singleton]
    rcases List.mem_append.1 hd with hmem | hmem
    · have := h.unborn d hmem n hn
      omega
    · rcases hds d hmem with heq | hnone
      · rw [hn, Option.some.injEq] at heq
        omega
      · rw [hn] at hnone
        cases hnone
  · rcases Nat.lt_trichotomy n born.length with hlt | rfl | hgt
    · rw [(hold hlt).1] at hj
      rw [(hold hlt).2]
      obtain ⟨φ', hrun', hφ'⟩ := h.phase n j hj
      refine ⟨φ', hrun', hφ'.imp_right (Or.imp_right fun hmem => ?_)⟩
      rw [List.map_append]
      exact List.mem_append_left _ hmem
    · rw [hnew, Option.some.injEq] at hj
      subst hj
      rw [hown]
      refine ⟨φ, hrun, ?_⟩
      cases hrests with
      | ended hover => exact .inl hover
      | held hkey => exact .inr (.inr (by simp [hkey]))
      | lost hlost => exact .inr (.inl hlost)
    · have hlen := (List.getElem?_eq_some_iff.1 hj).1
      rw [List.length_append, List.length_singleton] at hlen
      omega
  · rcases List.mem_append.1 hx with hmem | hmem
    · rw [(hold (h.key_lt hmem)).1, (hold (h.key_lt hmem)).2]
      exact h.holders x hmem
    · obtain ⟨hkey, hat⟩ := hkeys x hmem
      rw [hkey, hnew, hown]
      exact ⟨i, φ, rfl, hrun, hat⟩
  · rw [List.map_append, List.nodup_append]
    refine ⟨h.nodup, ?_, ?_⟩
    · cases hrests <;> simp
    · intro a ha b hb heq
      obtain ⟨x, hx, rfl⟩ := List.mem_map.1 ha
      obtain ⟨y, hy, rfl⟩ := List.mem_map.1 hb
      have hlt := h.key_lt hx
      have hkey := (hkeys y hy).1
      omega

/-- **What holds a life goes on with it**, until it comes to rest. -/
theorem advance {x : Holder} (h : L.Kept lost born log (x :: held)) {ds : List Entry}
    {xs : List Holder} (hds : L.Of (L.key x) ds)
    (hgo : ∀ i φ, born[L.key x]? = some i → L.At i x φ →
      ∃ φ', (L.life i (L.key x)).run φ (L.own (L.key x) ds) = some φ' ∧
        L.Rests lost i (L.key x) φ' xs) :
    L.Kept lost born (log ++ ds) (xs ++ held) := by
  obtain ⟨i, φ, hi, hrun, hat⟩ := h.holders x List.mem_cons_self
  obtain ⟨φ', hrun', hrests⟩ := hgo i φ hi hat
  have hown : (L.life i (L.key x)).run L.start (L.own (L.key x) (log ++ ds)) = some φ' := by
    rw [own_append, Machine.run_append hrun, hrun']
  have hother : ∀ {n}, n ≠ L.key x → L.own n (log ++ ds) = L.own n log := by
    intro n hn
    rw [own_append, hds.own_eq_nil hn, List.append_nil]
  have hkeys : ∀ y ∈ xs, L.key y = L.key x ∧ L.At i y φ' := by
    intro y hy
    cases hrests with
    | ended => cases hy
    | lost => cases hy
    | held hkey hat =>
      obtain rfl := List.mem_singleton.1 hy
      exact ⟨hkey, hat⟩
  obtain ⟨hfree, hnodup⟩ := List.nodup_cons.1 h.nodup
  refine ⟨fun d hd n hn => ?_, fun n j hj => ?_, fun y hy => ?_, ?_⟩
  · rcases List.mem_append.1 hd with hmem | hmem
    · exact h.unborn d hmem n hn
    · rcases hds d hmem with heq | hnone
      · rw [hn, Option.some.injEq] at heq
        exact heq ▸ h.key_lt List.mem_cons_self
      · rw [hn] at hnone
        cases hnone
  · by_cases hn : n = L.key x
    · subst hn
      rw [hi, Option.some.injEq] at hj
      subst hj
      refine ⟨φ', hown, ?_⟩
      cases hrests with
      | ended hover => exact .inl hover
      | held hkey => exact .inr (.inr (by simp [hkey]))
      | lost hlost => exact .inr (.inl hlost)
    · rw [hother hn]
      obtain ⟨φ₁, hrun₁, hφ₁⟩ := h.phase n j hj
      refine ⟨φ₁, hrun₁, hφ₁.imp_right (Or.imp_right fun hmem => ?_)⟩
      rw [List.map_cons, List.mem_cons] at hmem
      rw [List.map_append]
      exact List.mem_append_right _ (hmem.resolve_left hn)
  · rcases List.mem_append.1 hy with hmem | hmem
    · obtain ⟨hkey, hat'⟩ := hkeys y hmem
      rw [hkey]
      exact ⟨i, φ', hi, hown, hat'⟩
    · have hne : L.key y ≠ L.key x := fun heq => hfree (heq ▸ List.mem_map_of_mem hmem)
      rw [hother hne]
      exact h.holders y (List.mem_cons_of_mem x hmem)
  · rw [List.map_append, List.nodup_append]
    refine ⟨?_, hnodup, ?_⟩
    · cases hrests <;> simp
    · intro a ha b hb heq
      obtain ⟨y, hy, rfl⟩ := List.mem_map.1 ha
      rw [(hkeys y hy).1] at heq
      exact hfree (heq ▸ hb)

/-- **An entry of a life** is one the life takes, at the phase the entries
before it lead to. -/
theorem step_at (h : L.Kept lost born log held) {before after : List Entry} {d : Entry} {n : ℕ}
    (hlog : log = before ++ d :: after) (hd : L.number? d = some n) :
    ∃ i φ φ', born[n]? = some i ∧ (L.life i n).run L.start (L.own n before) = some φ ∧
      (L.life i n).step φ d = some φ' ∧ ∃ φ'', (L.life i n).run φ' (L.own n after) = some φ'' := by
  have hlt := h.unborn d (by rw [hlog]; simp) n hd
  obtain ⟨φ'', hrun, -⟩ := h.phase n born[n] (List.getElem?_eq_getElem hlt)
  rw [hlog, own_append, own_cons, if_pos hd, Machine.run_append_eq,
    Option.bind_eq_some_iff] at hrun
  obtain ⟨φ, hbefore, hrest⟩ := hrun
  obtain ⟨φ', hstep, hafter⟩ := Machine.run_cons_eq_some.1 hrest
  exact ⟨born[n], φ, φ', List.getElem?_eq_getElem hlt, hbefore, hstep, φ'', hafter⟩

/-- **What is held is not over.** -/
theorem open_of_held (h : L.Kept lost born log held) (hopen : ∀ i x φ, L.At i x φ → ¬ L.Over φ)
    {n : ℕ} {i : Born} {φ : Phase} (hi : born[n]? = some i)
    (hrun : (L.life i n).run L.start (L.own n log) = some φ) (hheld : n ∈ held.map L.key) :
    ¬ L.Over φ := by
  obtain ⟨x, hx, rfl⟩ := List.mem_map.1 hheld
  obtain ⟨i', φ', hi', hrun', hat⟩ := h.holders x hx
  obtain rfl := Option.some.inj (hi.symm.trans hi')
  obtain rfl := Option.some.inj (hrun.symm.trans hrun')
  exact hopen i x φ hat

end Kept

end Ledger

end LibreDarwin
