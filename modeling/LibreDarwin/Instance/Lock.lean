import LibreDarwin.Common.History
import LibreDarwin.Instance.Model.Lock

/-!
# At most one instance

The holder unlinks the lock file before it lets go, so a lock may be won on
a file that is gone. What makes `acquire` right is that it looks at the
path once more, and that nobody but the holder of the file the path names
can change what it names: such a holder keeps its name (`Kept.names`) until
its own unlink, and two of them would hold one lock.
-/

namespace LibreDarwin

namespace Instance

variable {P : Type*}

/-- The file a contender has open. -/
def Pc.fd : Pc → Option File
  | .opened _ f | .checked _ f | .granted _ f | .retrying _ f | .failing f _ | .holding f
  | .releasing f | .named f | .closing f => some f
  | .idle | .opening _ | .failed _ => none

/-- The file a contender has locked. -/
def Pc.lock : Pc → Option File
  | .granted _ f | .retrying _ f | .holding f | .releasing f | .named f | .closing f => some f
  | _ => none

/-- The locked file a contender has seen the path name, and not unlinked
since. -/
def Pc.names : Pc → Option File
  | .holding f | .releasing f | .named f => some f
  | _ => none

theorem Pc.lock_of_names {c : Pc} {f : File} (h : c.names = some f) : c.lock = some f := by
  cases c <;> first | exact h | cases h

/-- **What every call keeps.** -/
structure Kept (s : LockState P) : Prop where
  fds : ∀ p f, (p, f) ∈ s.fds ↔ (s.pc p).fd = some f
  locks : ∀ p f, (f, p) ∈ s.locks ↔ (s.pc p).lock = some f
  alone : ∀ p q f, (f, p) ∈ s.locks → (f, q) ∈ s.locks → p = q
  inodes : ∀ p f, (p, f) ∈ s.fds → ∀ g, s.path = some g ∨ (∃ q, (q, g) ∈ s.fds) →
    f.ino = g.ino → f = g
  names : ∀ p f, (s.pc p).names = some f → s.path = some f

theorem Quiet.kept {s : LockState P} (h : Quiet s) : Kept s where
  fds p f := by simp [h.fds, h.pc p, Pc.fd]
  locks p f := by simp [h.locks, h.pc p, Pc.lock]
  alone p q f hp := by simp [h.locks] at hp
  inodes p f hf := by simp [h.fds] at hf
  names p f hf := by simp [h.pc p, Pc.names] at hf

namespace Kept

variable [DecidableEq P] {s : LockState P}

omit [DecidableEq P] in
theorem mark (h : Kept s) (m : Mark P) : Kept (s.mark m) :=
  ⟨h.fds, h.locks, h.alone, h.inodes, h.names⟩

/-- **A call that opens, locks and unlinks nothing.** -/
theorem goto (h : Kept s) {p : P} {c : Pc} (hfd : c.fd = (s.pc p).fd) (hlock : c.lock = (s.pc p).lock)
    (hnames : ∀ f, c.names = some f → s.path = some f) : Kept (s.goto p c) := by
  have hpc : ∀ q, (s.goto p c).pc q = if q = p then c else s.pc q := fun q => by
    simp only [LockState.goto, Function.update_apply]
  refine ⟨fun q f => ?_, fun q f => ?_, h.alone, h.inodes, fun q f hf => ?_⟩
  · rw [hpc q]
    split
    · next heq => rw [heq, hfd]; exact h.fds p f
    · exact h.fds q f
  · rw [hpc q]
    split
    · next heq => rw [heq, hlock]; exact h.locks p f
    · exact h.locks q f
  · rw [hpc q] at hf
    split at hf
    · exact hnames f hf
    · exact h.names q f hf

/-- A descriptor on the file the path names. -/
theorem opens (h : Kept s) {p : P} {f : File} {attempt : ℕ} (hp : (s.pc p).fd = none)
    (hlock : (s.pc p).lock = none) (hpath : s.path = some f) :
    Kept ({ s with fds := (p, f) :: s.fds }.goto p (.opened attempt f)) := by
  have hpc : ∀ q, ({ s with fds := (p, f) :: s.fds }.goto p (.opened attempt f)).pc q =
      if q = p then .opened attempt f else s.pc q := fun q => by
    simp only [LockState.goto, Function.update_apply]
  refine ⟨fun q g => ?_, fun q g => ?_, h.alone, ?_, fun q g hg => ?_⟩
  · rw [hpc q]
    show (q, g) ∈ (p, f) :: s.fds ↔ _
    rw [List.mem_cons, h.fds q g]
    split
    · next heq => subst heq; rw [hp]; simp [Pc.fd, eq_comm]
    · next hne => simp [hne]
  · rw [hpc q]
    show (g, q) ∈ s.locks ↔ _
    rw [h.locks q g]
    split
    · next heq => subst heq; rw [hlock]; simp [Pc.lock]
    · rfl
  · -- every file open now was open, or named, before
    have hold : ∀ q g, (q, g) ∈ (p, f) :: s.fds → g = f ∨ (q, g) ∈ s.fds := by
      intro q g hg
      rcases List.mem_cons.1 hg with heq | hg
      · exact .inl (congrArg Prod.snd heq)
      · exact .inr hg
    intro q g hg g' hg' hino
    have hnamed : s.path = some g' ∨ ∃ q, (q, g') ∈ s.fds := by
      rcases hg' with hg' | ⟨q', hg'⟩
      · exact .inl hg'
      · rcases hold q' g' hg' with rfl | hg'
        · exact .inl hpath
        · exact .inr ⟨q', hg'⟩
    rcases hold q g hg with rfl | hg
    · rcases hnamed with hg' | ⟨q', hg'⟩
      · rw [hpath] at hg'
        exact Option.some.inj hg'
      · exact (h.inodes q' g' hg' g (.inl hpath) hino.symm).symm
    · exact h.inodes q g hg g' hnamed hino
  · rw [hpc q] at hg
    split at hg
    · cases hg
    · exact h.names q g hg

omit [DecidableEq P] in
/-- A file made at the path, with a number no descriptor refers to. -/
theorem creates (h : Kept s) {f : File} {n : ℕ} (hpath : s.path = none)
    (hfresh : f.ino ∉ s.fds.map fun e => e.2.ino) :
    Kept { s with path := some f, nextSerial := n } := by
  refine ⟨h.fds, h.locks, h.alone, fun p g hg g' hg' hino => ?_, fun p g hg => ?_⟩
  · rcases hg' with hg' | hg'
    · obtain rfl := Option.some.inj hg'
      exact absurd (List.mem_map.2 ⟨(p, g), hg, hino⟩) hfresh
    · exact h.inodes p g hg g' (.inr hg') hino
  · have hnone := h.names p g hg
    rw [hpath] at hnone
    cases hnone

/-- A lock granted on a file nobody has locked. -/
theorem grants (h : Kept s) {p : P} {f : File} {attempt : ℕ} (hp : s.pc p = .checked attempt f)
    (hfree : f ∉ s.locks.map Prod.fst) :
    Kept ({ s with locks := (f, p) :: s.locks }.goto p (.granted attempt f)) := by
  have hpc : ∀ q, ({ s with locks := (f, p) :: s.locks }.goto p (.granted attempt f)).pc q =
      if q = p then .granted attempt f else s.pc q := fun q => by
    simp only [LockState.goto, Function.update_apply]
  have hnot : ∀ q, (f, q) ∉ s.locks := fun q hq => hfree (List.mem_map.2 ⟨(f, q), hq, rfl⟩)
  refine ⟨fun q g => ?_, fun q g => ?_, fun q q' g hq hq' => ?_, h.inodes, fun q g hg => ?_⟩
  · rw [hpc q]
    show (q, g) ∈ s.fds ↔ _
    rw [h.fds q g]
    split
    · next heq => subst heq; rw [hp]; rfl
    · rfl
  · rw [hpc q]
    show (g, q) ∈ (f, p) :: s.locks ↔ _
    rw [List.mem_cons, h.locks q g]
    split
    · next heq => subst heq; rw [hp]; simp [Pc.lock, eq_comm]
    · next hne => simp [hne]
  · rcases List.mem_cons.1 hq with heq | hq <;> rcases List.mem_cons.1 hq' with heq' | hq'
    · exact (congrArg Prod.snd heq).trans (congrArg Prod.snd heq').symm
    · cases heq
      exact absurd hq' (hnot q')
    · cases heq'
      exact absurd hq (hnot q)
    · exact h.alone q q' g hq hq'
  · rw [hpc q] at hg
    split at hg
    · cases hg
    · exact h.names q g hg

/-- **The holder removes the file**: no other contender has seen the path
name it, since that one would hold the same lock. -/
theorem unlinks (h : Kept s) {p : P} {f : File} (hp : s.pc p = .named f) (ok : Bool) :
    Kept ({ s with path := if ok then none else s.path }.goto p (.closing f)) := by
  have hnames : (s.pc p).names = some f := by rw [hp]; rfl
  have hmine : (f, p) ∈ s.locks := (h.locks p f).2 (Pc.lock_of_names hnames)
  have hpc : ∀ q, ({ s with path := if ok then none else s.path }.goto p (.closing f)).pc q =
      if q = p then .closing f else s.pc q := fun q => by
    simp only [LockState.goto, Function.update_apply]
  have hpath : ∀ g, (if ok then none else s.path) = some g → s.path = some g := by
    intro g hg
    split at hg
    · cases hg
    · exact hg
  refine ⟨fun q g => ?_, fun q g => ?_, h.alone, fun q g hg g' hg' hino => ?_, fun q g hg => ?_⟩
  · rw [hpc q]
    show (q, g) ∈ s.fds ↔ _
    rw [h.fds q g]
    split
    · next heq => subst heq; rw [hp]; rfl
    · rfl
  · rw [hpc q]
    show (g, q) ∈ s.locks ↔ _
    rw [h.locks q g]
    split
    · next heq => subst heq; rw [hp]; rfl
    · rfl
  · exact h.inodes q g hg g' (hg'.imp_left (hpath g')) hino
  · rw [hpc q] at hg
    split at hg
    · cases hg
    · next hne =>
      have hsame : g = f := by
        have hg' := h.names q g hg
        rw [h.names p f hnames] at hg'
        exact (Option.some.inj hg').symm
      subst hsame
      have htheirs : (g, q) ∈ s.locks := (h.locks q g).2 (Pc.lock_of_names hg)
      exact absurd (h.alone q p g htheirs hmine) hne

/-- **A contender's descriptor is closed**, and its lock gone with it. -/
theorem drops (h : Kept s) {p : P} {c : Pc} (hfd : c.fd = none) (hlock : c.lock = none) :
    Kept ((s.drop p).goto p c) := by
  have hpc : ∀ q, ((s.drop p).goto p c).pc q = if q = p then c else s.pc q := fun q => by
    simp only [LockState.goto, LockState.drop, Function.update_apply]
  have hfds : ∀ q g, (q, g) ∈ (s.drop p).fds ↔ q ≠ p ∧ (q, g) ∈ s.fds := fun q g => by
    simp [LockState.drop, and_comm]
  have hlocks : ∀ q g, (g, q) ∈ (s.drop p).locks ↔ q ≠ p ∧ (g, q) ∈ s.locks := fun q g => by
    simp [LockState.drop, and_comm]
  refine ⟨fun q g => ?_, fun q g => ?_, fun q q' g hq hq' => ?_, fun q g hg g' hg' hino => ?_,
    fun q g hg => ?_⟩
  · rw [hpc q]
    refine (hfds q g).trans ?_
    split
    · next heq => simp [heq, hfd]
    · next hne => simp [hne, h.fds q g]
  · rw [hpc q]
    refine (hlocks q g).trans ?_
    split
    · next heq => simp [heq, hlock]
    · next hne => simp [hne, h.locks q g]
  · exact h.alone q q' g ((hlocks q g).1 hq).2 ((hlocks q' g).1 hq').2
  · refine h.inodes q g ((hfds q g).1 hg).2 g' (hg'.imp_right ?_) hino
    rintro ⟨q', hq'⟩
    exact ⟨q', ((hfds q' g').1 hq').2⟩
  · rw [hpc q] at hg
    split at hg
    · next heq =>
      have := Pc.lock_of_names hg
      rw [hlock] at this
      cases this
    · exact h.names q g hg

omit [DecidableEq P] in
/-- What `pathNames` compares are numbers, and a number the path and an open
descriptor share is one file's. -/
theorem pathNames (h : Kept s) {p : P} {f : File} (hfd : (s.pc p).fd = some f) {ok : Bool}
    (hnames : s.pathNames ok f = true) : s.path = some f := by
  simp only [LockState.pathNames, Bool.and_eq_true, beq_iff_eq, Option.map_eq_some_iff] at hnames
  obtain ⟨-, g, hg, hino⟩ := hnames
  have := h.inodes p f ((h.fds p f).2 hfd) g (.inl hg) hino.symm
  rw [hg, this]

/-- **Every call keeps it.** -/
theorem step (h : Kept s) {i : LockInput P} {t : LockState P} (hst : s.step i = some t) :
    Kept t := by
  cases i with
  | acquire p =>
    simp only [LockState.step] at hst
    split at hst
    · next hp =>
      obtain rfl := Option.some.inj hst
      exact (h.goto (by rw [hp]; rfl) (by rw [hp]; rfl) (by rintro f ⟨⟩)).mark _
    · next hp =>
      obtain rfl := Option.some.inj hst
      exact (h.goto (by rw [hp]; rfl) (by rw [hp]; rfl) (by rintro f ⟨⟩)).mark _
    · cases hst
  | openCreate p ok ino =>
    simp only [LockState.step] at hst
    split at hst
    · next attempt hp =>
      have hfd : (s.pc p).fd = none := by rw [hp]; rfl
      have hlock : (s.pc p).lock = none := by rw [hp]; rfl
      split at hst
      · unfold LockState.openCreate at hst
        split at hst
        · next f hpath =>
          obtain rfl := Option.some.inj hst
          exact h.opens hfd hlock hpath
        · next hpath =>
          split at hst
          · cases hst
          · next hfresh =>
            obtain rfl := Option.some.inj hst
            exact (h.creates hpath hfresh).opens hfd hlock rfl
      · obtain rfl := Option.some.inj hst
        exact (h.goto (by rw [hp]; rfl) (by rw [hp]; rfl) (by rintro f ⟨⟩)).mark _
    · cases hst
  | fstat p ok =>
    simp only [LockState.step] at hst
    split at hst
    · next attempt f hp =>
      obtain rfl := Option.some.inj hst
      cases ok <;> exact h.goto (by rw [hp]; rfl) (by rw [hp]; rfl) (by rintro f ⟨⟩)
    · cases hst
  | flock p ok =>
    simp only [LockState.step] at hst
    split at hst
    · next attempt f hp =>
      split at hst
      · obtain rfl := Option.some.inj hst
        exact h.goto (by rw [hp]; rfl) (by rw [hp]; rfl) (by rintro f ⟨⟩)
      · next hfree =>
        split at hst
        · obtain rfl := Option.some.inj hst
          exact h.grants hp hfree
        · obtain rfl := Option.some.inj hst
          exact h.goto (by rw [hp]; rfl) (by rw [hp]; rfl) (by rintro f ⟨⟩)
    · cases hst
  | lstat p ok =>
    simp only [LockState.step] at hst
    split at hst
    · next attempt f hp =>
      have hfd : (s.pc p).fd = some f := by rw [hp]; rfl
      obtain rfl := Option.some.inj hst
      split
      · next hnames =>
        refine h.goto (by rw [hp]; rfl) (by rw [hp]; rfl) ?_
        rintro g ⟨⟩
        exact h.pathNames hfd hnames
      · exact h.goto (by rw [hp]; rfl) (by rw [hp]; rfl) (by rintro f ⟨⟩)
    · next f hp =>
      have hpath := h.names p f (by rw [hp]; rfl)
      obtain rfl := Option.some.inj hst
      split
      · refine h.goto (by rw [hp]; rfl) (by rw [hp]; rfl) ?_
        rintro g ⟨⟩
        exact hpath
      · exact h.goto (by rw [hp]; rfl) (by rw [hp]; rfl) (by rintro f ⟨⟩)
    · cases hst
  | unlink p ok =>
    simp only [LockState.step] at hst
    split at hst
    · next f hp =>
      obtain rfl := Option.some.inj hst
      exact (h.unlinks hp ok).mark _
    · cases hst
  | close p =>
    simp only [LockState.step] at hst
    split at hst
    · obtain rfl := Option.some.inj hst
      split
      · exact h.drops rfl rfl
      · exact (h.drops rfl rfl).mark _
    · obtain rfl := Option.some.inj hst
      exact (h.drops rfl rfl).mark _
    · obtain rfl := Option.some.inj hst
      exact h.drops rfl rfl
    · cases hst
  | bind p =>
    simp only [LockState.step] at hst
    split at hst
    · obtain rfl := Option.some.inj hst
      exact h.mark _
    · cases hst
  | release p =>
    simp only [LockState.step] at hst
    split at hst
    · next f hp =>
      have hpath := h.names p f (by rw [hp]; rfl)
      obtain rfl := Option.some.inj hst
      refine h.goto (by rw [hp]; rfl) (by rw [hp]; rfl) ?_
      rintro g ⟨⟩
      exact hpath
    · cases hst
  | exit p =>
    obtain rfl := Option.some.inj hst
    exact h.drops rfl rfl

end Kept

/-- What a contender did since its last `acquire` removed and bound
nothing. -/
def Untouched (trace : List (Mark P)) (p : P) : Prop :=
  ∃ a b, trace = a ++ .acquiring p :: b ∧ .unlinked p ∉ b ∧ .bound p ∉ b

theorem Untouched.snoc {trace : List (Mark P)} {p : P} (h : Untouched trace p) {m : Mark P}
    (hunlinked : m ≠ .unlinked p) (hbound : m ≠ .bound p) : Untouched (trace ++ [m]) p := by
  obtain ⟨a, b, rfl, hb₁, hb₂⟩ := h
  refine ⟨a, b ++ [m], by simp, ?_, ?_⟩
  · simpa [hb₁] using Ne.symm hunlinked
  · simpa [hb₂] using Ne.symm hbound

/-- `acquire` has not returned. -/
def Pc.Acquiring : Pc → Prop
  | .opening _ | .opened _ _ | .checked _ _ | .granted _ _ | .retrying _ _ | .failing _ _ => True
  | _ => False

/-- What one call of contender `p` does to where `p` is and to the trace. -/
inductive Turn (p : P) (s t : LockState P) : Prop
  | silent (htrace : t.trace = s.trace) (hpc : (t.pc p).Acquiring → (s.pc p).Acquiring)
  | acquiring (htrace : t.trace = s.trace ++ [.acquiring p])
  | failed (kind : Kind) (htrace : t.trace = s.trace ++ [.failed p kind])
      (hpc : (s.pc p).Acquiring) (hpc' : ¬ (t.pc p).Acquiring)
  | touched (m : Mark P) (hm : m = .unlinked p ∨ m = .bound p) (htrace : t.trace = s.trace ++ [m])
      (hpc : ¬ (t.pc p).Acquiring)

section Turn

variable [DecidableEq P] {s t : LockState P}

theorem pc_goto_of_ne (s : LockState P) {p q : P} (hq : q ≠ p) (c : Pc) :
    (s.goto p c).pc q = s.pc q := Function.update_of_ne hq _ _

theorem pc_goto (s : LockState P) (p : P) (c : Pc) : (s.goto p c).pc p = c :=
  Function.update_self _ _ _

/-- Going on, without a word. -/
theorem turn_goto {s' : LockState P} (htrace : s'.trace = s.trace) {p : P} {c : Pc}
    (hc : c.Acquiring → (s.pc p).Acquiring) : Turn p s (s'.goto p c) := by
  refine .silent htrace fun h => hc ?_
  rwa [pc_goto] at h

/-- `acquire` fails. -/
theorem turn_fail {s' : LockState P} (htrace : s'.trace = s.trace) {p : P} (kind : Kind)
    (hc : (s.pc p).Acquiring) : Turn p s (s'.fail p kind) := by
  refine .failed kind (congrArg (· ++ _) htrace) hc fun h => ?_
  have hpc : (s'.fail p kind).pc p = .failed kind := pc_goto s' p _
  rw [hpc] at h
  exact h

/-- **Every call is one contender's**, and does one of these things. -/
theorem turn_step {i : LockInput P} (hst : s.step i = some t) :
    ∃ p, (∀ q, q ≠ p → t.pc q = s.pc q) ∧ Turn p s t := by
  cases i with
  | acquire p =>
    refine ⟨p, ?_⟩
    simp only [LockState.step] at hst
    split at hst
    · obtain rfl := Option.some.inj hst
      exact ⟨fun q hq => pc_goto_of_ne s hq _, .acquiring rfl⟩
    · obtain rfl := Option.some.inj hst
      exact ⟨fun q hq => pc_goto_of_ne s hq _, .acquiring rfl⟩
    · cases hst
  | openCreate p ok ino =>
    refine ⟨p, ?_⟩
    simp only [LockState.step] at hst
    split at hst
    · next attempt hp =>
      have hpc : (s.pc p).Acquiring := by rw [hp]; trivial
      split at hst
      · unfold LockState.openCreate at hst
        split at hst
        · obtain rfl := Option.some.inj hst
          exact ⟨fun q hq => pc_goto_of_ne _ hq _, turn_goto (by rfl) fun _ => hpc⟩
        · split at hst
          · cases hst
          · obtain rfl := Option.some.inj hst
            exact ⟨fun q hq => pc_goto_of_ne _ hq _, turn_goto (by rfl) fun _ => hpc⟩
      · obtain rfl := Option.some.inj hst
        exact ⟨fun q hq => pc_goto_of_ne s hq _, turn_fail (by rfl) _ hpc⟩
    · cases hst
  | fstat p ok =>
    refine ⟨p, ?_⟩
    simp only [LockState.step] at hst
    split at hst
    · next attempt f hp =>
      have hpc : (s.pc p).Acquiring := by rw [hp]; trivial
      obtain rfl := Option.some.inj hst
      exact ⟨fun q hq => pc_goto_of_ne s hq _, turn_goto (by rfl) fun _ => hpc⟩
    · cases hst
  | flock p ok =>
    refine ⟨p, ?_⟩
    simp only [LockState.step] at hst
    split at hst
    · next attempt f hp =>
      have hpc : (s.pc p).Acquiring := by rw [hp]; trivial
      split at hst
      · obtain rfl := Option.some.inj hst
        exact ⟨fun q hq => pc_goto_of_ne s hq _, turn_goto (by rfl) fun _ => hpc⟩
      · split at hst
        · obtain rfl := Option.some.inj hst
          exact ⟨fun q hq => pc_goto_of_ne _ hq _, turn_goto (by rfl) fun _ => hpc⟩
        · obtain rfl := Option.some.inj hst
          exact ⟨fun q hq => pc_goto_of_ne s hq _, turn_goto (by rfl) fun _ => hpc⟩
    · cases hst
  | lstat p ok =>
    refine ⟨p, ?_⟩
    simp only [LockState.step] at hst
    split at hst
    · next attempt f hp =>
      have hpc : (s.pc p).Acquiring := by rw [hp]; trivial
      obtain rfl := Option.some.inj hst
      exact ⟨fun q hq => pc_goto_of_ne s hq _, turn_goto (by rfl) fun _ => hpc⟩
    · obtain rfl := Option.some.inj hst
      refine ⟨fun q hq => pc_goto_of_ne s hq _, turn_goto (by rfl) fun h => ?_⟩
      split at h <;> cases h
    · cases hst
  | unlink p ok =>
    refine ⟨p, ?_⟩
    simp only [LockState.step] at hst
    split at hst
    · next f hp =>
      obtain rfl := Option.some.inj hst
      refine ⟨fun q hq => pc_goto_of_ne _ hq _, .touched _ (.inl rfl) rfl ?_⟩
      show ¬ ((LockState.goto _ p (.closing f)).pc p).Acquiring
      rw [pc_goto]
      exact id
    · cases hst
  | close p =>
    refine ⟨p, ?_⟩
    simp only [LockState.step] at hst
    split at hst
    · next attempt f hp =>
      have hpc : (s.pc p).Acquiring := by rw [hp]; trivial
      obtain rfl := Option.some.inj hst
      split
      · exact ⟨fun q hq => pc_goto_of_ne _ hq _, turn_goto (by rfl) fun _ => hpc⟩
      · exact ⟨fun q hq => pc_goto_of_ne _ hq _, turn_fail (by rfl) _ hpc⟩
    · next f kind hp =>
      have hpc : (s.pc p).Acquiring := by rw [hp]; trivial
      obtain rfl := Option.some.inj hst
      exact ⟨fun q hq => pc_goto_of_ne _ hq _, turn_fail (by rfl) _ hpc⟩
    · obtain rfl := Option.some.inj hst
      exact ⟨fun q hq => pc_goto_of_ne _ hq _, turn_goto (by rfl) False.elim⟩
    · cases hst
  | bind p =>
    refine ⟨p, ?_⟩
    simp only [LockState.step] at hst
    split at hst
    · next f hp =>
      obtain rfl := Option.some.inj hst
      refine ⟨fun q hq => rfl, .touched _ (.inr rfl) rfl ?_⟩
      show ¬ (s.pc p).Acquiring
      rw [hp]
      exact id
    · cases hst
  | release p =>
    refine ⟨p, ?_⟩
    simp only [LockState.step] at hst
    split at hst
    · obtain rfl := Option.some.inj hst
      exact ⟨fun q hq => pc_goto_of_ne s hq _, turn_goto (by rfl) False.elim⟩
    · cases hst
  | exit p =>
    obtain rfl := Option.some.inj hst
    exact ⟨p, fun q hq => pc_goto_of_ne _ hq _, turn_goto (by rfl) False.elim⟩

end Turn

/-- A failed `acquire` has touched nothing, and one under way has not so
far. -/
structure Blameless (s : LockState P) : Prop where
  acquiring : ∀ p, (s.pc p).Acquiring → Untouched s.trace p
  failed : Accounted (fun before m => ∀ p kind, m = .failed p kind → Untouched before p) s.trace

theorem Quiet.blameless {s : LockState P} (h : Quiet s) : Blameless s where
  acquiring p hp := by
    rw [h.pc p] at hp
    cases hp
  failed := by
    rw [h.trace]
    exact .nil

/-- **Every call keeps that too.** -/
theorem Blameless.step [DecidableEq P] {s t : LockState P} (h : Blameless s) {i : LockInput P}
    (hst : s.step i = some t) : Blameless t := by
  obtain ⟨p, hothers, hturn⟩ := turn_step hst
  -- the others did nothing, whatever `p` left in the trace
  have hrest : ∀ {m : Mark P}, t.trace = s.trace ++ [m] → (∀ q, q ≠ p → m ≠ .unlinked q ∧ m ≠ .bound q) →
      ∀ q, q ≠ p → (t.pc q).Acquiring → Untouched t.trace q := by
    intro m htrace hm q hq hpc
    rw [hothers q hq] at hpc
    rw [htrace]
    exact (h.acquiring q hpc).snoc (hm q hq).1 (hm q hq).2
  cases hturn with
  | silent htrace hpc =>
    refine ⟨fun q hq => ?_, by rw [htrace]; exact h.failed⟩
    rw [htrace]
    by_cases heq : q = p
    · subst heq
      exact h.acquiring q (hpc hq)
    · rw [hothers q heq] at hq
      exact h.acquiring q hq
  | acquiring htrace =>
    refine ⟨fun q hq => ?_, ?_⟩
    · by_cases heq : q = p
      · subst heq
        exact ⟨s.trace, [], htrace, by simp, by simp⟩
      · exact hrest htrace (fun q _ => ⟨by rintro ⟨⟩, by rintro ⟨⟩⟩) q heq hq
    · rw [htrace]
      exact h.failed.snoc (by rintro q kind ⟨⟩)
  | failed kind htrace hpc hpc' =>
    refine ⟨fun q hq => ?_, ?_⟩
    · have heq : q ≠ p := by
        rintro rfl
        exact hpc' hq
      exact hrest htrace (fun q _ => ⟨by rintro ⟨⟩, by rintro ⟨⟩⟩) q heq hq
    · rw [htrace]
      refine h.failed.snoc ?_
      rintro q kind' ⟨⟩
      exact h.acquiring p hpc
  | touched m hm htrace hpc =>
    refine ⟨fun q hq => ?_, ?_⟩
    · have heq : q ≠ p := by
        rintro rfl
        exact hpc hq
      refine hrest htrace (fun q' hq' => ?_) q heq hq
      rcases hm with rfl | rfl
      · exact ⟨fun h => hq' (Mark.unlinked.inj h).symm, by rintro ⟨⟩⟩
      · exact ⟨by rintro ⟨⟩, fun h => hq' (Mark.bound.inj h).symm⟩
    · rw [htrace]
      refine h.failed.snoc ?_
      rintro q kind rfl
      rcases hm with hm | hm <;> cases hm

/-- **One instance on a path.** For any number of contenders and their
calls in any order: at most one is between the return of `acquire` and the
start of `release`, and the lock path names the file it locked; and an
`acquire` that fails has removed and bound nothing. -/
theorem one_instance [DecidableEq P] {s : LockState P} (h : (lockMachine P).Reachable s) :
    (∀ p q f g, s.pc p = .holding f → s.pc q = .holding g → p = q) ∧
    (∀ p f, s.pc p = .holding f → s.path = some f ∧ (f, p) ∈ s.locks) ∧
    ∀ a b p kind, s.trace = a ++ .failed p kind :: b → Untouched a p := by
  have hkept : Kept s := h.invariant (fun _ => Quiet.kept) fun _ _ _ hs hst => hs.step hst
  have hblameless : Blameless s :=
    h.invariant (fun _ => Quiet.blameless) fun _ _ _ hs hst => hs.step hst
  have hheld : ∀ p f, s.pc p = .holding f → s.path = some f ∧ (f, p) ∈ s.locks := by
    intro p f hp
    exact ⟨hkept.names p f (by rw [hp]; rfl), (hkept.locks p f).2 (by rw [hp]; rfl)⟩
  refine ⟨fun p q f g hp hq => ?_, hheld, fun a b p kind htrace => ?_⟩
  · obtain ⟨hpath, hlock⟩ := hheld p f hp
    obtain ⟨hpath', hlock'⟩ := hheld q g hq
    obtain rfl : f = g := Option.some.inj (hpath.symm.trans hpath')
    exact hkept.alone p q f hlock hlock'
  · exact hblameless.failed a _ b htrace p kind rfl

/-- A contender wins the lock of a file that the holder has just removed,
sees it, and makes a new one; a third is turned away. -/
def handover : List (LockInput ℕ) :=
  [.acquire 0, .openCreate 0 true 5, .fstat 0 true, .flock 0 true, .lstat 0 true, .bind 0,
   .acquire 1, .openCreate 1 true 0, .fstat 1 true, .release 0, .lstat 0 true, .unlink 0 true,
   .close 0, .flock 1 true, .lstat 1 true, .close 1, .openCreate 1 true 5, .fstat 1 true,
   .flock 1 true, .lstat 1 true, .acquire 2, .openCreate 2 true 0, .fstat 2 true, .flock 2 true,
   .close 2]

theorem one_instance_handover :
    ∃ s, (lockMachine ℕ).run (.quiet ℕ none) handover = some s ∧
      s.pc 1 = .holding ⟨1, 5⟩ ∧ s.path = some ⟨1, 5⟩ ∧ (∀ p f, s.pc p = .holding f → p = 1) ∧
      ∃ a, s.trace = a ++ [.failed 2 .anotherInstance] ∧ Untouched a 2 := by
  have hreach : ∀ s, (lockMachine ℕ).run (.quiet ℕ none) handover = some s →
      (lockMachine ℕ).Reachable s := fun s hrun => ⟨_, _, LockState.quiet_quiet ℕ none, hrun⟩
  refine ⟨_, rfl, rfl, ?_, fun p f hp => ?_, [_, _, _, _, _], rfl, ?_⟩
  · exact ((one_instance (hreach _ rfl)).2.1 1 _ rfl).1
  · exact (one_instance (hreach _ rfl)).1 p 1 f ⟨1, 5⟩ hp rfl
  · exact (one_instance (hreach _ rfl)).2.2 [_, _, _, _, _] [] 2 .anotherInstance rfl

end Instance

end LibreDarwin
