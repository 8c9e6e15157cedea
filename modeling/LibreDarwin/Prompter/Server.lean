import LibreDarwin.Prompter.Model.Server
import LibreDarwin.Prompter.Model.Library

/-!
# One connection, one request

What a connection amounts to is its `Account`: whether it is still read,
the worker blocks that hold its descriptor, and what happened on its
behalf. Each input changes one account, so the invariant is about one at a
time: `Life` lists the accounts there can be, from the accept to the last
reply, and every step leads from one of them to the next.
-/

namespace LibreDarwin

namespace Prompter

open Wire Function

variable {L : AgentLibrary} {s s' : Server} {id : ConnId}

/-- **What a connection amounts to.** -/
structure Account where
  read : Bool
  tasks : List (Task × Bool)
  marks : List Mark

/-- The blocks of one connection. -/
def tasksIn (blocks : List Block) (id : ConnId) : List (Task × Bool) :=
  (blocks.filter fun b => b.conn = id).map fun b => (b.task, b.called)

section Blocks

variable {blocks : List Block} {b : Block} {i : ℕ}

theorem tasksIn_append (pre post : List Block) :
    tasksIn (pre ++ post) id = tasksIn pre id ++ tasksIn post id := by
  simp [tasksIn]

theorem tasksIn_cons (b : Block) (blocks : List Block) :
    tasksIn (b :: blocks) id =
      if b.conn = id then (b.task, b.called) :: tasksIn blocks id else tasksIn blocks id := by
  by_cases h : b.conn = id <;> simp [tasksIn, h]

theorem tasksIn_snoc (blocks : List Block) (b : Block) :
    tasksIn (blocks ++ [b]) =
      update (tasksIn blocks) b.conn (tasksIn blocks b.conn ++ [(b.task, b.called)]) := by
  funext d
  rw [tasksIn_append, tasksIn_cons]
  by_cases h : d = b.conn
  · subst h
    rw [update_self, if_pos rfl]
    rfl
  · rw [update_of_ne h, if_neg (Ne.symm h)]
    exact List.append_nil _

/-- A place in a list, with what is before it and behind it. -/
theorem exists_split (h : blocks[i]? = some b) (b' : Block) :
    ∃ pre post, blocks = pre ++ b :: post ∧ blocks.set i b' = pre ++ b' :: post ∧
      blocks.eraseIdx i = pre ++ post := by
  obtain ⟨hlt, rfl⟩ := List.getElem?_eq_some_iff.1 h
  refine ⟨blocks.take i, blocks.drop (i + 1), ?_, ?_, ?_⟩
  · rw [← List.drop_eq_getElem_cons hlt, List.take_append_drop]
  · rw [List.set_eq_take_append_cons_drop, if_pos hlt]
  · exact List.eraseIdx_eq_take_drop_succ blocks i

/-- A block that is its connection's only one stands alone. -/
theorem tasksIn_of_only {pre post : List Block}
    (h : tasksIn (pre ++ b :: post) b.conn = [(b.task, b.called)]) :
    tasksIn pre b.conn = [] ∧ tasksIn post b.conn = [] := by
  rw [tasksIn_append, tasksIn_cons, if_pos rfl] at h
  have hlen := congrArg List.length h
  simp only [List.length_append, List.length_cons, List.length_nil] at hlen
  exact ⟨List.eq_nil_of_length_eq_zero (by omega), List.eq_nil_of_length_eq_zero (by omega)⟩

theorem tasksIn_set (h : blocks[i]? = some b) (b' : Block) (hconn : b'.conn = b.conn)
    (honly : tasksIn blocks b.conn = [(b.task, b.called)]) :
    tasksIn (blocks.set i b') =
      update (tasksIn blocks) b.conn [(b'.task, b'.called)] := by
  obtain ⟨pre, post, hsplit, hset, -⟩ := exists_split h b'
  funext d
  rw [hset]
  by_cases hd : d = b.conn
  · subst hd
    rw [hsplit] at honly
    obtain ⟨hpre, hpost⟩ := tasksIn_of_only honly
    rw [update_self, tasksIn_append, tasksIn_cons, if_pos hconn, hpre, hpost]
    rfl
  · rw [update_of_ne hd, hsplit, tasksIn_append, tasksIn_append, tasksIn_cons, tasksIn_cons,
      if_neg (hconn ▸ Ne.symm hd), if_neg (Ne.symm hd)]

theorem tasksIn_eraseIdx (h : blocks[i]? = some b)
    (honly : tasksIn blocks b.conn = [(b.task, b.called)]) :
    tasksIn (blocks.eraseIdx i) = update (tasksIn blocks) b.conn [] := by
  obtain ⟨pre, post, hsplit, -, herase⟩ := exists_split h b
  funext d
  rw [herase]
  by_cases hd : d = b.conn
  · subst hd
    rw [hsplit] at honly
    obtain ⟨hpre, hpost⟩ := tasksIn_of_only honly
    rw [update_self, tasksIn_append, hpre, hpost, List.append_nil]
  · rw [update_of_ne hd, hsplit, tasksIn_append, tasksIn_append, tasksIn_cons,
      if_neg (Ne.symm hd)]

theorem mem_tasksIn (h : blocks[i]? = some b) : (b.task, b.called) ∈ tasksIn blocks b.conn := by
  have hmem : b ∈ blocks := List.mem_of_getElem? h
  exact List.mem_map.2 ⟨b, List.mem_filter.2 ⟨hmem, by simp⟩, rfl⟩

end Blocks

namespace Server

def tasksOf (s : Server) : ConnId → List (Task × Bool) := tasksIn s.blocks

def marksOf (s : Server) (peer : Peer.Name) : List Mark :=
  (s.trace.filter fun e => e.1 = peer).map Prod.snd

def account (s : Server) (id : ConnId) : Account :=
  ⟨id ∈ s.connections, s.tasksOf id, s.marksOf (.conn id)⟩

/-! ## Each operation, account by account -/

theorem marksOf_log (s : Server) (peer peer' : Peer.Name) (marks : List Mark) :
    (s.log peer marks).marksOf peer' =
      if peer' = peer then s.marksOf peer' ++ marks else s.marksOf peer' := by
  by_cases h : peer' = peer
  · subst h
    simp [log, marksOf, List.filter_append, List.filter_map, Function.comp_def]
  · simp [log, marksOf, List.filter_append, List.filter_map, Function.comp_def, h, Ne.symm h]

theorem account_log (s : Server) (c : ConnId) (marks : List Mark) :
    (s.log (.conn c) marks).account =
      update s.account c { s.account c with marks := s.marksOf (.conn c) ++ marks } := by
  funext d
  by_cases h : d = c
  · subst h
    rw [update_self]
    simp only [account, marksOf_log, if_true]
    rfl
  · rw [update_of_ne h]
    have hne : Peer.Name.conn d ≠ .conn c := fun heq => h (Peer.Name.conn.inj heq)
    simp only [account, marksOf_log, if_neg hne]
    rfl

/-- Other blocks of one connection. -/
theorem account_blocks (s : Server) {c : ConnId} {blocks : List Block} {tasks : List (Task × Bool)}
    (h : tasksIn blocks = update (tasksIn s.blocks) c tasks) :
    ({ s with blocks := blocks } : Server).account =
      update s.account c { s.account c with tasks := tasks } := by
  funext d
  simp only [account, tasksOf, h]
  by_cases hd : d = c
  · subst hd
    rw [update_self, update_self]
    rfl
  · rw [update_of_ne hd, update_of_ne hd]
    rfl

theorem account_closeConnection (s : Server) (c : ConnId) :
    (s.closeConnection c).account = update s.account c { s.account c with read := false } := by
  funext d
  by_cases h : d = c
  · subst h
    rw [update_self]
    simp [account, closeConnection, tasksOf, marksOf]
  · rw [update_of_ne h]
    simp [account, closeConnection, tasksOf, marksOf, h]


end Server

/-! ## What a dispatch leaves -/

def Dispatch.tasks : Dispatch → List (Task × Bool)
  | .post task => [(task, false)]
  | _ => []

def Dispatch.marks : Dispatch → List Mark
  | .handle call => [.called call]
  | _ => []

namespace Server

theorem account_carryOut (s : Server) (c : ConnId) (d : Dispatch) :
    (s.carryOut c d).account =
      update s.account c
        { s.account c with
          tasks := s.tasksOf c ++ d.tasks
          marks := s.marksOf (.conn c) ++ d.marks } := by
  cases d with
  | drop =>
    refine (update_eq_self_iff.2 ?_).symm
    simp only [Dispatch.tasks, Dispatch.marks, List.append_nil]
    rfl
  | handle call =>
    rw [carryOut, account_log]
    simp [account, Dispatch.tasks, Dispatch.marks]
  | post task =>
    funext e
    simp only [account, carryOut, tasksOf, tasksIn_snoc, Dispatch.tasks, Dispatch.marks,
      List.append_nil]
    by_cases h : e = c
    · subst h
      rw [update_self, update_self]
      rfl
    · rw [update_of_ne h, update_of_ne h]
      rfl

end Server

/-! ## The life of a connection -/

/-- A connection that has not been heard of but in pieces. -/
def heard (n : ℕ) : List Mark := .accepted :: List.replicate n (.arrived [] true)

theorem heard_succ (n : ℕ) : heard (n + 1) = heard n ++ [.arrived [] true] := by
  rw [heard, heard, List.replicate_succ', List.cons_append]

/-- From the frame on: the blocks that are left of it, and what has
happened. -/
inductive Serving (L : AgentLibrary) (frame : Bytes) : List (Task × Bool) → List Mark → Prop
  | dropped : dispatch L frame = .drop → Serving L frame [] []
  | handled {call : Call} : dispatch L frame = .handle call → Serving L frame [] [.called call]
  | queued {task : Task} : dispatch L frame = .post task → Serving L frame [(task, false)] []
  | refused {reply : PrompterReply} :
      dispatch L frame = .post (.refuse reply) → Serving L frame [] [.replied reply]
  | running {call : Call} :
      dispatch L frame = .post (.call call) → Serving L frame [(.call call, true)] [.called call]
  | done {call : Call} {result : Result} :
      dispatch L frame = .post (.call call) → call.returns result = true →
      Serving L frame [] [.called call, .returned result, .replied result.reply]

/-- **The accounts there can be.** -/
inductive Life (L : AgentLibrary) : Account → Prop
  | unborn : Life L ⟨false, [], []⟩
  | reading (n : ℕ) : Life L ⟨true, [], heard n⟩
  | stopped (n : ℕ) : Life L ⟨false, [], heard n⟩
  | ended (n : ℕ) : Life L ⟨false, [], heard n ++ [.arrived [] false]⟩
  | served (n : ℕ) {frame : Bytes} (frames : List Bytes) (ok : Bool)
      {tasks : List (Task × Bool)} {marks : List Mark} : Serving L frame tasks marks →
      Life L ⟨false, tasks, heard n ++ .arrived (frame :: frames) ok :: marks⟩

namespace Life

theorem of_read {a : Account} (h : Life L a) (hread : a.read = true) :
    ∃ n, a = ⟨true, [], heard n⟩ := by
  cases h with
  | reading n => exact ⟨n, rfl⟩
  | _ => cases hread

/-- A connection with a block has one, and has sent its request. -/
theorem of_task {a : Account} {t : Task × Bool} (h : Life L a) (ht : t ∈ a.tasks) :
    ∃ n frame frames ok marks,
      a = ⟨false, [t], heard n ++ .arrived (frame :: frames) ok :: marks⟩ ∧
        Serving L frame [t] marks := by
  cases h with
  | served n frames ok hserving =>
    rename_i frame tasks marks
    have hone : tasks = [t] := by
      cases hserving with
      | queued hd => exact congrArg (fun x => [x]) (List.mem_singleton.1 ht).symm
      | running hd => exact congrArg (fun x => [x]) (List.mem_singleton.1 ht).symm
      | _ => cases ht
    subst hone
    exact ⟨n, frame, frames, ok, marks, rfl, hserving⟩
  | _ => cases ht

theorem unborn_of_marks {a : Account} (h : Life L a) (hmarks : a.marks = []) :
    a = ⟨false, [], []⟩ := by
  cases h with
  | unborn => rfl
  | _ => simp [heard] at hmarks

end Life

theorem Serving.of_dispatch (L : AgentLibrary) (frame : Bytes) :
    Serving L frame (dispatch L frame).tasks (dispatch L frame).marks := by
  cases h : dispatch L frame with
  | drop => exact .dropped h
  | handle call => exact .handled h
  | post task => exact .queued h

/-! ## Every step leads on -/

/-- **What every server keeps.** -/
structure Server.Served (L : AgentLibrary) (s : Server) : Prop where
  life : ∀ id, Life L (s.account id)
  born : ∀ id, s.marksOf (.conn id) ≠ [] ↔ 1 ≤ id ∧ id < s.nextConnId
  next : 1 ≤ s.nextConnId
  refused : ∀ n, s.marksOf (.refused n) =
    if n < s.refused then [.rejected, .replied (.secret unauthorizedReply)] else []

namespace Server.Served

theorem init : Served L {} where
  life _ := .unborn
  born id := by
    simp only [marksOf, List.filter_nil, List.map_nil, ne_eq, not_true_eq_false, false_iff, not_and,
      not_lt]
    exact fun h => h
  next := le_refl _
  refused n := by simp [marksOf]

/-- A step on one account that has been born. -/
theorem of_update {c : ConnId} {a : Account} (h : Served L s)
    (haccount : s'.account = update s.account c a) (ha : Life L a)
    (hold : (s.account c).marks ≠ []) (hmarks : a.marks ≠ [])
    (hnext : s'.nextConnId = s.nextConnId) (hrefused : s'.refused = s.refused)
    (hothers : ∀ n, s'.marksOf (.refused n) = s.marksOf (.refused n)) : Served L s' := by
  have hmarksOf : ∀ id, s'.marksOf (.conn id) = (update s.account c a id).marks := by
    intro id
    rw [← haccount]
    rfl
  refine ⟨fun id => ?_, fun id => ?_, hnext ▸ h.next, fun n => ?_⟩
  · rw [haccount]
    by_cases hid : id = c
    · subst hid
      rw [update_self]
      exact ha
    · rw [update_of_ne hid]
      exact h.life id
  · rw [hmarksOf, hnext]
    by_cases hid : id = c
    · subst hid
      rw [update_self]
      exact iff_of_true hmarks ((h.born id).1 hold)
    · rw [update_of_ne hid]
      exact h.born id
  · rw [hothers, hrefused]
    exact h.refused n

theorem marksOf_log_refused (s : Server) (c : ConnId) (marks : List Mark) (n : ℕ) :
    (s.log (.conn c) marks).marksOf (.refused n) = s.marksOf (.refused n) := by
  rw [marksOf_log, if_neg nofun]

/-- The account of the next connection is empty. -/
theorem account_next (h : Served L s) : s.account s.nextConnId = ⟨false, [], []⟩ := by
  refine (h.life _).unborn_of_marks ?_
  by_contra hmarks
  exact lt_irrefl _ ((h.born _).1 hmarks).2

theorem acceptOne (h : Served L s) (authorized : Bool) : Served L (s.acceptOne authorized) := by
  rw [Server.acceptOne]
  cases authorized with
  | true =>
    have hnew : ∀ id, (s.acceptOne true).account id =
        if id = s.nextConnId then ⟨true, [], heard 0⟩ else s.account id := by
      intro id
      rw [Server.acceptOne, if_pos rfl, account_log]
      have hnext := h.account_next
      simp only [account, Account.mk.injEq] at hnext
      by_cases hid : id = s.nextConnId
      · subst hid
        rw [update_self, if_pos rfl]
        simp only [account, Finset.mem_insert_self, decide_true, Account.mk.injEq, true_and]
        exact ⟨hnext.2.1, congrArg (· ++ [Mark.accepted]) hnext.2.2⟩
      · rw [update_of_ne hid, if_neg hid]
        simp [account, hid, tasksOf, marksOf]
    rw [if_pos rfl]
    refine ⟨fun id => ?_, fun id => ?_, Nat.le_succ_of_le h.next, fun n => ?_⟩
    · refine (hnew id).symm ▸ ?_
      split
      · exact .reading 0
      · exact h.life id
    · show ((s.acceptOne true).account id).marks ≠ [] ↔ 1 ≤ id ∧ id < s.nextConnId + 1
      rw [hnew]
      split
      · rename_i hid
        subst hid
        exact iff_of_true (by simp [heard]) ⟨h.next, Nat.lt_succ_self _⟩
      · rename_i hid
        rw [show (s.account id).marks = s.marksOf (.conn id) from rfl, h.born]
        refine and_congr_right fun _ => ⟨Nat.lt_succ_of_lt, fun hlt => ?_⟩
        exact lt_of_le_of_ne (Nat.lt_succ_iff.1 hlt) hid
    · rw [marksOf_log_refused]
      exact h.refused n
  | false =>
    rw [if_neg Bool.false_ne_true]
    have haccount : ∀ id, s.marksOf (.conn id) =
        (({ s with refused := s.refused + 1 } : Server).log (.refused s.refused)
          [.rejected, .replied (.secret unauthorizedReply)]).marksOf (.conn id) := by
      intro id
      rw [marksOf_log, if_neg nofun]
      rfl
    refine ⟨fun id => ?_, fun id => ?_, h.next, fun n => ?_⟩
    · have hlife := h.life id
      rw [account, haccount] at hlife
      exact hlife
    · rw [← haccount]
      exact h.born id
    · rw [marksOf_log]
      have hn := h.refused n
      show (if Peer.Name.refused n = .refused s.refused then s.marksOf (.refused n) ++ _
        else s.marksOf (.refused n)) = if n < s.refused + 1 then _ else _
      by_cases hlast : n = s.refused
      · subst hlast
        rw [if_pos rfl, if_pos (Nat.lt_succ_self _), hn, if_neg (lt_irrefl _)]
        rfl
      · have hne : Peer.Name.refused n ≠ .refused s.refused :=
          fun heq => hlast (Peer.Name.refused.inj heq)
        rw [if_neg hne, hn]
        by_cases hlt : n < s.refused
        · rw [if_pos hlt, if_pos (Nat.lt_succ_of_lt hlt)]
        · rw [if_neg hlt, if_neg (by omega)]

theorem onReadReady (h : Served L s) (id : ConnId) (frames : List Bytes) (ok : Bool) :
    Served L (s.onReadReady L id frames ok) := by
  rw [Server.onReadReady]
  split
  · exact h
  rename_i hread
  obtain ⟨n, hid⟩ := (h.life id).of_read (decide_eq_true (not_not.1 hread))
  have hold : (s.account id).marks ≠ [] := by
    rw [hid]
    simp [heard]
  have htasks : s.tasksOf id = [] := congrArg Account.tasks hid
  have hmarks : s.marksOf (.conn id) = heard n := congrArg Account.marks hid
  -- the connection after the log, read still
  have hlog : (s.log (.conn id) [.arrived frames ok]).account =
      update s.account id ⟨true, [], heard n ++ [.arrived frames ok]⟩ := by
    rw [account_log, hid, hmarks]
  have hclosed : ((s.log (.conn id) [.arrived frames ok]).closeConnection id).account =
      update s.account id ⟨false, [], heard n ++ [.arrived frames ok]⟩ := by
    rw [account_closeConnection, hlog, update_idem, update_self]
  cases frames with
  | nil =>
    dsimp only
    split
    · rename_i hok
      subst hok
      rw [← heard_succ] at hlog
      exact h.of_update hlog (.reading _) hold (by simp [heard]) rfl rfl
        fun n => marksOf_log_refused _ _ _ _
    · rename_i hok
      obtain rfl : ok = false := by simpa using hok
      exact h.of_update hclosed (.ended n) hold (by simp [heard]) rfl rfl
        fun n => marksOf_log_refused _ _ _ _
  | cons frame frames =>
    dsimp only
    have hserved : (((s.log (.conn id) [.arrived (frame :: frames) ok]).closeConnection id).carryOut
        id (dispatch L frame)).account = update s.account id
          ⟨false, (dispatch L frame).tasks,
            heard n ++ .arrived (frame :: frames) ok :: (dispatch L frame).marks⟩ := by
      rw [account_carryOut, hclosed, update_idem, update_self]
      have hmarks' := congrFun hclosed id
      rw [update_self] at hmarks'
      rw [show ((s.log (.conn id) [.arrived (frame :: frames) ok]).closeConnection id).tasksOf id
          = [] from congrArg Account.tasks hmarks',
        show ((s.log (.conn id) [.arrived (frame :: frames) ok]).closeConnection id).marksOf
          (.conn id) = _ from congrArg Account.marks hmarks', List.nil_append, List.append_assoc,
        List.singleton_append]
    have hkeep : ∀ (s : Server) (d : Dispatch), (s.carryOut id d).nextConnId = s.nextConnId ∧
        (s.carryOut id d).refused = s.refused ∧
        ∀ n, (s.carryOut id d).marksOf (.refused n) = s.marksOf (.refused n) := by
      intro s d
      cases d with
      | drop => exact ⟨rfl, rfl, fun _ => rfl⟩
      | handle call => exact ⟨rfl, rfl, fun n => marksOf_log_refused _ _ _ _⟩
      | post task => exact ⟨rfl, rfl, fun _ => rfl⟩
    obtain ⟨hnext, hrefused, hothers⟩ := hkeep
      ((s.log (.conn id) [.arrived (frame :: frames) ok]).closeConnection id) (dispatch L frame)
    refine h.of_update hserved (.served n frames ok (.of_dispatch L frame)) hold (by simp [heard])
      hnext hrefused fun n => ?_
    rw [hothers]
    exact marksOf_log_refused _ _ _ _

/-- A block that is run or returns: its connection has one, and nothing
else happens. -/
theorem of_block (h : Served L s) {i : ℕ} {block : Block} (hi : s.blocks[i]? = some block) :
    ∃ n frame frames ok marks,
      s.account block.conn = ⟨false, [(block.task, block.called)],
        heard n ++ .arrived (frame :: frames) ok :: marks⟩ ∧
      Serving L frame [(block.task, block.called)] marks :=
  (h.life block.conn).of_task (mem_tasksIn hi)

theorem of_blocks (h : Served L s) {c : ConnId} {blocks : List Block}
    {tasks : List (Task × Bool)} {frame : Bytes} {frames : List Bytes} {ok : Bool} {n : ℕ}
    {old marks : List Mark} {before : List (Task × Bool)}
    (haccount : s.account c = ⟨false, before, heard n ++ .arrived (frame :: frames) ok :: old⟩)
    (hblocks : tasksIn blocks = update (tasksIn s.blocks) c tasks)
    (hserving : Serving L frame tasks (old ++ marks)) :
    Served L (({ s with blocks := blocks } : Server).log (.conn c) marks) := by
  have hmarks : s.marksOf (.conn c) = heard n ++ .arrived (frame :: frames) ok :: old :=
    congrArg Account.marks haccount
  have hafter : (({ s with blocks := blocks } : Server).log (.conn c) marks).account =
      update s.account c
        ⟨false, tasks, heard n ++ .arrived (frame :: frames) ok :: (old ++ marks)⟩ := by
    rw [account_log, account_blocks s hblocks, update_idem, update_self, haccount]
    rw [show ({ s with blocks := blocks } : Server).marksOf (.conn c) = _ from hmarks,
      List.append_assoc, List.cons_append]
  refine h.of_update hafter (.served n frames ok hserving) ?_ (by simp [heard]) rfl rfl
    fun n => marksOf_log_refused _ _ _ _
  rw [haccount]
  simp [heard]

theorem runBlock (h : Served L s) {i : ℕ} (hrun : s.runBlock i = some s') : Served L s' := by
  rw [Server.runBlock] at hrun
  cases hi : s.blocks[i]? with
  | none => simp [hi] at hrun
  | some block =>
    obtain ⟨n, frame, frames, ok, marks, haccount, hserving⟩ := h.of_block hi
    have honly : tasksIn s.blocks block.conn = [(block.task, block.called)] :=
      congrArg Account.tasks haccount
    obtain ⟨conn, task, called⟩ := block
    cases called with
    | true => simp [hi] at hrun
    | false =>
      cases task with
      | refuse reply =>
        simp only [hi, Bool.false_eq_true, if_false, Option.some.injEq] at hrun
        subst hrun
        refine h.of_blocks haccount (tasksIn_eraseIdx hi honly) ?_
        cases hserving with
        | queued hd => exact .refused hd
      | call call =>
        simp only [hi, Bool.false_eq_true, if_false, Option.some.injEq] at hrun
        subst hrun
        refine h.of_blocks haccount (tasksIn_set hi ⟨conn, .call call, true⟩ rfl honly) ?_
        cases hserving with
        | queued hd => exact .running hd

theorem providerReturns (h : Served L s) {i : ℕ} {result : Result}
    (hret : s.providerReturns i result = some s') : Served L s' := by
  rw [Server.providerReturns] at hret
  cases hi : s.blocks[i]? with
  | none => simp [hi] at hret
  | some block =>
    obtain ⟨n, frame, frames, ok, marks, haccount, hserving⟩ := h.of_block hi
    have honly : tasksIn s.blocks block.conn = [(block.task, block.called)] :=
      congrArg Account.tasks haccount
    obtain ⟨conn, task, called⟩ := block
    cases task with
    | refuse reply => simp [hi] at hret
    | call call =>
      simp only [hi] at hret
      split at hret
      · rename_i hreturns
        obtain ⟨rfl, hreturns⟩ := hreturns
        obtain rfl := Option.some.inj hret
        refine h.of_blocks haccount (tasksIn_eraseIdx hi honly) ?_
        cases hserving with
        | running hd => exact .done hd hreturns
      · cases hret

theorem stop (h : Served L s) : Served L s.stop := by
  refine ⟨fun id => ?_, h.born, h.next, h.refused⟩
  have hlife := h.life id
  have haccount : s.stop.account id = { s.account id with read := false } := by
    simp [account, Server.stop, tasksOf, marksOf]
  rw [haccount]
  generalize s.account id = a at hlife
  cases hlife with
  | unborn => exact .unborn
  | reading n => exact .stopped n
  | stopped n => exact .stopped n
  | ended n => exact .ended n
  | served n frames ok hserving => exact .served n frames ok hserving

/-- **The step lemma.** -/
theorem step {i : ServerInput} (h : Served L s) (hstep : s.step L i = some s') :
    Served L s' := by
  cases i with
  | accept authorized =>
    rw [Server.step] at hstep
    split at hstep
    · obtain rfl := Option.some.inj hstep
      exact h.acceptOne authorized
    · cases hstep
  | readReady id frames ok =>
    obtain rfl := Option.some.inj hstep
    exact h.onReadReady id frames ok
  | runBlock i => exact h.runBlock hstep
  | providerReturns i result => exact h.providerReturns hstep
  | stop =>
    obtain rfl := Option.some.inj hstep
    exact h.stop
  | start =>
    obtain rfl := Option.some.inj hstep
    exact ⟨h.life, h.born, h.next, h.refused⟩

end Server.Served

/-- **What becomes of a frame**, when all of it is done. -/
inductive Acted (L : AgentLibrary) (frame : Bytes) : List Mark → Prop
  | silent {e : PrompterParseError} :
      parsePrompterRequest L frame = .error e → e ≠ .unsupportedVersion → Acted L frame []
  | newer :
      parsePrompterRequest L frame = .error .unsupportedVersion →
      Acted L frame [.replied (.secret unsupportedVersionReply)]
  | cancel {r : PromptCancel} :
      parsePrompterRequest L frame = .ok (.cancel r) → Acted L frame [.called (.cancel r.promptId)]
  | prompt {r : PromptRequest} (reply : PromptReply) :
      parsePrompterRequest L frame = .ok (.prompt r) →
      Acted L frame [.called (.provider r), .returned (.secret reply), .replied (.secret reply)]
  | secrets {r : RequestSecrets} (reply : MultiPromptReply) :
      parsePrompterRequest L frame = .ok (.secrets r) →
      Acted L frame
        [.called (.multiProvider r), .returned (.secrets reply), .replied (.secrets reply)]
  | confirm {r : ConfirmAction} (reply : ConfirmReply) :
      parsePrompterRequest L frame = .ok (.confirm r) → r.kind = "configure_trust" →
      Acted L frame
        [.called (.confirmProvider r), .returned (.confirm reply), .replied (.confirm reply)]
  | unconfirmed {r : ConfirmAction} :
      parsePrompterRequest L frame = .ok (.confirm r) → r.kind ≠ "configure_trust" →
      Acted L frame [.replied (.confirm unsupportedConfirmation)]
  | reset (count : UInt32) :
      parsePrompterRequest L frame = .ok .reset →
      Acted L frame
        [.called .reset, .returned (.closed count), .replied (.resetDone ⟨count⟩)]

section Dispatched

variable {frame : Bytes}

theorem acted_of_handle {call : Call} (h : dispatch L frame = .handle call) :
    Acted L frame [.called call] := by
  unfold dispatch at h
  split at h
  · cases h
  · cases h
  · rename_i r hparse
    cases h
    exact .cancel hparse
  · cases h
  · cases h
  · split at h <;> cases h
  · cases h

end Dispatched

end Prompter

end LibreDarwin
