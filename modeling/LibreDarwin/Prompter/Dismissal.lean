import LibreDarwin.Prompter.Model.Library
import LibreDarwin.Prompter.Model.System
import LibreDarwin.Prompter.Server
import LibreDarwin.Prompter.Window

/-!
# What a dismissal reaches

What the serial queue processed is never lost: a request or a dismissal is
in a worker block, on the main queue, between the two halves of a reset,
or done, and in one of these places once (`Kept.account`). That is not
enough for a dismissal to close what it should: its way to the main thread
is shorter than a request's, so its sweep may come before the panel is
raised. Where no sweep does (`Clear`), every panel it should have closed
is answered by then.
-/

namespace LibreDarwin

namespace Prompter

open Wire

/-- Whether a dismissal is for a panel with this id. -/
def Scope.Covers : Scope → String → Prop
  | .cancel promptId, p => promptId ≠ "" ∧ p = promptId
  | .reset, _ => True

instance (scope : Scope) (p : String) : Decidable (scope.Covers p) := by
  unfold Scope.Covers
  split <;> infer_instance

def Order.conn : Order → ConnId
  | .request conn _ => conn
  | .dismissal conn _ => conn

/-- Whether one order is a dismissal for the panel of the other. -/
def Order.Dismisses : Order → Order → Prop
  | .dismissal _ scope, .request _ p => scope.Covers p
  | _, _ => False

instance (o o' : Order) : Decidable (o.Dismisses o') := by
  unfold Order.Dismisses
  split <;> infer_instance

/-- The block that sweeps for a dismissal. -/
def MainBlock.Sweeps : MainBlock → Prop
  | .dismiss _ _ | .dismissAll _ => True
  | .showPrompt _ _ | .showChangePrompt _ _ | .liveIds _ => False

instance (b : MainBlock) : Decidable b.Sweeps := by
  unfold MainBlock.Sweeps
  split <;> infer_instance

/-- The status a handler returns. -/
def Result.status : Result → Option PromptReplyStatus
  | .secret r => some r.status
  | .secrets r => some r.status
  | .confirm r => some r.status
  | .closed _ => none

variable {L : AgentLibrary} {s s' : System} {c : ConnId} {o : Order}

/-- The worker blocks a dispatch leaves. -/
def Dispatch.blocks (conn : ConnId) : Dispatch → List Block
  | .post task => [⟨conn, task, false⟩]
  | .drop | .handle _ => []

/-- What a worker block has still to put on the main queue. -/
def Block.orders (L : AgentLibrary) (b : Block) : List Order :=
  if b.called then [] else (b.task.order L b.conn).toList

theorem Call.mainBlock_order (call : Call) :
    (call.mainBlock L c).map MainBlock.order = call.order L c := by
  cases call with
  | provider r => rfl
  | multiProvider r =>
    rw [Call.mainBlock, Call.order]
    split <;> rfl
  | cancel promptId => rfl
  | confirmProvider r => rfl
  | reset => rfl

theorem Task.mainBlock_order (task : Task) :
    (task.mainBlock L c).map MainBlock.order = task.order L c := by
  cases task with
  | call call => exact call.mainBlock_order
  | refuse reply => rfl

/-- What is dispatched goes to the workers or to the main queue. -/
theorem Dispatch.order_split (d : Dispatch) :
    (d.blocks c).flatMap (Block.orders L) ++ (d.mainBlock L c).toList.map MainBlock.order =
      (d.order L c).toList := by
  cases d with
  | drop => rfl
  | handle call =>
    rw [Dispatch.order, ← call.mainBlock_order, Dispatch.mainBlock]
    cases call.mainBlock L c <;> rfl
  | post task => simp [Dispatch.blocks, Dispatch.mainBlock, Dispatch.order, Block.orders]

theorem Call.order_conn {call : Call} (h : call.order L c = some o) : o.conn = c := by
  cases call with
  | provider r => cases h; rfl
  | multiProvider r =>
    rw [Call.order] at h
    split at h
    · cases h; rfl
    · cases h
  | cancel promptId => cases h; rfl
  | confirmProvider r => cases h
  | reset => cases h; rfl

theorem Dispatch.order_conn {d : Dispatch} (h : d.order L c = some o) : o.conn = c := by
  cases d with
  | drop => cases h
  | handle call => exact call.order_conn h
  | post task =>
    cases task with
    | call call => exact call.order_conn h
    | refuse reply => cases h

namespace Window

/-- The holder and the clock raise nothing, and take no answer back. -/
theorem Kept.step_user {w : Window} {i : WindowInput} (hk : w.Kept) (hi : i.fromUser = true) :
    (w.step L i).raised = w.raised ∧ w.answers <+: (w.step L i).answers := by
  by_cases hfills : i.Fills
  · cases i with
    | edit id field value =>
      rw [Window.step, Window.edit]
      split
      · exact ⟨rfl, List.prefix_rfl⟩
      · split
        · exact ⟨rfl, List.prefix_rfl⟩
        · exact ⟨rfl, List.prefix_rfl⟩
    | showPrompt req => cases hi
    | showChangePrompt req => cases hi
    | _ => cases hfills
  · obtain ⟨ids, hanswers, -⟩ := hk.step_answers (L := L) i hfills
    obtain ⟨new, hnew, -, -⟩ := hanswers.answers
    exact ⟨hanswers.raised, new, hnew.symm⟩

end Window

namespace System

/-- A request or a dismissal that is still in a worker block. -/
def inBlocks (L : AgentLibrary) (s : System) : List Order :=
  s.server.blocks.flatMap (Block.orders L)

def inQueue (s : System) : List Order := s.mainQueue.map MainBlock.order

def inReset (s : System) : List Order := s.listed.map fun conn => .dismissal conn .reset

def onScreen (s : System) : List Order := List.zipWith .request s.raisers s.window.raised

def swept (s : System) : List Order := s.sweeps.map fun e => .dismissal e.1 e.2.1

/-- **What the prompter keeps.** -/
structure Kept (L : AgentLibrary) (s : System) : Prop where
  served : s.server.Served L
  window : s.window.Kept
  raisers : s.raisers.length = s.window.raised.length
  account : ∀ o, (s.inBlocks L).count o + s.inQueue.count o + s.inReset.count o +
    s.onScreen.count o + s.swept.count o = s.orders.count o
  once : (s.orders.map Order.conn).Nodup
  unread : ∀ o ∈ s.orders,
    o.conn < s.server.nextConnId ∧ o.conn ∉ s.server.connections
  asked : ∀ b ∈ s.server.blocks, ∀ o ∈ s.orders, o.conn = b.conn →
    b.task.order L b.conn = some o

/-! ## What the server does -/

theorem carryOut_fields (s : Server) (c : ConnId) (d : Dispatch) :
    (s.carryOut c d).blocks = s.blocks ++ d.blocks c ∧
      (s.carryOut c d).nextConnId = s.nextConnId ∧
      (s.carryOut c d).connections = s.connections := by
  cases d with
  | drop => exact ⟨(List.append_nil _).symm, rfl, rfl⟩
  | handle call => exact ⟨(List.append_nil _).symm, rfl, rfl⟩
  | post task => exact ⟨rfl, rfl, rfl⟩

/-- A step of the serial queue that dispatches nothing. -/
structure Idle (s t : Server) : Prop where
  blocks : t.blocks = s.blocks
  next : s.nextConnId ≤ t.nextConnId
  connections : ∀ c < s.nextConnId, c ∈ t.connections → c ∈ s.connections

/-- And one that dispatches the request of a connection. -/
structure Dispatches (s t : Server) (c : ConnId) (d : Dispatch) : Prop where
  read : c ∈ s.connections
  blocks : t.blocks = s.blocks ++ d.blocks c
  next : t.nextConnId = s.nextConnId
  connections : t.connections = s.connections.erase c

/-- **What a block of the serial queue can do.** -/
theorem serial_cases {i : ServerInput} (h : s.serial L i = some s') :
    ∃ server, s.server.step L i = some server ∧
      (Idle s.server server ∧ s' = { s with server := server } ∨
        ∃ c d, Dispatches s.server server c d ∧
          s' = { s with server := server
                        mainQueue := s.mainQueue ++ (d.mainBlock L c).toList
                        orders := s.orders ++ (d.order L c).toList }) := by
  rw [serial] at h
  split at h
  swap
  · cases h
  rename_i hserial
  obtain ⟨server, hstep, rfl⟩ := Option.map_eq_some_iff.1 h
  refine ⟨server, hstep, ?_⟩
  cases i with
  | accept authorized =>
    left
    refine ⟨?_, rfl⟩
    rw [Server.step] at hstep
    split at hstep
    swap
    · cases hstep
    obtain rfl := Option.some.inj hstep
    cases authorized with
    | true =>
      refine ⟨rfl, Nat.le_succ _, fun c hc hmem => ?_⟩
      exact Finset.mem_of_mem_insert_of_ne hmem hc.ne
    | false => exact ⟨rfl, le_refl _, fun c hc hmem => hmem⟩
  | readReady id frames ok =>
    obtain rfl := Option.some.inj hstep
    by_cases hread : id ∈ s.server.connections
    swap
    · left
      refine ⟨?_, ?_⟩
      · rw [Server.onReadReady, if_pos hread]
        exact ⟨rfl, le_refl _, fun c hc hmem => hmem⟩
      · cases frames with
        | nil => rfl
        | cons frame frames => simp [dispatched, hread]
    cases frames with
    | nil =>
      left
      refine ⟨?_, rfl⟩
      rw [Server.onReadReady, if_neg (not_not.2 hread)]
      dsimp only
      split
      · exact ⟨rfl, le_refl _, fun c hc hmem => hmem⟩
      · exact ⟨rfl, le_refl _, fun c hc hmem => Finset.mem_of_mem_erase hmem⟩
    | cons frame frames =>
      right
      refine ⟨id, dispatch L frame, ?_, ?_⟩
      · rw [Server.onReadReady, if_neg (not_not.2 hread)]
        obtain ⟨hblocks, hnext, hconns⟩ := carryOut_fields
          ((s.server.log (.conn id) [.arrived (frame :: frames) ok]).closeConnection id) id
          (dispatch L frame)
        exact ⟨hread, hblocks, hnext, hconns⟩
      · simp [dispatched, hread]
  | stop =>
    left
    obtain rfl := Option.some.inj hstep
    exact ⟨⟨rfl, le_refl _, fun c hc hmem => absurd hmem (Finset.notMem_empty c)⟩, rfl⟩
  | start =>
    left
    obtain rfl := Option.some.inj hstep
    exact ⟨⟨rfl, le_refl _, fun c hc hmem => hmem⟩, rfl⟩
  | runBlock i => cases hserial
  | providerReturns i result => cases hserial

/-- **What a worker can do** when it takes a block up. -/
theorem runBlock_cases {i : ℕ} (h : s.runBlock L i = some s') :
    ∃ block server pre post, s.server.blocks = pre ++ block :: post ∧ block.called = false ∧
      s.server.step L (.runBlock i) = some server ∧
      server.nextConnId = s.server.nextConnId ∧ server.connections = s.server.connections ∧
      (server.blocks = pre ++ post ∧ block.task.order L block.conn = none ∨
        server.blocks = pre ++ { block with called := true } :: post) ∧
      s' = { s with server := server
                    mainQueue := s.mainQueue ++ (block.task.mainBlock L block.conn).toList } := by
  rw [System.runBlock] at h
  cases hi : s.server.blocks[i]? with
  | none => simp [hi] at h
  | some block =>
    simp only [hi] at h
    obtain ⟨server, hstep, rfl⟩ := Option.map_eq_some_iff.1 h
    have hrun := hstep
    rw [Server.runBlock, hi] at hstep
    obtain ⟨pre, post, hsplit, hset, herase⟩ :=
      exists_split hi { block with called := true }
    dsimp only at hstep
    split at hstep
    · cases hstep
    rename_i hcalled
    refine ⟨block, server, pre, post, hsplit, by simpa using hcalled, hrun, ?_⟩
    split at hstep
    · rename_i reply htask
      obtain rfl := Option.some.inj hstep
      exact ⟨rfl, rfl, .inl ⟨herase, by rw [htask]; rfl⟩, rfl⟩
    · obtain rfl := Option.some.inj hstep
      exact ⟨rfl, rfl, .inr hset, rfl⟩

theorem providerReturns_cases {i : ℕ} {result : Result}
    (h : s.providerReturns L i result = some s') :
    ∃ block server pre post, s.server.blocks = pre ++ block :: post ∧ block.called = true ∧
      s.server.step L (.providerReturns i result) = some server ∧
      server.nextConnId = s.server.nextConnId ∧ server.connections = s.server.connections ∧
      server.blocks = pre ++ post ∧ s' = { s with server := server } := by
  rw [System.providerReturns] at h
  split at h
  swap
  · cases h
  rename_i conn call called hi
  split at h
  swap
  · cases h
  obtain ⟨server, hstep, rfl⟩ := Option.map_eq_some_iff.1 h
  have hret := hstep
  rw [Server.providerReturns, hi] at hstep
  obtain ⟨pre, post, hsplit, -, herase⟩ := exists_split hi ⟨conn, .call call, called⟩
  dsimp only at hstep
  split at hstep
  swap
  · cases hstep
  rename_i hcalled
  obtain rfl := Option.some.inj hstep
  exact ⟨_, _, pre, post, hsplit, hcalled.1, hret, rfl, rfl, herase, rfl⟩

/-! ## Nothing is lost -/

namespace Kept

theorem init : Kept L {} where
  served := .init
  window := .init
  raisers := rfl
  account o := rfl
  once := List.nodup_nil
  unread := by simp
  asked := by simp

/-- A connection that is still read has no worker block. -/
theorem ne_of_read (hk : Kept L s) (hc : c ∈ s.server.connections) {b : Block}
    (hb : b ∈ s.server.blocks) : b.conn ≠ c := by
  rintro rfl
  obtain ⟨n, haccount⟩ := (hk.served.life b.conn).of_read (decide_eq_true hc)
  obtain ⟨i, hi, hget⟩ := List.getElem_of_mem hb
  have hmem := mem_tasksIn (List.getElem?_eq_some_iff.2 ⟨hi, hget⟩)
  rw [show tasksIn s.server.blocks b.conn = [] from congrArg Account.tasks haccount] at hmem
  cases hmem

theorem serial {i : ServerInput} (hk : Kept L s) (h : s.serial L i = some s') : Kept L s' := by
  obtain ⟨server, hstep, ⟨hidle, rfl⟩ | ⟨c, d, hd, rfl⟩⟩ := serial_cases h
  · refine ⟨hk.served.step hstep, hk.window, hk.raisers, fun o => ?_, hk.once, ?_, ?_⟩
    · simp only [inBlocks, hidle.blocks]
      exact hk.account o
    · intro o ho
      obtain ⟨hborn, hread⟩ := hk.unread o ho
      exact ⟨lt_of_lt_of_le hborn hidle.next, fun hmem => hread (hidle.connections _ hborn hmem)⟩
    · simp only [hidle.blocks]
      exact hk.asked
  · have hnew : ∀ o ∈ (d.order L c).toList, o.conn = c :=
      fun o ho => d.order_conn (Option.mem_toList.1 ho)
    have hold : ∀ o ∈ s.orders, o.conn ≠ c := by
      rintro o ho rfl
      exact (hk.unread o ho).2 hd.read
    have hborn : c < s.server.nextConnId := by
      refine ((hk.served.born c).1 ?_).2
      obtain ⟨n, haccount⟩ := (hk.served.life c).of_read (decide_eq_true hd.read)
      rw [show s.server.marksOf (.conn c) = heard n from congrArg Account.marks haccount]
      simp [heard]
    refine ⟨hk.served.step hstep, hk.window, hk.raisers, fun o => ?_, ?_, ?_, ?_⟩
    · have hsplit := congrArg (List.count o) (d.order_split (L := L) (c := c))
      have haccount := hk.account o
      simp only [inBlocks, inQueue, hd.blocks, List.flatMap_append, List.map_append,
        List.count_append] at hsplit haccount ⊢
      simp only [inReset, onScreen, swept] at haccount ⊢
      omega
    · rw [List.map_append]
      refine List.nodup_append.2 ⟨hk.once, ?_, ?_⟩
      · cases d.order L c with
        | none => exact List.nodup_nil
        | some o => exact List.nodup_singleton _
      · intro x hx y hy hxy
        obtain ⟨o, ho, rfl⟩ := List.mem_map.1 hx
        obtain ⟨o', ho', rfl⟩ := List.mem_map.1 hy
        exact hold o ho (hxy.trans (hnew o' ho'))
    · intro o ho
      simp only [hd.next, hd.connections]
      rcases List.mem_append.1 ho with ho | ho
      · obtain ⟨hlt, hread⟩ := hk.unread o ho
        exact ⟨hlt, fun hmem => hread (Finset.mem_of_mem_erase hmem)⟩
      · rw [hnew o ho]
        exact ⟨hborn, Finset.notMem_erase c _⟩
    · intro b hb o ho hconn
      simp only [hd.blocks] at hb
      rcases List.mem_append.1 hb with hb | hb
      · have hne := hk.ne_of_read hd.read hb
        rcases List.mem_append.1 ho with ho | ho
        · exact hk.asked b hb o ho hconn
        · exact absurd (hconn.symm.trans (hnew o ho)) hne
      · cases d with
        | post task =>
          obtain rfl := List.mem_singleton.1 hb
          rcases List.mem_append.1 ho with ho | ho
          · exact absurd hconn (hold o ho)
          · exact Option.mem_toList.1 ho
        | _ => cases hb

theorem runBlock {i : ℕ} (hk : Kept L s) (h : s.runBlock L i = some s') : Kept L s' := by
  obtain ⟨block, server, pre, post, hsplit, hcalled, hstep, hnext, hconns, hblocks, rfl⟩ :=
    runBlock_cases h
  refine ⟨hk.served.step hstep, hk.window, hk.raisers, fun o => ?_, hk.once, ?_, ?_⟩
  · have haccount := hk.account o
    have horder : (block.task.mainBlock L block.conn).toList.map MainBlock.order =
        block.orders L := by
      rw [Block.orders, hcalled, ← block.task.mainBlock_order]
      cases block.task.mainBlock L block.conn <;> rfl
    simp only [inBlocks, inQueue, hsplit, List.flatMap_append, List.flatMap_cons, List.map_append,
      List.count_append, horder] at haccount ⊢
    simp only [inReset, onScreen, swept] at haccount ⊢
    rcases hblocks with ⟨hblocks, hnone⟩ | hblocks
    · have hnil : block.orders L = [] := by
        rw [Block.orders, hnone]
        simp
      simp only [hblocks, hnil, List.flatMap_append, List.count_append, List.count_nil]
        at haccount ⊢
      omega
    · have hnil : Block.orders L { block with called := true } = [] := rfl
      simp only [hblocks, hnil, List.flatMap_append, List.flatMap_cons, List.count_append,
        List.count_nil]
      omega
  · simp only [hnext, hconns]
    exact hk.unread
  · intro b hb o ho hconn
    have hasked := hk.asked
    rw [hsplit] at hasked
    rcases hblocks with ⟨hblocks, -⟩ | hblocks
    · simp only [hblocks, List.mem_append] at hb
      refine hasked b ?_ o ho hconn
      rw [List.mem_append, List.mem_cons]
      exact hb.imp_right .inr
    · simp only [hblocks, List.mem_append, List.mem_cons] at hb
      rcases hb with hb | rfl | hb
      · exact hasked b (List.mem_append_left _ hb) o ho hconn
      · exact hasked block (List.mem_append_right _ List.mem_cons_self) o ho hconn
      · exact hasked b (List.mem_append_right _ (List.mem_cons_of_mem _ hb)) o ho hconn

theorem providerReturns {i : ℕ} {result : Result} (hk : Kept L s)
    (h : s.providerReturns L i result = some s') : Kept L s' := by
  obtain ⟨block, server, pre, post, hsplit, hcalled, hstep, hnext, hconns, hblocks, rfl⟩ :=
    providerReturns_cases h
  refine ⟨hk.served.step hstep, hk.window, hk.raisers, fun o => ?_, hk.once, ?_, ?_⟩
  · have haccount := hk.account o
    have hnil : block.orders L = [] := by
      rw [Block.orders, hcalled]
      rfl
    simp only [inBlocks, hsplit, hblocks, hnil, List.flatMap_append, List.flatMap_cons,
      List.nil_append] at haccount ⊢
    exact haccount
  · simp only [hnext, hconns]
    exact hk.unread
  · intro b hb o ho hconn
    simp only [hblocks, List.mem_append] at hb
    refine hk.asked b ?_ o ho hconn
    rw [hsplit, List.mem_append, List.mem_cons]
    exact hb.imp_right .inr

theorem zipWith_snoc {α β γ : Type} {f : α → β → γ} {as : List α} {bs : List β} {a : α} {b : β}
    (h : as.length = bs.length) :
    List.zipWith f (as ++ [a]) (bs ++ [b]) = List.zipWith f as bs ++ [f a b] := by
  rw [List.zipWith_append h]
  rfl

theorem mainTurn (hk : Kept L s) (h : s.mainTurn = some s') : Kept L s' := by
  rw [System.mainTurn] at h
  cases hqueue : s.mainQueue with
  | nil => simp [hqueue] at h
  | cons block queue =>
    simp only [hqueue, Option.some.injEq] at h
    subst h
    have haccount : ∀ o, (s.inBlocks L).count o +
        ([block.order].count o + (queue.map MainBlock.order).count o) + s.inReset.count o +
        s.onScreen.count o + s.swept.count o = s.orders.count o := by
      intro o
      rw [← hk.account o, ← List.count_append, inQueue, hqueue]
      rfl
    -- a panel is raised, a sweep is run, or the panels are listed
    cases block with
    | showPrompt conn req =>
      refine ⟨hk.served, hk.window.step (L := L) (.showPrompt req), ?_, fun o => ?_, hk.once,
        hk.unread, hk.asked⟩
      · simp [runMain, Window.showPrompt, Window.raise, hk.raisers]
      · have haccount := haccount o
        simp only [onScreen, runMain, Window.showPrompt, Window.raise, zipWith_snoc hk.raisers,
          List.count_append, MainBlock.order] at haccount ⊢
        simp only [inBlocks, inQueue, inReset, swept] at haccount ⊢
        omega
    | showChangePrompt conn req =>
      refine ⟨hk.served, hk.window.raise rfl ⟨rfl, rfl⟩, ?_, fun o => ?_, hk.once, hk.unread,
        hk.asked⟩
      · simp [runMain, Window.raise, hk.raisers]
      · have haccount := haccount o
        simp only [onScreen, runMain, Window.raise, zipWith_snoc hk.raisers, List.count_append,
          MainBlock.order] at haccount ⊢
        simp only [inBlocks, inQueue, inReset, swept] at haccount ⊢
        omega
    | dismiss conn promptId =>
      have hraised := (hk.window.finishPanels
        (if promptId.isEmpty then .unaddressed else .addressed) promptId).1.raised
      refine ⟨hk.served, hk.window.step (L := L) (.dismiss promptId), ?_, fun o => ?_, hk.once,
        hk.unread, hk.asked⟩
      · exact hk.raisers.trans (congrArg List.length hraised.symm)
      · have haccount := haccount o
        simp only [onScreen, swept, runMain, Window.dismiss, hraised, List.map_append,
          List.map_cons, List.map_nil, List.count_append, MainBlock.order]
          at haccount ⊢
        simp only [inBlocks, inQueue, inReset] at haccount ⊢
        omega
    | liveIds conn =>
      refine ⟨hk.served, hk.window, hk.raisers, fun o => ?_, hk.once, hk.unread, hk.asked⟩
      have haccount := haccount o
      simp only [inReset, runMain, List.map_append, List.map_cons, List.map_nil,
        List.count_append, MainBlock.order] at haccount ⊢
      simp only [inBlocks, inQueue, onScreen, swept] at haccount ⊢
      omega
    | dismissAll conn =>
      have hraised := (hk.window.finishPanels .everything "").1.raised
      refine ⟨hk.served, hk.window.step (L := L) .dismissAll, ?_, fun o => ?_, hk.once,
        hk.unread, hk.asked⟩
      · exact hk.raisers.trans (congrArg List.length hraised.symm)
      · have haccount := haccount o
        simp only [onScreen, swept, runMain, Window.dismissAll, hraised, List.map_append,
          List.map_cons, List.map_nil, List.count_append, MainBlock.order]
          at haccount ⊢
        simp only [inBlocks, inQueue, inReset] at haccount ⊢
        omega

theorem resetGoesOn {conn : ConnId} (hk : Kept L s) (h : s.resetGoesOn conn = some s') :
    Kept L s' := by
  rw [System.resetGoesOn] at h
  split at h
  swap
  · cases h
  rename_i hlisted
  obtain rfl := Option.some.inj h
  refine ⟨hk.served, hk.window, hk.raisers, fun o => ?_, hk.once, hk.unread, hk.asked⟩
  have haccount := hk.account o
  have herase := ((List.perm_cons_erase hlisted).map
    fun conn => Order.dismissal conn .reset).count_eq o
  simp only [List.map_cons, List.count_cons] at herase
  simp only [inQueue, inReset, List.map_append, List.map_cons, List.map_nil, List.count_append,
    List.count_singleton, MainBlock.order] at haccount ⊢
  simp only [inBlocks, onScreen, swept] at haccount ⊢
  omega

theorem user {i : WindowInput} (hk : Kept L s) (hi : i.fromUser = true) :
    Kept L { s with window := s.window.step L i } := by
  have hraised := (hk.window.step_user (L := L) hi).1
  refine ⟨hk.served, hk.window.step i, hk.raisers.trans (congrArg List.length hraised.symm),
    fun o => ?_, hk.once, hk.unread, hk.asked⟩
  simp only [onScreen, hraised]
  exact hk.account o

/-- **The step lemma.** -/
theorem step {i : SystemInput} (hk : Kept L s) (h : s.step L i = some s') : Kept L s' := by
  cases i with
  | serial i => exact hk.serial h
  | runBlock i => exact hk.runBlock h
  | providerReturns i result => exact hk.providerReturns h
  | mainTurn => exact hk.mainTurn h
  | resetGoesOn conn => exact hk.resetGoesOn h
  | user i =>
    rw [System.step] at h
    split at h
    · rename_i hi
      obtain rfl := Option.some.inj h
      exact hk.user hi
    · cases h

/-! ## Where an order is -/

/-- A request is waiting, or its panel has been raised. -/
theorem request_mem (hk : Kept L s) {p : String} (h : .request c p ∈ s.orders) :
    .request c p ∈ s.inBlocks L ++ s.inQueue ∨
      ∃ n : ℕ, s.raisers[n]? = some c ∧ s.window.raised[n]? = some p := by
  have haccount := hk.account (.request c p)
  have hreset : s.inReset.count (.request c p) = 0 := by
    simp [inReset, List.count_eq_zero]
  have hswept : s.swept.count (.request c p) = 0 := by
    simp [swept, List.count_eq_zero]
  by_cases hscreen : .request c p ∈ s.onScreen
  · right
    obtain ⟨n, hn⟩ := List.mem_iff_getElem?.1 hscreen
    rw [onScreen, List.getElem?_zipWith_eq_some] at hn
    obtain ⟨conn, key, hconn, hkey, heq⟩ := hn
    cases heq
    exact ⟨n, hconn, hkey⟩
  · left
    have hpos := List.count_pos_iff.2 h
    have hnone := List.count_eq_zero.2 hscreen
    refine List.count_pos_iff.1 ?_
    rw [List.count_append]
    omega

/-- What has been swept for was ordered. -/
theorem swept_mem (hk : Kept L s) (h : o ∈ s.swept) : o ∈ s.orders := by
  have hpos := List.count_pos_iff.2 h
  have haccount := hk.account o
  exact List.count_pos_iff.1 (by omega)

/-- A panel that was raised was asked for. -/
theorem screen_count_le (hk : Kept L s) (o : Order) : s.onScreen.count o ≤ s.orders.count o := by
  have haccount := hk.account o
  omega

/-- A connection raises one panel. -/
theorem raisers_nodup (hk : Kept L s) : s.raisers.Nodup := by
  have hle : (s.onScreen : Multiset Order) ≤ s.orders :=
    Multiset.le_iff_count.2 fun o => by simpa using hk.screen_count_le o
  have hconns : s.onScreen.map Order.conn = s.raisers := by
    refine List.ext_getElem ?_ fun n _ _ => ?_
    · simp [onScreen, hk.raisers]
    · simp [onScreen, Order.conn]
  have hnodup := Multiset.nodup_of_le (Multiset.map_le_map (f := Order.conn) hle)
    (by simpa using hk.once)
  rw [Multiset.map_coe, hconns] at hnodup
  exact hnodup

end Kept

/-! ## What a sweep settles -/

/-- **No sweep overtakes a request.** A sweep that runs now finds no
request waiting that it is for and that was processed before it. -/
def Clear (L : AgentLibrary) (s : System) : SystemInput → Prop
  | .mainTurn => ∀ block ∈ s.mainQueue.head?, block.Sweeps →
      ∀ o ∈ s.inBlocks L ++ s.inQueue, block.order.Dismisses o → ¬[o, block.order].Sublist s.orders
  | _ => True

instance (s : System) (i : SystemInput) : Decidable (s.Clear L i) := by
  unfold Clear
  split <;> infer_instance

/-- A connection's panel is answered Cancelled, or was answered before
there were `t` answers. -/
def Settled (s : System) (c : ConnId) (t : ℕ) : Prop :=
  ∃ (n : PanelId) (k : ℕ) (a : PanelAnswer), s.raisers[n]? = some c ∧
    s.window.answers[k]? = some (n, a) ∧ (a.status = .cancelled ∨ k < t)

/-- **Every sweep has settled what was before it.** -/
def Settles (s : System) : Prop :=
  ∀ e ∈ s.sweeps, ∀ o, (Order.dismissal e.1 e.2.1).Dismisses o →
    [o, .dismissal e.1 e.2.1].Sublist s.orders → s.Settled o.conn e.2.2

theorem getElem?_of_prefix {α : Type} {l l' : List α} {a : α} {i : ℕ} (h : l <+: l')
    (hi : l[i]? = some a) : l'[i]? = some a := by
  obtain ⟨hlt, rfl⟩ := List.getElem?_eq_some_iff.1 hi
  exact List.prefix_iff_getElem?.1 h i hlt

theorem Settled.mono {t : ℕ} (h : s.Settled c t) (hraisers : s.raisers <+: s'.raisers)
    (hanswers : s.window.answers <+: s'.window.answers) : s'.Settled c t := by
  obtain ⟨n, k, a, hn, hk, ha⟩ := h
  exact ⟨n, k, a, getElem?_of_prefix hraisers hn, getElem?_of_prefix hanswers hk, ha⟩

/-- A pair of orders, the later of which is an old one, is old. -/
theorem pair_sublist_append {l new : List Order} {o o' : Order}
    (h : [o, o'].Sublist (l ++ new)) (hnew : o' ∉ new) : [o, o'].Sublist l := by
  obtain ⟨l₁, l₂, heq, h₁, h₂⟩ := List.sublist_append_iff.1 h
  rcases List.eq_nil_or_concat l₂ with rfl | ⟨l₃, o'', rfl⟩
  · rw [heq, List.append_nil]
    exact h₁
  · have hlast : o' = o'' := by
      have := congrArg List.getLast? heq
      simpa using this
    exact absurd (h₂.subset (by simp [hlast])) hnew

/-- A step that sweeps nothing. -/
theorem Settles.mono {new : List Order} (h : s.Settles) (hk : Kept L s)
    (hraisers : s.raisers <+: s'.raisers) (hanswers : s.window.answers <+: s'.window.answers)
    (hsweeps : s'.sweeps = s.sweeps) (horders : s'.orders = s.orders ++ new)
    (hnew : ∀ o ∈ new, o ∉ s.orders) : s'.Settles := by
  intro e he o hdismisses hsub
  rw [hsweeps] at he
  rw [horders] at hsub
  have hold : Order.dismissal e.1 e.2.1 ∈ s.orders :=
    hk.swept_mem (List.mem_map.2 ⟨e, he, rfl⟩)
  exact (h e he o hdismisses (pair_sublist_append hsub fun hmem => hnew _ hmem hold)).mono
    hraisers hanswers

theorem Settles.serial {i : ServerInput} (h : s.Settles) (hk : Kept L s)
    (hstep : s.serial L i = some s') : s'.Settles := by
  obtain ⟨server, -, ⟨-, rfl⟩ | ⟨c, d, hd, rfl⟩⟩ := serial_cases hstep
  · exact h.mono hk List.prefix_rfl List.prefix_rfl rfl (List.append_nil _).symm (by simp)
  · refine h.mono hk List.prefix_rfl List.prefix_rfl rfl rfl fun o ho hmem => ?_
    have hconn := d.order_conn (Option.mem_toList.1 ho)
    exact (hk.unread o hmem).2 (hconn ▸ hd.read)

end System

/-- A panel that an input covers, if it stands, is answered after it. -/
theorem Window.Kept.settled {w : Window} {i : WindowInput} {n : PanelId} {p : String}
    (hk : w.Kept) (hfills : ¬i.Fills) (hraised : w.raised[n]? = some p)
    (hcovers : w.Covers i (p, n)) :
    ∃ (k : ℕ) (a : PanelAnswer), (w.step L i).answers[k]? = some (n, a) ∧
      (a.status = i.status ∨ k < w.answers.length) := by
  obtain ⟨ids, hanswers, hids⟩ := hk.step_answers (L := L) i hfills
  obtain ⟨new, hnew, hfst, hstatus⟩ := hanswers.answers
  rw [hnew]
  by_cases hanswered : n ∈ w.answered
  · obtain ⟨⟨_, a⟩, he, rfl⟩ := List.mem_map.1 hanswered
    obtain ⟨k, hlt, hget⟩ := List.getElem_of_mem he
    refine ⟨k, a, ?_, .inr hlt⟩
    rw [List.getElem?_append_left hlt, List.getElem?_eq_getElem hlt, hget]
  · have hmem : n ∈ ids := (hids n).2 ⟨p, (hk.entry p n).2 ⟨hraised, hanswered⟩, hcovers⟩
    rw [← hfst] at hmem
    obtain ⟨⟨_, a⟩, he, rfl⟩ := List.mem_map.1 hmem
    obtain ⟨k, hk⟩ := List.mem_iff_getElem?.1 (List.mem_append_right w.answers he)
    exact ⟨k, a, hk, .inl (hstatus _ he)⟩

namespace System

theorem Kept.settled (hk : Kept L s) (block : MainBlock) (i : WindowInput)
    (hsub : [o, block.order].Sublist s.orders) (hdismisses : block.order.Dismisses o)
    (hclear : o ∉ s.inBlocks L ++ s.inQueue) (hfills : ¬i.Fills) (hstatus : i.status = .cancelled)
    (hcovers : ∀ n p, block.order.Dismisses (.request o.conn p) → s.window.Covers i (p, n))
    (hraisers : s'.raisers = s.raisers) (hwindow : s'.window = s.window.step L i) :
    s'.Settled o.conn s.window.answers.length := by
  have hmem : o ∈ s.orders := hsub.subset List.mem_cons_self
  cases o with
  | dismissal conn scope =>
    cases block <;> cases hdismisses
  | request c p =>
    obtain ⟨n, hconn, hkey⟩ := (hk.request_mem hmem).resolve_left hclear
    obtain ⟨k, a, hget, ha⟩ := hk.window.settled (L := L) hfills hkey (hcovers n p hdismisses)
    refine ⟨n, k, a, hraisers ▸ hconn, hwindow ▸ hget, ?_⟩
    exact ha.imp_left fun h => h.trans hstatus

theorem Settles.mainTurn (h : s.Settles) (hk : Kept L s) (hclear : s.Clear L .mainTurn)
    (hstep : s.mainTurn = some s') : s'.Settles := by
  rw [System.mainTurn] at hstep
  cases hqueue : s.mainQueue with
  | nil => simp [hqueue] at hstep
  | cons block queue =>
    simp only [hqueue, Option.some.injEq] at hstep
    subst hstep
    have hclear := hclear block (by simp [hqueue])
    -- a sweep settles what it is for, and the older ones stay settled
    cases block with
    | showPrompt conn req =>
      exact h.mono hk (List.prefix_append _ _) List.prefix_rfl rfl (List.append_nil _).symm (by simp)
    | showChangePrompt conn req =>
      exact h.mono hk (List.prefix_append _ _) List.prefix_rfl rfl (List.append_nil _).symm (by simp)
    | liveIds conn =>
      exact h.mono hk List.prefix_rfl List.prefix_rfl rfl (List.append_nil _).symm (by simp)
    | dismiss conn promptId =>
      obtain ⟨ids, hanswers, -⟩ := hk.window.step_answers (L := L) (.dismiss promptId) id
      obtain ⟨new, hnew, -, -⟩ := hanswers.answers
      intro e he o hdismisses hsub
      rcases List.mem_append.1 he with he | he
      · exact (h e he o hdismisses hsub).mono List.prefix_rfl ⟨new, hnew.symm⟩
      · obtain rfl := List.mem_singleton.1 he
        refine hk.settled (s := s) (.dismiss conn promptId) (.dismiss promptId) hsub hdismisses
          (fun hmem => hclear trivial o hmem hdismisses hsub) id rfl ?_ rfl rfl
        rintro n p ⟨hne, rfl⟩
        rw [Window.Covers, if_neg hne]
        exact .inl rfl
    | dismissAll conn =>
      obtain ⟨ids, hanswers, -⟩ := hk.window.step_answers (L := L) .dismissAll id
      obtain ⟨new, hnew, -, -⟩ := hanswers.answers
      intro e he o hdismisses hsub
      rcases List.mem_append.1 he with he | he
      · exact (h e he o hdismisses hsub).mono List.prefix_rfl ⟨new, hnew.symm⟩
      · obtain rfl := List.mem_singleton.1 he
        exact hk.settled (s := s) (.dismissAll conn) .dismissAll hsub hdismisses
          (fun hmem => hclear trivial o hmem hdismisses hsub) id rfl (fun _ _ _ => trivial) rfl rfl

/-- **The step lemma**, for a step that overtakes nothing. -/
theorem Settles.step {i : SystemInput} (h : s.Settles) (hk : Kept L s) (hclear : s.Clear L i)
    (hstep : s.step L i = some s') : s'.Settles := by
  cases i with
  | serial i => exact h.serial hk hstep
  | runBlock i =>
    obtain ⟨block, server, pre, post, -, -, -, -, -, -, rfl⟩ := runBlock_cases hstep
    exact h.mono hk List.prefix_rfl List.prefix_rfl rfl (List.append_nil _).symm (by simp)
  | providerReturns i result =>
    obtain ⟨block, server, pre, post, -, -, -, -, -, -, rfl⟩ := providerReturns_cases hstep
    exact h.mono hk List.prefix_rfl List.prefix_rfl rfl (List.append_nil _).symm (by simp)
  | mainTurn => exact h.mainTurn hk hclear hstep
  | resetGoesOn conn =>
    rw [System.step, System.resetGoesOn] at hstep
    split at hstep
    · obtain rfl := Option.some.inj hstep
      exact h.mono hk List.prefix_rfl List.prefix_rfl rfl (List.append_nil _).symm (by simp)
    · cases hstep
  | user i =>
    rw [System.step] at hstep
    split at hstep
    · rename_i hi
      obtain rfl := Option.some.inj hstep
      exact h.mono hk List.prefix_rfl (hk.window.step_user hi).2 rfl (List.append_nil _).symm
        (by simp)
    · cases hstep

/-! ## The end of it -/

/-- Every block that was queued has run. -/
def Quiescent (s : System) : Prop :=
  s.mainQueue = [] ∧ s.listed = [] ∧ ∀ b ∈ s.server.blocks, b.called = true

instance (s : System) : Decidable s.Quiescent := by
  unfold Quiescent
  infer_instance

/-- A dismissal is swept for by then. -/
theorem Kept.swept (hk : Kept L s) (hquiescent : s.Quiescent) {d : ConnId} {scope : Scope}
    (h : .dismissal d scope ∈ s.orders) : ∃ t, (d, scope, t) ∈ s.sweeps := by
  obtain ⟨hmain, hlisted, hworkers⟩ := hquiescent
  have haccount := hk.account (.dismissal d scope)
  have hblocks : s.inBlocks L = [] := by
    rw [inBlocks, List.flatMap_eq_nil_iff]
    intro b hb
    rw [Block.orders, if_pos (hworkers b hb)]
  have hqueue : s.inQueue = [] := by rw [inQueue, hmain, List.map_nil]
  have hreset : s.inReset = [] := by rw [inReset, hlisted, List.map_nil]
  have hscreen : s.onScreen.count (.dismissal d scope) = 0 := by
    rw [List.count_eq_zero]
    intro hmem
    obtain ⟨n, hn⟩ := List.mem_iff_getElem?.1 hmem
    rw [onScreen, List.getElem?_zipWith_eq_some] at hn
    obtain ⟨_, _, -, -, heq⟩ := hn
    cases heq
  have hpos := List.count_pos_iff.2 h
  rw [hblocks, hqueue, hreset, hscreen] at haccount
  simp only [List.count_nil, Nat.zero_add] at haccount
  rw [← haccount] at hpos
  obtain ⟨⟨d', scope', t⟩, he, heq⟩ := List.mem_map.1 (List.count_pos_iff.1 hpos)
  cases heq
  exact ⟨t, he⟩

/-- What a panel was answered with reaches the caller that waits for it. -/
theorem Kept.returns (hk : Kept L s) {n : PanelId} {p : String} {a : PanelAnswer} {i : ℕ}
    {block : Block} (horder : .request block.conn p ∈ s.orders)
    (hn : s.raisers[n]? = some block.conn) (ha : (n, a) ∈ s.window.answers)
    (hi : s.server.blocks[i]? = some block) (hcalled : block.called = true) :
    ∃ result, result.status = some a.status ∧ (s.providerReturns L i result).isSome := by
  have hasked := hk.asked block (List.mem_of_getElem? hi) _ horder rfl
  obtain ⟨conn, task, called⟩ := block
  obtain rfl : called = true := hcalled
  cases task with
  | refuse reply => cases hasked
  | call call =>
    cases call with
    | provider r =>
      refine ⟨.secret { status := a.status, secret := a.primary }, rfl, ?_⟩
      have hreturns : s.Returns L conn (.provider r)
          (.secret { status := a.status, secret := a.primary }) := ⟨(n, a), ha, hn, rfl⟩
      rw [System.providerReturns, hi]
      simp only [if_pos hreturns, Option.isSome_map, Server.providerReturns, hi]
      rfl
    | multiProvider r =>
      by_cases hkind : r.kind = L.kKindChangePin
      swap
      · simp [Task.order, Call.order, hkind] at hasked
      refine ⟨.secrets { status := a.status, primary := a.primary, secondary := a.secondary },
        rfl, ?_⟩
      have hreturns : s.Returns L conn (.multiProvider r)
          (.secrets { status := a.status, primary := a.primary, secondary := a.secondary }) := by
        rw [Returns, if_pos hkind]
        exact ⟨(n, a), ha, hn, rfl⟩
      rw [System.providerReturns, hi]
      simp only [if_pos hreturns, Option.isSome_map, Server.providerReturns, hi]
      rfl
    | cancel promptId => cases hasked
    | confirmProvider r => cases hasked
    | reset => cases hasked

/-- **A dismissal has reached a request**: its connection has raised one
panel, that panel is answered Cancelled or was answered before the sweep,
and a caller that still waits can return with that answer. -/
def Reached (L : AgentLibrary) (s : System) (c : ConnId) (p : String) (d : ConnId)
    (scope : Scope) : Prop :=
  ∃ (n : PanelId) (k : ℕ) (a : PanelAnswer) (t : ℕ),
    (∀ m : PanelId, s.raisers[m]? = some c ↔ m = n) ∧ s.window.raised[n]? = some p ∧
      s.window.answers[k]? = some (n, a) ∧ (d, scope, t) ∈ s.sweeps ∧
      (a.status = .cancelled ∨ k < t) ∧
      ∀ i block, s.server.blocks[i]? = some block → block.conn = c →
        ∃ result, result.status = some a.status ∧ (s.providerReturns L i result).isSome

end System

theorem system_kept {is : List SystemInput} (h : (prompter L).RunWhere (System.Clear L) {} is s) :
    s.Kept L ∧ s.Settles :=
  h.invariant (I := fun s => s.Kept L ∧ s.Settles)
    (fun _ _ _ hs hclear hstep => ⟨hs.1.step hstep, hs.2.step hs.1 hclear hstep⟩)
    ⟨.init, by rintro e ⟨⟩⟩

/-- **No dismissal is lost, where none overtakes.** In every run in which
no sweep runs while a request it is for, processed before it, is still
waiting to be raised: once every queued block has run, the dismissal has
reached each such request. -/
theorem dismissals_reach {is : List SystemInput} {p : String} {d : ConnId} {scope : Scope}
    (h : (prompter L).RunWhere (System.Clear L) {} is s)
    (hbefore : [Order.request c p, .dismissal d scope].Sublist s.orders)
    (hcovers : scope.Covers p) (hquiescent : s.Quiescent) : s.Reached L c p d scope := by
  obtain ⟨hk, hsettles⟩ := system_kept h
  have hrequest : .request c p ∈ s.orders := hbefore.subset List.mem_cons_self
  have hdismissal : .dismissal d scope ∈ s.orders := hbefore.subset (by simp)
  obtain ⟨t, hsweep⟩ := hk.swept hquiescent hdismissal
  obtain ⟨n, k, a, hn, hget, ha⟩ := hsettles _ hsweep (.request c p) hcovers hbefore
  obtain ⟨hmain, -, hworkers⟩ := hquiescent
  have hone : ∀ m : PanelId, s.raisers[m]? = some c ↔ m = n := by
    intro m
    constructor
    · intro hm
      exact (List.getElem?_inj (List.getElem?_eq_some_iff.1 hm).1 hk.raisers_nodup).1
        (hm.trans hn.symm)
    · rintro rfl
      exact hn
  have hwaits : .request c p ∉ s.inBlocks L ++ s.inQueue := by
    rw [List.mem_append, not_or]
    constructor
    · intro hmem
      obtain ⟨b, hb, hb'⟩ := List.mem_flatMap.1 hmem
      rw [Block.orders, if_pos (hworkers b hb)] at hb'
      cases hb'
    · simp [System.inQueue, hmain]
  obtain ⟨m, hm, hkey⟩ := (hk.request_mem hrequest).resolve_left hwaits
  obtain rfl := (hone m).1 hm
  refine ⟨m, k, a, t, hone, hkey, hget, hsweep, ha, ?_⟩
  rintro i block hi rfl
  exact hk.returns hrequest hn (List.mem_of_getElem? hget) hi
    (hworkers block (List.mem_of_getElem? hi))

/-! ## Two schedules -/

def askForA : Bytes :=
  plainLibrary.encode (toCbor (PromptRequest.fields plainLibrary { promptId := "a" }))

def cancelA : Bytes := plainLibrary.encode (toCbor (PromptCancel.fields { promptId := "a" }))

/-- The panel is raised, and then dismissed. -/
def inTime : List SystemInput :=
  [.serial (.accept true), .serial (.accept true), .serial (.readReady 1 [askForA] true),
   .runBlock 0, .serial (.readReady 2 [cancelA] true), .mainTurn, .mainTurn]

theorem dismissals_reach_inTime :
    ∃ s, (prompter plainLibrary).run {} inTime = some s ∧
      s.Reached plainLibrary 1 "a" 2 (.cancel "a") := by
  have hrun : (((prompter plainLibrary).guarded (System.Clear plainLibrary)).run {} inTime).any
      (fun s => [Order.request 1 "a", .dismissal 2 (.cancel "a")].Sublist s.orders ∧
        s.Quiescent) = true := by decide +kernel
  obtain ⟨s, hs, hend⟩ := (Option.any_eq_true _ _).1 hrun
  obtain ⟨hbefore, hquiescent⟩ := of_decide_eq_true hend
  have hwhere := Machine.runWhere_of_guarded hs
  exact ⟨s, hwhere.run, dismissals_reach hwhere hbefore ⟨by decide, rfl⟩ hquiescent⟩

/-- The same blocks, with the worker late. -/
def overtaken : List SystemInput :=
  [.serial (.accept true), .serial (.accept true), .serial (.readReady 1 [askForA] true),
   .serial (.readReady 2 [cancelA] true), .mainTurn, .runBlock 0, .mainTurn]

/-- **A dismissal is lost.** Its sweep finds nothing, and the panel it was
for is raised behind it and stands. -/
theorem dismissal_overtaken :
    ∃ s, (prompter plainLibrary).run {} overtaken = some s ∧
      [Order.request 1 "a", .dismissal 2 (.cancel "a")].Sublist s.orders ∧
      (Scope.cancel "a").Covers "a" ∧ s.Quiescent ∧ s.raisers = [1] ∧ s.window.liveIds = ["a"] ∧
      ¬s.Reached plainLibrary 1 "a" 2 (.cancel "a") := by
  have hrun : ((prompter plainLibrary).run {} overtaken).any
      (fun s => [Order.request 1 "a", .dismissal 2 (.cancel "a")].Sublist s.orders ∧
        s.Quiescent ∧ s.raisers = [1] ∧ s.window.liveIds = ["a"] ∧ s.window.answers = [])
      = true := by decide +kernel
  obtain ⟨s, hs, hend⟩ := (Option.any_eq_true _ _).1 hrun
  obtain ⟨hbefore, hquiescent, hraisers, hstands, hnone⟩ := of_decide_eq_true hend
  refine ⟨s, hs, hbefore, ⟨by decide, rfl⟩, hquiescent, hraisers, hstands, ?_⟩
  rintro ⟨n, k, a, t, -, -, hanswer, -⟩
  rw [hnone] at hanswer
  cases hanswer

end Prompter

end LibreDarwin
