import Mathlib

/-!
# Packets over a byte stream

A stream socket keeps no boundaries: what a sender hands over as packets
leaves as a log of pieces, each a run of items with the attachments that
went along. A log **carries** the first `n` items of a packet when its
items are those and the packet's attachments went with the first piece and
with no other. It is a **faithful** carriage of a list of packets when it
falls into runs, each carrying one whole packet in turn, and a last one
that carries a part of the next.

`Sending` is the sender's account within a packet, and `Sending.accept`
and `Sending.finish` the two moves it can make.
-/

namespace LibreDarwin

namespace Carriage

variable {α β : Type*}

/-- A run of items and the attachments that ride at its start. -/
structure Packet (α β : Type*) where
  data : List α
  rides : List β
  deriving DecidableEq, Repr

/-- The items, boundaries forgotten. -/
def content (ps : List (Packet α β)) : List α := ps.flatMap Packet.data

@[simp] theorem content_nil : content ([] : List (Packet α β)) = [] := rfl

@[simp] theorem content_cons (p : Packet α β) (ps : List (Packet α β)) :
    content (p :: ps) = p.data ++ content ps := rfl

@[simp] theorem content_append (ps qs : List (Packet α β)) :
    content (ps ++ qs) = content ps ++ content qs := List.flatMap_append

/-- The attachments of a packet go with the first piece, and with no
other. -/
def RidesFirst (rides : List β) : List (Packet α β) → Prop
  | [] => True
  | q :: log => q.rides = rides ∧ ∀ r ∈ log, r.rides = []

/-- **The pieces of one packet**, up to its item `n`. -/
structure Carries (p : Packet α β) (n : ℕ) (log : List (Packet α β)) : Prop where
  le : n ≤ p.data.length
  content_eq : content log = p.data.take n
  rides : RidesFirst p.rides log

/-- **The pieces of whole packets**, one run of pieces for each. -/
inductive Carried : List (Packet α β) → List (Packet α β) → Prop
  | nil : Carried [] []
  | snoc {done log : List (Packet α β)} {p : Packet α β} {cur : List (Packet α β)} :
      Carried done log → Carries p p.data.length cur → cur ≠ [] →
      Carried (done ++ [p]) (log ++ cur)

/-- **A faithful carriage** of the packets `sent`: pieces of whole packets
in their order, then pieces of the packet that follows. -/
def Faithful (sent log : List (Packet α β)) : Prop :=
  ∃ done more whole cur, sent = done ++ more ∧ log = whole ++ cur ∧ Carried done whole ∧
    (cur = [] ∨ ∃ p rest n, more = p :: rest ∧ Carries p n cur)

/-- Whole packets carry all their items. -/
theorem Carried.content_eq {done log : List (Packet α β)} (h : Carried done log) :
    content log = content done := by
  induction h with
  | nil => rfl
  | snoc _ hp _ ih => rw [content_append, content_append, ih, hp.content_eq, List.take_length]; simp

/-- **The items carried are the first of the items sent.** -/
theorem Faithful.content_prefix {sent log : List (Packet α β)} (h : Faithful sent log) :
    content log <+: content sent := by
  obtain ⟨done, more, whole, cur, rfl, rfl, hwhole, rfl | ⟨p, rest, n, rfl, hcur⟩⟩ := h
  · simp [hwhole.content_eq]
  · rw [content_append, content_append, hwhole.content_eq, content_cons, hcur.content_eq]
    exact (List.prefix_append_right_inj _).2 ((List.take_prefix n p.data).trans (by simp))

/-- Handing over more packets changes nothing about what was carried. -/
theorem Faithful.append {sent log : List (Packet α β)} (h : Faithful sent log)
    (extra : List (Packet α β)) : Faithful (sent ++ extra) log := by
  obtain ⟨done, more, whole, cur, rfl, rfl, hwhole, hcur⟩ := h
  refine ⟨done, more ++ extra, whole, cur, by simp, rfl, hwhole, ?_⟩
  obtain rfl | ⟨p, rest, n, rfl, hcur⟩ := hcur
  · exact .inl rfl
  · exact .inr ⟨p, rest ++ extra, n, rfl, hcur⟩

/-- Whole packets are a faithful carriage of themselves. -/
theorem Carried.faithful {done log : List (Packet α β)} (h : Carried done log) :
    Faithful done log :=
  ⟨done, [], log, [], by simp, by simp, h, .inl rfl⟩

/-- Within a packet: all of `done` is out, then `n` items of `p`, in pieces
if `started`. -/
def Sending (done : List (Packet α β)) (p : Packet α β) (n : ℕ) (started : Bool)
    (log : List (Packet α β)) : Prop :=
  ∃ whole cur, log = whole ++ cur ∧ Carried done whole ∧ Carries p n cur ∧
    (started = true ↔ cur ≠ [])

/-- Taking up the next packet. -/
theorem Carried.start {done log : List (Packet α β)} (h : Carried done log) (p : Packet α β) :
    Sending done p 0 false log :=
  ⟨log, [], by simp, h, ⟨Nat.zero_le _, by simp, trivial⟩, by simp⟩

/-- **A piece is accepted**: the next items of the packet, with its
attachments on the first piece and none on the later ones. -/
theorem Sending.accept {done log : List (Packet α β)} {p : Packet α β} {n : ℕ} {started : Bool}
    (h : Sending done p n started log) {w : ℕ} (hw : w ≤ p.data.length - n) :
    Sending done p (n + w) true
      (log ++ [⟨(p.data.drop n).take w, if started then [] else p.rides⟩]) := by
  obtain ⟨whole, cur, rfl, hwhole, hcur, hstarted⟩ := h
  have hle := hcur.le
  refine ⟨whole, cur ++ [_], by rw [List.append_assoc], hwhole, ⟨by omega, ?_, ?_⟩, by simp⟩
  · rw [content_append, hcur.content_eq, List.take_add]
    simp
  · cases cur with
    | nil =>
      have : started = false := by simpa using hstarted
      simp [RidesFirst, this]
    | cons q cur =>
      have : started = true := by simpa using hstarted
      obtain ⟨hq, hrest⟩ := hcur.rides
      refine ⟨hq, fun r hr => ?_⟩
      obtain hr | hr := List.mem_append.1 hr
      · exact hrest r hr
      · rw [List.mem_singleton.1 hr, this]; rfl

/-- **The last item is out**: the packet joins what is done. A packet
without items would take its attachments with it unsent, so it is asked
to have one. -/
theorem Sending.finish {done log : List (Packet α β)} {p : Packet α β} {n : ℕ} {started : Bool}
    (h : Sending done p n started log) (hn : p.data.length ≤ n) (hp : p.data ≠ []) :
    Carried (done ++ [p]) log := by
  obtain ⟨whole, cur, rfl, hwhole, hcur, -⟩ := h
  have hn : n = p.data.length := Nat.le_antisymm hcur.le hn
  refine .snoc hwhole (hn ▸ hcur) ?_
  rintro rfl
  have := hcur.content_eq
  rw [hn, List.take_length] at this
  exact hp this.symm

theorem Sending.faithful {done log : List (Packet α β)} {p : Packet α β} {n : ℕ} {started : Bool}
    (h : Sending done p n started log) : Faithful (done ++ [p]) log := by
  obtain ⟨whole, cur, rfl, hwhole, hcur, -⟩ := h
  exact ⟨done, [p], whole, cur, rfl, rfl, hwhole, .inr ⟨p, [], n, rfl, hcur⟩⟩

end Carriage

end LibreDarwin
