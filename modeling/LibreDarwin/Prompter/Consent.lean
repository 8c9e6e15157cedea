import LibreDarwin.Prompter.Model.Consent

/-!
# What a document name can do to the consent

Every listed name is one line of the block, and its part of the line is
bounded and holds nothing the neutraliser looks for (`Inert`), also where
the cut and the ellipsis meet. On valid names the bytes follow the code
points (`neutralizeDisplayName_encode`), and there the list of what is
looked for can be held against the classes it stands for: it misses
U+061C and the C1 controls but one.
-/

namespace LibreDarwin

namespace Prompter

open Wire Utf8

/-- The lines of a block. -/
def lines (block : Bytes) : List Bytes := if block = [] then [] else block.splitOn newline

/-- **A name part that cannot leave its line.** -/
structure Inert (part : Bytes) : Prop where
  length : part.length ≤ 131
  printable : ∀ b ∈ part, 0x20 ≤ b ∧ b ≠ 0x7F
  unbroken : ∀ s ∈ separators, ¬s <:+: part

variable {name part : Bytes} {names : List Bytes}

/-! ## One name -/

theorem separators_nonempty : [] ∉ separators := by decide

theorem blank_not_mem_separators : ∀ s ∈ separators, (0x20 : UInt8) ∉ s := by decide

theorem neutralizeByte_printable (b : UInt8) : 0x20 ≤ neutralizeByte b ∧ neutralizeByte b ≠ 0x7F :=
  byte_all (P := fun b => 0x20 ≤ neutralizeByte b ∧ neutralizeByte b ≠ 0x7F) (by decide +kernel) b

theorem ellipsis_printable : ∀ x ∈ ellipsis, 0x20 ≤ x ∧ x ≠ 0x7F := by decide +kernel

/-- No separator is in the ellipsis, and none goes on with its first byte. -/
theorem separators_ellipsis : ∀ s ∈ separators, ¬s <:+: ellipsis ∧ (0xE2 : UInt8) ∉ s.tail := by
  decide

/-- **The ellipsis completes no separator.** -/
theorem not_infix_append_ellipsis {b : Bytes} (h : ∀ s ∈ separators, ¬s <:+: b) :
    ∀ s ∈ separators, ¬s <:+: b ++ ellipsis := by
  intro s hs hin
  obtain ⟨hellipsis, htail⟩ := separators_ellipsis s hs
  rw [List.infix_append_iff_ne_nil] at hin
  -- in what was there, in the ellipsis, or across the seam
  rcases hin with hin | hin | ⟨t, u, ht, hu, rfl, -, hpre⟩
  · exact h s hs hin
  · exact hellipsis hin
  · cases t with
    | nil => exact ht rfl
    | cons x t =>
      cases u with
      | nil => exact hu rfl
      | cons y u =>
        obtain rfl : y = 0xE2 := (List.cons_prefix_cons.1 hpre).1
        simp at htail

theorem elide_inert {b : Bytes} (hprintable : ∀ x ∈ b, 0x20 ≤ x ∧ x ≠ 0x7F)
    (hunbroken : ∀ s ∈ separators, ¬s <:+: b) : Inert (elide b) := by
  rw [elide]
  split
  · have hcut : (b.take (cutBack b kMaxBytes)).length ≤ 128 :=
      (List.length_take_le _ _).trans cutBack_le
    refine ⟨?_, ?_, not_infix_append_ellipsis fun s hs hin => ?_⟩
    · -- the ellipsis is three bytes
      rw [List.length_append]
      exact Nat.add_le_add_right hcut 3
    · intro x hx
      rcases List.mem_append.1 hx with hx | hx
      · exact hprintable x (List.mem_of_mem_take hx)
      · exact ellipsis_printable x hx
    · exact hunbroken s hs (hin.trans (List.take_prefix _ b).isInfix)
  · rename_i hlen
    exact ⟨(not_lt.1 hlen).trans (by decide), hprintable, hunbroken⟩

/-- **Whatever the name**, its part of the line is inert. -/
theorem neutralizeDisplayName_inert (name : Bytes) : Inert (neutralizeDisplayName name) := by
  refine elide_inert (fun x hx => ?_)
    (not_infix_foldl_replaceAll separators_nonempty blank_not_mem_separators)
  rcases mem_of_mem_foldl_replaceAll separators_nonempty hx with rfl | hx
  · decide
  · obtain ⟨b, -, rfl⟩ := List.mem_map.1 hx
    exact neutralizeByte_printable b

/-! ## The block -/

/-- The line of a name. -/
def line (name : Bytes) : Bytes := bulletPrefix ++ neutralizeDisplayName name

theorem newline_not_mem_line (name : Bytes) : newline ∉ line name := by
  intro h
  rcases List.mem_append.1 h with h | h
  · exact absurd h (by decide)
  · exact absurd ((neutralizeDisplayName_inert name).printable newline h) (by decide)

/-- The block is the lines, a newline between two. -/
theorem foldl_block_eq (block : Bytes) (hblock : block ≠ []) (names : List Bytes) :
    names.foldl (fun block name => (if block.isEmpty then block else block ++ [newline]) ++
      bulletPrefix ++ neutralizeDisplayName name) block =
      [newline].intercalate (block :: names.map line) := by
  induction names generalizing block with
  | nil => simp
  | cons name names ih =>
    have hempty : block.isEmpty = false := by simpa using hblock
    rw [List.foldl_cons, hempty, if_neg Bool.false_ne_true, ih _ (by simp [bulletPrefix])]
    cases names with
    | nil => simp [List.intercalate, line]
    | cons name' names => simp [List.intercalate, line]

theorem block_eq (names : List Bytes) (maxItems : ℕ) :
    (formatUntrustedArtifactList names maxItems).block =
      [newline].intercalate ((names.take (shownCount names maxItems)).map line) := by
  rw [formatUntrustedArtifactList]
  split
  · rename_i h
    rw [List.isEmpty_iff.1 h, List.take_nil]
    rfl
  · dsimp only
    cases names.take (shownCount names maxItems) with
    | nil => rfl
    | cons name names => exact foldl_block_eq _ (by simp [bulletPrefix]) names

theorem lines_block (names : List Bytes) (maxItems : ℕ) :
    lines (formatUntrustedArtifactList names maxItems).block =
      (names.take (shownCount names maxItems)).map line := by
  rw [block_eq, lines]
  cases hshown : names.take (shownCount names maxItems) with
  | nil => rfl
  | cons name rest =>
    rw [if_neg]
    · -- no line has a newline in it, so splitting gives them back
      refine List.splitOn_intercalate newline ?_ (by simp)
      intro l hl
      obtain ⟨n, -, rfl⟩ := List.mem_map.1 hl
      exact newline_not_mem_line n
    · cases rest with
      | nil => simp [line, bulletPrefix]
      | cons name' rest => simp [line, bulletPrefix, List.intercalate]

theorem shownCount_le (names : List Bytes) (maxItems : ℕ) :
    shownCount names maxItems ≤ names.length := by
  rw [shownCount]
  split
  · exact le_rfl
  · exact min_le_left _ _

/-! ## Names that are text -/

/-- The code points the separators encode. -/
def separatorChars : List Char :=
  ['\u2028', '\u2029', '\u0085', '\u200E', '\u200F', '\u202A', '\u202B', '\u202C', '\u202D',
    '\u202E', '\u2066', '\u2067', '\u2068', '\u2069']

theorem separators_eq : separators = separatorChars.map String.utf8EncodeChar := by
  decide +kernel

/-- Whether a code point becomes a blank. -/
def Blanked (c : Char) : Prop := c.toNat < 0x20 ∨ c.toNat = 0x7F ∨ c ∈ separatorChars

instance (c : Char) : Decidable (Blanked c) :=
  inferInstanceAs (Decidable (c.toNat < 0x20 ∨ c.toNat = 0x7F ∨ c ∈ separatorChars))

def blank (c : Char) : Char := if Blanked c then ' ' else c

/-- **What is left of a text.** -/
def neutralizeText (cs : List Char) : List Char :=
  if kMaxBytes < ((cs.map blank).map Char.utf8Size).sum then
    fit Char.utf8Size kMaxBytes (cs.map blank) ++ ['…']
  else cs.map blank

theorem encodeChar_blank : String.utf8EncodeChar ' ' = [0x20] := by decide

theorem map_neutralizeByte (c : Char) :
    (String.utf8EncodeChar c).map neutralizeByte =
      String.utf8EncodeChar (if c.toNat < 0x20 ∨ c.toNat = 0x7F then ' ' else c) := by
  have hhigh : ∀ x : UInt8, ¬x < 0x80 → neutralizeByte x = x := by
    exact byte_all (by decide +kernel)
  have hcont : ∀ x : UInt8, isContinuation x = true → ¬x < 0x80 := by
    exact byte_all (by decide +kernel)
  obtain ⟨x, xs, hx, -, hxs, hlow, hascii⟩ := utf8EncodeChar_shape c
  by_cases h : c.toNat < 0x80
  · -- a byte of its own, with the code point's value
    obtain ⟨hval, rfl⟩ := hascii h
    have hiff : x < 0x20 ∨ x = 0x7f ↔ c.toNat < 0x20 ∨ c.toNat = 0x7F := by
      rw [UInt8.lt_iff_toNat_lt, ← UInt8.toNat_inj, hval]
      rfl
    rw [hx, List.map_cons, List.map_nil, neutralizeByte]
    by_cases hctrl : c.toNat < 0x20 ∨ c.toNat = 0x7F
    · rw [if_pos hctrl, if_pos (hiff.2 hctrl), encodeChar_blank]
    · rw [if_neg hctrl, if_neg (mt hiff.1 hctrl), hx]
  · -- no byte below 0x80, and only those are changed
    have hall : ∀ y ∈ x :: xs, neutralizeByte y = y := by
      intro y hy
      rcases List.mem_cons.1 hy with rfl | hy
      · exact hhigh y (mt hlow.1 h)
      · exact hhigh y (hcont y (hxs y hy))
    rw [if_neg (by omega), hx, List.map_congr_left hall, List.map_id']

theorem foldl_replaceAll_encode (ds : List Char) (cs : List Char) :
    (ds.map String.utf8EncodeChar).foldl (fun name sep => replaceAll sep 0x20 name) (encode cs) =
      encode (cs.map fun c => if c ∈ ds then ' ' else c) := by
  induction ds generalizing cs with
  | nil => simp
  | cons d ds ih =>
    rw [List.map_cons, List.foldl_cons, replaceAll_encode encodeChar_blank, ih, List.map_map]
    congr 1
    refine List.map_congr_left fun c _ => ?_
    by_cases hcd : c = d
    · simp [hcd]
    · simp [hcd]

/-- **On text the bytes follow the code points.** -/
theorem neutralizeDisplayName_encode (cs : List Char) :
    neutralizeDisplayName (encode cs) = encode (neutralizeText cs) := by
  have hmap : separators.foldl (fun name sep => replaceAll sep 0x20 name)
      ((encode cs).map neutralizeByte) = encode (cs.map blank) := by
    rw [map_encode map_neutralizeByte, separators_eq, foldl_replaceAll_encode, List.map_map]
    congr 1
    refine List.map_congr_left fun c _ => ?_
    by_cases hctrl : c.toNat < 0x20 ∨ c.toNat = 0x7F
    · have hblank : Blanked c := hctrl.elim .inl fun h => .inr (.inl h)
      simp [blank, hctrl, hblank]
    · have hiff : Blanked c ↔ c ∈ separatorChars := by
        rw [not_or] at hctrl
        simp [Blanked, hctrl.1, hctrl.2]
      simp [blank, hctrl, hiff]
  rw [neutralizeDisplayName, hmap, elide, length_encode, neutralizeText]
  split
  · rw [take_cutBack_encode, encode_append]
    rfl
  · rfl

theorem valid_neutralizeDisplayName (h : Valid name) : Valid (neutralizeDisplayName name) := by
  obtain ⟨cs, rfl⟩ := valid_iff.1 h
  rw [neutralizeDisplayName_encode]
  exact valid_encode _

theorem valid_bulletPrefix : Valid bulletPrefix :=
  valid_iff.2 ⟨[' ', ' ', '•', ' '], by decide +kernel⟩

theorem valid_block {maxItems : ℕ} (h : ∀ name ∈ names, Valid name) :
    Valid (formatUntrustedArtifactList names maxItems).block := by
  have hlines : ∀ ls : List Bytes, (∀ l ∈ ls, Valid l) → Valid ([newline].intercalate ls) := by
    intro ls hls
    induction ls with
    | nil => exact valid_encode []
    | cons l ls ih =>
      have hl := hls l List.mem_cons_self
      cases ls with
      | nil => simpa using hl
      | cons l' ls =>
        rw [List.intercalate_cons_cons]
        have hrest := ih fun m hm => hls m (List.mem_cons_of_mem _ hm)
        exact (Valid.append hl (valid_encode ['\n'])).append hrest
  rw [block_eq]
  refine hlines _ fun l hl => ?_
  obtain ⟨name, hname, rfl⟩ := List.mem_map.1 hl
  exact valid_bulletPrefix.append (valid_neutralizeDisplayName (h name (List.mem_of_mem_take hname)))

/-- **The layout of the list.** Every name up to the cap is one line, in
order, the bullet and an inert part; the rest are counted; and valid names
give a valid block. -/
theorem consent_layout (names : List Bytes) (maxItems : ℕ) :
    ∃ parts : List Bytes,
      lines (formatUntrustedArtifactList names maxItems).block = parts.map (bulletPrefix ++ ·) ∧
      parts.length = (if maxItems = 0 then names.length else min names.length maxItems) ∧
      parts = (names.take parts.length).map neutralizeDisplayName ∧
      (∀ part ∈ parts, Inert part) ∧
      (formatUntrustedArtifactList names maxItems).omitted = names.length - parts.length ∧
      ((∀ name ∈ names, Valid name) →
        Valid (formatUntrustedArtifactList names maxItems).block) := by
  have hlen : ((names.take (shownCount names maxItems)).map neutralizeDisplayName).length =
      shownCount names maxItems := by
    rw [List.length_map, List.length_take_of_le (shownCount_le names maxItems)]
  refine ⟨(names.take (shownCount names maxItems)).map neutralizeDisplayName, ?_, hlen, ?_, ?_, ?_,
    valid_block⟩
  · rw [lines_block, List.map_map]
    rfl
  · rw [hlen]
  · intro part hpart
    obtain ⟨name, -, rfl⟩ := List.mem_map.1 hpart
    exact neutralizeDisplayName_inert name
  · rw [hlen, formatUntrustedArtifactList]
    split
    · rename_i hempty
      rw [List.isEmpty_iff.1 hempty]
      exact (Nat.zero_sub _).symm
    · rfl

/-! ## What the list of separators misses -/

/-- Control characters, mandatory separators and the `Bidi_Control` code
points. -/
def Disruptive (c : Char) : Prop :=
  c.toNat ≤ 0x1F ∨ (0x7F ≤ c.toNat ∧ c.toNat ≤ 0x9F) ∨ c.toNat = 0x2028 ∨ c.toNat = 0x2029 ∨
    c.toNat = 0x061C ∨ c.toNat = 0x200E ∨ c.toNat = 0x200F ∨
    (0x202A ≤ c.toNat ∧ c.toNat ≤ 0x202E) ∨ (0x2066 ≤ c.toNat ∧ c.toNat ≤ 0x2069)

instance (c : Char) : Decidable (Disruptive c) :=
  inferInstanceAs (Decidable (c.toNat ≤ 0x1F ∨ (0x7F ≤ c.toNat ∧ c.toNat ≤ 0x9F) ∨
    c.toNat = 0x2028 ∨ c.toNat = 0x2029 ∨ c.toNat = 0x061C ∨ c.toNat = 0x200E ∨ c.toNat = 0x200F ∨
    (0x202A ≤ c.toNat ∧ c.toNat ≤ 0x202E) ∨ (0x2066 ≤ c.toNat ∧ c.toNat ≤ 0x2069)))

/-- The Arabic letter mark, and the C1 controls but NEXT LINE. -/
def Missed (c : Char) : Prop :=
  c.toNat = 0x061C ∨ (0x80 ≤ c.toNat ∧ c.toNat ≤ 0x9F ∧ c.toNat ≠ 0x85)

/-- The bytes a code point of a name takes up: a blank takes one. -/
def keptWidth (c : Char) : ℕ := if Blanked c then 1 else c.utf8Size

theorem mem_separatorChars (c : Char) : c ∈ separatorChars ↔
    c.toNat = 0x2028 ∨ c.toNat = 0x2029 ∨ c.toNat = 0x85 ∨ c.toNat = 0x200E ∨ c.toNat = 0x200F ∨
      (0x202A ≤ c.toNat ∧ c.toNat ≤ 0x202E) ∨ (0x2066 ≤ c.toNat ∧ c.toNat ≤ 0x2069) := by
  have hiff : c ∈ separatorChars ↔ c.toNat ∈ separatorChars.map Char.toNat := by
    rw [List.mem_map]
    exact ⟨fun h => ⟨c, h, rfl⟩, fun ⟨d, hd, heq⟩ => Char.toNat_inj.1 heq ▸ hd⟩
  rw [hiff]
  simp only [separatorChars, List.map_cons, List.map_nil, List.mem_cons, List.not_mem_nil, or_false,
    Char.reduceToNat]
  omega

theorem disruptive_blank_iff (c : Char) : Disruptive (blank c) ↔ Missed c := by
  rw [blank]
  by_cases h : Blanked c
  · rw [if_pos h]
    refine iff_of_false (by decide) ?_
    rw [Blanked, mem_separatorChars] at h
    rw [Missed]
    omega
  · rw [if_neg h]
    rw [Blanked, mem_separatorChars] at h
    rw [Disruptive, Missed]
    omega

theorem utf8Size_blank (c : Char) : (blank c).utf8Size = keptWidth c := by
  rw [blank, keptWidth]
  split
  · rfl
  · rfl

/-- **What is shown of a text**, up to the ellipsis. -/
theorem neutralizeText_eq (cs : List Char) : ∃ tail : List Char,
    neutralizeText cs = (fit keptWidth kMaxBytes cs).map blank ++ tail ∧ tail ⊆ ['…'] := by
  have hwidth : (fun c => (blank c).utf8Size) = keptWidth := funext utf8Size_blank
  rw [neutralizeText]
  split
  · exact ⟨['…'], by rw [fit_map, hwidth], List.Subset.refl _⟩
  · rename_i hle
    rw [List.map_map, not_lt] at hle
    have hall : fit (fun c => (blank c).utf8Size) kMaxBytes cs = cs := fit_of_sum_le hle
    exact ⟨[], by rw [← hwidth, hall, List.append_nil], List.nil_subset _⟩

theorem neutralizeText_clean_iff (cs : List Char) :
    (∀ c ∈ neutralizeText cs, ¬Disruptive c) ↔ ∀ c ∈ fit keptWidth kMaxBytes cs, ¬Missed c := by
  obtain ⟨tail, htext, htail⟩ := neutralizeText_eq cs
  have hellipsis : ∀ c ∈ tail, ¬Disruptive c := by
    intro c hc
    rw [List.mem_singleton.1 (htail hc)]
    decide
  rw [htext]
  constructor
  · intro h c hc
    rw [← disruptive_blank_iff]
    exact h (blank c) (List.mem_append_left _ (List.mem_map_of_mem hc))
  · intro h c hc
    rcases List.mem_append.1 hc with hc | hc
    · obtain ⟨d, hd, rfl⟩ := List.mem_map.1 hc
      rw [disruptive_blank_iff]
      exact h d hd
    · exact hellipsis c hc

/-- **What a document name can still carry.** On names that are valid
UTF-8 every name part is the encoding of one text. No code point of these
texts is disruptive exactly when no listed name has one of the missed code
points among those that fit. -/
theorem consent_code_points (texts : List (List Char)) (maxItems : ℕ) :
    ∃! parts : List (List Char),
      lines (formatUntrustedArtifactList (texts.map encode) maxItems).block =
          parts.map (fun part => bulletPrefix ++ encode part) ∧
        ((∀ part ∈ parts, ∀ c ∈ part, ¬Disruptive c) ↔
          ∀ text ∈ texts.take (shownCount (texts.map encode) maxItems),
            ∀ c ∈ fit keptWidth kMaxBytes text, ¬Missed c) := by
  have hlines : lines (formatUntrustedArtifactList (texts.map encode) maxItems).block =
      ((texts.take (shownCount (texts.map encode) maxItems)).map neutralizeText).map
        (fun part => bulletPrefix ++ encode part) := by
    rw [lines_block, ← List.map_take, List.map_map, List.map_map]
    refine List.map_congr_left fun cs _ => ?_
    simp only [Function.comp_apply, line, neutralizeDisplayName_encode]
  refine ⟨_, ⟨hlines, ?_⟩, ?_⟩
  · rw [List.forall_mem_map]
    exact forall₂_congr fun cs _ => neutralizeText_clean_iff cs
  · -- the encodings tell the texts apart
    rintro parts ⟨hparts, -⟩
    rw [hlines] at hparts
    refine (List.map_injective_iff.2 (fun a b hab => ?_) hparts).symm
    exact encode_injective (List.append_cancel_left hab)

/-- The Arabic letter mark and a C1 control in a name, and in the line it
becomes. -/
theorem consent_code_points_mark :
    lines (formatUntrustedArtifactList [encode ['a', '\u061C', '\u0090', 'b']] 8).block =
        [bulletPrefix ++ encode ['a', '\u061C', '\u0090', 'b']] ∧
      Disruptive '\u061C' ∧ Disruptive '\u0090' :=
  ⟨by decide +kernel, by decide, by decide⟩

end Prompter

end LibreDarwin
