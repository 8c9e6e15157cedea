import LibreDarwin.Common.Replace

/-!
# UTF-8 text as bytes

Bytes that are the encoding of some code points, and what the usual byte
operations do to them. A code point is a lead byte and continuation bytes
(`utf8EncodeChar_shape`), and no encoding is the start of another
(`eq_of_encodeChar_start`), so replacing an encoded code point in the
bytes replaces it in the text (`replaceAll_encode`), and going back from
an index to the next byte that is not a continuation lands between two
code points (`take_cutBack_encode`).
-/

namespace LibreDarwin

namespace Utf8

/-- The bytes of a text. -/
def encode (cs : List Char) : List UInt8 := cs.flatMap String.utf8EncodeChar

/-- **Valid UTF-8.** -/
def Valid (b : List UInt8) : Prop := b.toByteArray.IsValidUTF8

/-- A byte that does not start a code point. -/
def isContinuation (b : UInt8) : Bool := b &&& 0xC0 = 0x80

/-- The last index from `cut` down at which no code point is split. -/
def cutBack (b : List UInt8) : ℕ → ℕ
  | 0 => 0
  | cut + 1 => if isContinuation (b.getD (cut + 1) 0) then cutBack b cut else cut + 1

/-- The most code points that fit in `budget` bytes. -/
def fit (width : Char → ℕ) : ℕ → List Char → List Char
  | _, [] => []
  | budget, c :: cs => if width c ≤ budget then c :: fit width (budget - width c) cs else []

variable {c d : Char} {cs ds : List Char} {b rest : List UInt8} {cut : ℕ}

@[simp] theorem encode_nil : encode [] = [] := rfl

theorem encode_cons : encode (c :: cs) = String.utf8EncodeChar c ++ encode cs := by
  rw [encode, List.flatMap_cons]
  rfl

theorem encode_append : encode (cs ++ ds) = encode cs ++ encode ds := List.flatMap_append

/-- Valid bytes are the encoding of some code points. -/
theorem valid_iff : Valid b ↔ ∃ cs, b = encode cs := by
  constructor
  · rintro ⟨cs, hcs⟩
    exact ⟨cs, List.toByteArray_inj.1 hcs⟩
  · rintro ⟨cs, rfl⟩
    exact ⟨cs, rfl⟩

theorem valid_encode (cs : List Char) : Valid (encode cs) := valid_iff.2 ⟨cs, rfl⟩

theorem Valid.append {b' : List UInt8} (hb : Valid b) (hb' : Valid b') : Valid (b ++ b') := by
  obtain ⟨cs, rfl⟩ := valid_iff.1 hb
  obtain ⟨ds, rfl⟩ := valid_iff.1 hb'
  rw [← encode_append]
  exact valid_encode _

/-! ## Lead bytes and continuation bytes -/

theorem byte_all {P : UInt8 → Prop} (h : ∀ n < 256, P (UInt8.ofNat n)) (x : UInt8) : P x := by
  have hx := h x.toNat x.toNat_lt
  rwa [UInt8.ofNat_toNat] at hx

theorem isContinuation_tail (x : UInt8) : isContinuation (x &&& 0x3f ||| 0x80) = true :=
  byte_all (P := fun x => isContinuation (x &&& 0x3f ||| 0x80) = true) (by decide +kernel) x

theorem utf8Size_eq_one_iff_toNat : c.utf8Size = 1 ↔ c.toNat < 0x80 := by
  rw [Char.utf8Size_eq_one_iff, UInt32.le_iff_toNat_le]
  exact Nat.lt_succ_iff.symm

/-- **A code point is a lead byte and continuation bytes**, and it is a
byte of its own when that byte has its top bit clear. -/
theorem utf8EncodeChar_shape (c : Char) : ∃ x xs, String.utf8EncodeChar c = x :: xs ∧
    isContinuation x = false ∧ (∀ y ∈ xs, isContinuation y = true) ∧
    (x < 0x80 ↔ c.toNat < 0x80) ∧ (c.toNat < 0x80 → x.toNat = c.toNat ∧ xs = []) := by
  have hlead : ∀ x : UInt8,
      (isContinuation (x &&& 0x1f ||| 0xc0) = false ∧ ¬x &&& 0x1f ||| 0xc0 < 0x80) ∧
        (isContinuation (x &&& 0x0f ||| 0xe0) = false ∧ ¬x &&& 0x0f ||| 0xe0 < 0x80) ∧
        isContinuation (x &&& 0x07 ||| 0xf0) = false ∧ ¬x &&& 0x07 ||| 0xf0 < 0x80 := by
    exact byte_all (by decide +kernel)
  have hwide : c.utf8Size ≠ 1 → ¬c.toNat < 0x80 := mt utf8Size_eq_one_iff_toNat.2
  -- one byte, or a lead byte for the size and continuation bytes behind it
  rcases c.utf8Size_eq with h | h | h | h
  · have hlt : c.toNat < 0x80 := utf8Size_eq_one_iff_toNat.1 h
    have hval : c.val.toUInt8.toNat = c.toNat := by
      rw [UInt32.toNat_toUInt8]
      exact Nat.mod_eq_of_lt (lt_trans hlt (by decide))
    have hascii : ∀ x : UInt8, x.toNat < 0x80 → isContinuation x = false ∧ x < 0x80 := by
      exact byte_all (by decide +kernel)
    have hx := hascii c.val.toUInt8 (hval ▸ hlt)
    rw [String.utf8EncodeChar_eq_singleton h]
    exact ⟨_, _, rfl, hx.1, by simp, iff_of_true hx.2 hlt, fun _ => ⟨hval, rfl⟩⟩
  · have hnot := hwide (by omega)
    rw [String.utf8EncodeChar_eq_cons_cons h]
    refine ⟨_, _, rfl, (hlead _).1.1, ?_, iff_of_false (hlead _).1.2 hnot, fun hlt => absurd hlt hnot⟩
    simp [isContinuation_tail]
  · have hnot := hwide (by omega)
    rw [String.utf8EncodeChar_eq_cons_cons_cons h]
    refine ⟨_, _, rfl, (hlead _).2.1.1, ?_, iff_of_false (hlead _).2.1.2 hnot,
      fun hlt => absurd hlt hnot⟩
    simp [isContinuation_tail]
  · have hnot := hwide (by omega)
    rw [String.utf8EncodeChar_eq_cons_cons_cons_cons h]
    refine ⟨_, _, rfl, (hlead _).2.2.1, ?_, iff_of_false (hlead _).2.2.2 hnot,
      fun hlt => absurd hlt hnot⟩
    simp [isContinuation_tail]

/-- **No encoding is the start of another.** -/
theorem eq_of_encodeChar_start
    (h : String.utf8EncodeChar c <+: String.utf8EncodeChar d ++ rest) : c = d := by
  -- the decoder reads the first code point off either end
  obtain ⟨rest', hrest⟩ := h
  have hc := ByteArray.utf8DecodeChar?_utf8EncodeChar_append (b := rest'.toByteArray) (c := c)
  have hd := ByteArray.utf8DecodeChar?_utf8EncodeChar_append (b := rest.toByteArray) (c := d)
  rw [← List.toByteArray_append, hrest, List.toByteArray_append, hd] at hc
  exact (Option.some.inj hc).symm

theorem encode_injective : Function.Injective encode := by
  intro cs
  induction cs with
  | nil =>
    intro ds h
    cases ds with
    | nil => rfl
    | cons d ds =>
      obtain ⟨x, xs, hx, -⟩ := utf8EncodeChar_shape d
      rw [encode_cons, hx] at h
      cases h
  | cons c cs ih =>
    intro ds h
    cases ds with
    | nil =>
      obtain ⟨x, xs, hx, -⟩ := utf8EncodeChar_shape c
      rw [encode_cons, hx] at h
      cases h
    | cons d ds =>
      rw [encode_cons, encode_cons] at h
      obtain rfl : c = d := eq_of_encodeChar_start ⟨encode cs, h⟩
      rw [ih (List.append_cancel_left h)]

theorem length_encode : (encode cs).length = (cs.map Char.utf8Size).sum := by
  induction cs with
  | nil => rfl
  | cons c cs ih => rw [encode_cons, List.length_append, ih]; simp

/-! ## Replacing -/

/-- Changing the bytes of each code point changes the code points. -/
theorem map_encode {f : UInt8 → UInt8} {g : Char → Char}
    (h : ∀ c, (String.utf8EncodeChar c).map f = String.utf8EncodeChar (g c)) (cs : List Char) :
    (encode cs).map f = encode (cs.map g) := by
  induction cs with
  | nil => rfl
  | cons c cs ih => rw [encode_cons, List.map_append, h, ih, List.map_cons, encode_cons]

/-- **Replacing an encoded code point** replaces the code point. -/
theorem replaceAll_encode {e : Char} {r : UInt8} (he : String.utf8EncodeChar e = [r]) :
    replaceAll (String.utf8EncodeChar d) r (encode cs) =
      encode (cs.map fun c => if c = d then e else c) := by
  obtain ⟨y, ys, hd, hy, -⟩ := utf8EncodeChar_shape d
  have hne : String.utf8EncodeChar d ≠ [] := by simp [hd]
  induction cs with
  | nil => rfl
  | cons c cs ih =>
    rw [List.map_cons, encode_cons, encode_cons, ← ih]
    split
    · rename_i heq
      rw [heq, replaceAll_append hne, he]
      rfl
    · rename_i hcd
      have hpre : ¬String.utf8EncodeChar d <+: String.utf8EncodeChar c ++ encode cs :=
        fun h => hcd (eq_of_encodeChar_start h).symm
      obtain ⟨x, xs, hc, -, hxs, -⟩ := utf8EncodeChar_shape c
      rw [hc, List.cons_append] at hpre ⊢
      -- the pattern's lead byte is none of the continuation bytes
      have htail : ∀ z ∈ xs, (String.utf8EncodeChar d).head? ≠ some z := by
        intro z hz heq
        rw [hd, List.head?_cons, Option.some.injEq] at heq
        have hcont := hxs z hz
        rw [← heq, hy] at hcont
        cases hcont
      rw [replaceAll_cons hpre, replaceAll_append_of_ne htail hne]
      rfl

/-! ## Cutting -/

theorem getD_zero_encode : isContinuation ((encode cs).getD 0 0) = false := by
  cases cs with
  | nil => rfl
  | cons c cs =>
    obtain ⟨x, xs, hx, hlead, -⟩ := utf8EncodeChar_shape c
    rw [encode_cons, hx]
    exact hlead

/-- Past a lead byte the search does not go. -/
theorem cutBack_append {l : List UInt8} (hl : l ≠ []) (hb : isContinuation (b.getD 0 0) = false) :
    cutBack (l ++ b) (l.length + cut) = l.length + cutBack b cut := by
  induction cut with
  | zero =>
    obtain ⟨k, hk⟩ := Nat.exists_eq_succ_of_ne_zero (mt List.length_eq_zero_iff.1 hl)
    have hget : (l ++ b).getD (k + 1) 0 = b.getD 0 0 := by
      rw [List.getD_append_right _ _ _ _ (by omega), hk, Nat.sub_self]
    have hzero : cutBack b 0 = 0 := rfl
    rw [hzero, Nat.add_zero, hk, cutBack, hget, hb]
    rfl
  | succ cut ih =>
    have hget : (l ++ b).getD (l.length + cut + 1) 0 = b.getD (cut + 1) 0 := by
      rw [List.getD_append_right _ _ _ _ (by omega)]
      congr 1
      omega
    rw [← Nat.add_assoc, cutBack, hget, cutBack, ih]
    split
    · rfl
    · rfl

/-- Through continuation bytes it goes back to the start. -/
theorem cutBack_eq_zero (h : ∀ i, 1 ≤ i → i ≤ cut → isContinuation (b.getD i 0) = true) :
    cutBack b cut = 0 := by
  induction cut with
  | zero => rfl
  | succ cut ih =>
    rw [cutBack, if_pos (h (cut + 1) (by omega) le_rfl)]
    exact ih fun i h1 h2 => h i h1 (by omega)

theorem cutBack_le : cutBack b cut ≤ cut := by
  induction cut with
  | zero => exact le_rfl
  | succ cut ih =>
    rw [cutBack]
    split
    · omega
    · exact le_rfl

/-- **A cut keeps the code points that fit before it.** -/
theorem take_cutBack_encode :
    (encode cs).take (cutBack (encode cs) cut) = encode (fit Char.utf8Size cut cs) := by
  induction cs generalizing cut with
  | nil => simp [fit]
  | cons c cs ih =>
    obtain ⟨x, xs, hc, -, hxs, -⟩ := utf8EncodeChar_shape c
    have hne : String.utf8EncodeChar c ≠ [] := by simp [hc]
    rw [encode_cons, fit]
    split
    · -- the code point fits, and the search stays behind it
      rename_i hfits
      have hcut : cut = (String.utf8EncodeChar c).length + (cut - c.utf8Size) := by
        rw [String.length_utf8EncodeChar]
        omega
      rw [hcut, cutBack_append hne getD_zero_encode, List.take_length_add_append, ih, ← hcut,
        encode_cons]
    · -- it does not, and the search goes back through its continuation bytes
      rename_i hfits
      rw [← String.length_utf8EncodeChar, hc, List.length_cons] at hfits
      rw [cutBack_eq_zero, List.take_zero, encode_nil]
      intro i h1 h2
      obtain ⟨k, rfl⟩ : ∃ k, i = k + 1 := ⟨i - 1, by omega⟩
      rw [hc, List.cons_append, List.getD_cons_succ, List.getD_append _ _ _ _ (by omega),
        List.getD_eq_getElem _ _ (by omega)]
      exact hxs _ (List.getElem_mem _)

/-! ## What fits -/

theorem fit_of_sum_le {width : Char → ℕ} {budget : ℕ} (h : (cs.map width).sum ≤ budget) :
    fit width budget cs = cs := by
  induction cs generalizing budget with
  | nil => rfl
  | cons c cs ih =>
    rw [List.map_cons, List.sum_cons] at h
    rw [fit, if_pos (by omega), ih (by omega)]

theorem fit_map {width : Char → ℕ} {g : Char → Char} {budget : ℕ} :
    fit width budget (cs.map g) = (fit (fun c => width (g c)) budget cs).map g := by
  induction cs generalizing budget with
  | nil => rfl
  | cons c cs ih =>
    rw [List.map_cons, fit, fit]
    split
    · rw [ih, List.map_cons]
    · rfl

end Utf8

end LibreDarwin
