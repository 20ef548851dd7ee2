import LiveCheck.Text.Utf8
import Mathlib.Tactic.SplitIfs

/-!
# Bytes and texts

The bytes that are read strictly as a text are those that the text is written in, and no others
(`Utf8.decode_eq_ok_iff`), so that a text has one sequence of bytes. One way goes along the
characters, each of which is read from its own bytes whatever follows them (`pieces_encodeChar`);
the other way goes along the pieces, for a character was read from the bytes that it is written in
(`exists_of_pieces`).
-/

namespace LiveCheck.Utf8

variable {a b c d : UInt8} {x : Char} {n lead value position : Nat} {bytes rest : List UInt8}
  {text : Text}

/-! ## Single bytes -/

theorem toNat_byte (lead value : Nat) (h : lead + value < 0x100) :
    (byte lead value).toNat = lead + value := by
  rw [byte, UInt8.toNat_ofNat']
  exact Nat.mod_eq_of_lt h

theorem byte_eq (h : lead + value = a.toNat) : byte lead value = a := by
  rw [byte, h, UInt8.ofNat_toNat]

theorem tail_eq (b : UInt8) : tail b = b.toNat - 0x80 := rfl

theorem isContinuation_iff : isContinuation b ↔ 0x80 ≤ b.toNat ∧ b.toNat ≤ 0xBF := by
  simp [isContinuation]

theorem isSecond_iff : isSecond a b ↔
    (if a.toNat = 0xE0 then 0xA0 else if a.toNat = 0xF0 then 0x90 else 0x80) ≤ b.toNat ∧
      b.toNat ≤ (if a.toNat = 0xED then 0x9F else if a.toNat = 0xF4 then 0x8F else 0xBF) := by
  have heq (n : UInt8) : a = n ↔ a.toNat = n.toNat := UInt8.toNat_inj.symm
  simp [isSecond, heq]

theorem isContinuation_of_isSecond (h : isSecond a b) : isContinuation b := by
  rw [isSecond_iff] at h
  rw [isContinuation_iff]
  split_ifs at h <;> omega

/-! ## Numbers of characters -/

/-- The number is one of a character: not of half a surrogate pair, and not beyond the last one. -/
abbrev IsCodePoint (n : Nat) : Prop := n < 0xD800 ∨ 0xDFFF < n ∧ n < 0x110000

/-- The number of a character is a code point. -/
theorem isCodePoint_toNat (x : Char) : IsCodePoint x.toNat := x.valid

theorem toNat_ofNat_of_isCodePoint (h : IsCodePoint n) : (Char.ofNat n).toNat = n := by
  rw [Char.ofNat, dif_pos h]
  rfl

/-! ## From a text to its bytes and back -/

/-- A byte below `0x80` is a character. -/
theorem pieces_one (ha : a.toNat < 0x80) (rest : List UInt8) :
    pieces (a :: rest) = .char (Char.ofNat a.toNat) :: pieces rest := by
  rw [pieces.eq_def]
  dsimp only
  rw [if_pos ha]

/-- A lead of two bytes makes a character with its continuation. -/
theorem pieces_two (ha : 0xC2 ≤ a.toNat ∧ a.toNat < 0xE0) (hb : isContinuation b)
    (rest : List UInt8) : pieces (a :: b :: rest) =
      .char (Char.ofNat ((a.toNat - 0xC0) * 0x40 + tail b)) :: pieces rest := by
  rw [pieces.eq_def]
  dsimp only
  rw [if_neg (by omega), if_neg (by omega), if_pos ha.2, if_pos hb]

/-- A lead of three bytes makes a character with its continuations. -/
theorem pieces_three (ha : 0xE0 ≤ a.toNat ∧ a.toNat < 0xF0) (hb : isSecond a b)
    (hc : isContinuation c) (rest : List UInt8) : pieces (a :: b :: c :: rest) =
      .char (Char.ofNat (((a.toNat - 0xE0) * 0x40 + tail b) * 0x40 + tail c)) :: pieces rest := by
  rw [pieces.eq_def]
  dsimp only
  rw [if_neg (by omega), if_neg (by omega), if_neg (by omega), hb, hc, if_neg (by decide),
    if_neg (by decide), if_pos ha.2]

/-- A lead of four bytes makes a character with its continuations. -/
theorem pieces_four (ha : 0xF0 ≤ a.toNat ∧ a.toNat ≤ 0xF4) (hb : isSecond a b)
    (hc : isContinuation c) (hd : isContinuation d) (rest : List UInt8) :
    pieces (a :: b :: c :: d :: rest) =
      .char (Char.ofNat
        ((((a.toNat - 0xF0) * 0x40 + tail b) * 0x40 + tail c) * 0x40 + tail d)) :: pieces rest := by
  rw [pieces.eq_def]
  dsimp only
  rw [if_neg (by omega), if_neg (by omega), if_neg (by omega), hb, hc, hd, if_neg (by decide),
    if_neg (by decide), if_neg (by omega), if_neg (by decide)]

/-- A number below `0x80` is read from one byte. -/
theorem pieces_bytes_one (h : n < 0x80) (rest : List UInt8) :
    pieces ([byte 0 n] ++ rest) = .char (Char.ofNat n) :: pieces rest := by
  have ha := toNat_byte 0 n (by omega)
  generalize byte 0 n = a at *
  have hvalue : a.toNat = n := by omega
  rw [List.singleton_append, pieces_one (by omega), hvalue]

/-- A number from `0x80` on is read from two bytes, if it is below `0x800`. -/
theorem pieces_bytes_two (h : ¬n < 0x80) (h' : n < 0x800) (rest : List UInt8) :
    pieces ([byte 0xC0 (n / 0x40), byte 0x80 (n % 0x40)] ++ rest) =
      .char (Char.ofNat n) :: pieces rest := by
  have ha := toNat_byte 0xC0 (n / 0x40) (by omega)
  have hb := toNat_byte 0x80 (n % 0x40) (by omega)
  generalize byte 0xC0 (n / 0x40) = a at *
  generalize byte 0x80 (n % 0x40) = b at *
  have hvalue : (a.toNat - 0xC0) * 0x40 + tail b = n := by
    rw [tail_eq]
    omega
  rw [List.cons_append, List.singleton_append,
    pieces_two (a := a) (b := b) (by omega) (isContinuation_iff.2 (by omega)), hvalue]

/-- The number of a character is read from three bytes, if it is below `0x10000`. -/
theorem pieces_bytes_three (hpoint : IsCodePoint n) (h : ¬n < 0x800) (h' : n < 0x10000)
    (rest : List UInt8) :
    pieces ([byte 0xE0 (n / 0x1000), byte 0x80 (n / 0x40 % 0x40), byte 0x80 (n % 0x40)] ++ rest) =
      .char (Char.ofNat n) :: pieces rest := by
  have ha := toNat_byte 0xE0 (n / 0x1000) (by omega)
  have hb := toNat_byte 0x80 (n / 0x40 % 0x40) (by omega)
  have hc := toNat_byte 0x80 (n % 0x40) (by omega)
  generalize byte 0xE0 (n / 0x1000) = a at *
  generalize byte 0x80 (n / 0x40 % 0x40) = b at *
  generalize byte 0x80 (n % 0x40) = c at *
  -- The second byte is in its range because the number is that of no half of a pair.
  have hsecond : isSecond a b := isSecond_iff.2 (by split_ifs <;> omega)
  have hvalue : ((a.toNat - 0xE0) * 0x40 + tail b) * 0x40 + tail c = n := by
    rw [tail_eq, tail_eq]
    omega
  rw [List.cons_append, List.cons_append, List.singleton_append,
    pieces_three (a := a) (c := c) (by omega) hsecond (isContinuation_iff.2 (by omega)), hvalue]

/-- Beyond that, the number of a character is read from four bytes. -/
theorem pieces_bytes_four (hpoint : IsCodePoint n) (h : ¬n < 0x10000) (rest : List UInt8) :
    pieces ([byte 0xF0 (n / 0x40000), byte 0x80 (n / 0x1000 % 0x40), byte 0x80 (n / 0x40 % 0x40),
      byte 0x80 (n % 0x40)] ++ rest) = .char (Char.ofNat n) :: pieces rest := by
  have ha := toNat_byte 0xF0 (n / 0x40000) (by omega)
  have hb := toNat_byte 0x80 (n / 0x1000 % 0x40) (by omega)
  have hc := toNat_byte 0x80 (n / 0x40 % 0x40) (by omega)
  have hd := toNat_byte 0x80 (n % 0x40) (by omega)
  generalize byte 0xF0 (n / 0x40000) = a at *
  generalize byte 0x80 (n / 0x1000 % 0x40) = b at *
  generalize byte 0x80 (n / 0x40 % 0x40) = c at *
  generalize byte 0x80 (n % 0x40) = d at *
  have hsecond : isSecond a b := isSecond_iff.2 (by split_ifs <;> omega)
  have hvalue : (((a.toNat - 0xF0) * 0x40 + tail b) * 0x40 + tail c) * 0x40 + tail d = n := by
    rw [tail_eq, tail_eq, tail_eq]
    omega
  rw [List.cons_append, List.cons_append, List.cons_append, List.singleton_append,
    pieces_four (a := a) (c := c) (d := d) (by omega) hsecond (isContinuation_iff.2 (by omega))
      (isContinuation_iff.2 (by omega)), hvalue]

/-- A character is read from the bytes that it is written in, whatever follows them. -/
theorem pieces_encodeChar (x : Char) (rest : List UInt8) :
    pieces (encodeChar x ++ rest) = .char x :: pieces rest := by
  have hpoint := isCodePoint_toNat x
  have hx := Char.ofNat_toNat x
  rw [encodeChar]
  generalize x.toNat = n at *
  subst hx
  split_ifs with hone htwo hthree
  · exact pieces_bytes_one hone rest
  · exact pieces_bytes_two hone htwo rest
  · exact pieces_bytes_three hpoint htwo hthree rest
  · exact pieces_bytes_four hpoint hthree rest

/-- The pieces of an encoded text are its characters. -/
theorem pieces_encode (text : Text) : pieces (encode text) = text.map .char := by
  induction text with
  | nil => rfl
  | cons x rest ih => rw [encode, List.flatMap_cons, pieces_encodeChar, ← encode, ih, List.map_cons]

/-! ## From bytes to their text and back -/

theorem encodeChar_one (ha : a.toNat < 0x80) : encodeChar (Char.ofNat a.toNat) = [a] := by
  rw [encodeChar, toNat_ofNat_of_isCodePoint (n := a.toNat) (by omega), if_pos ha,
    byte_eq (a := a) (by omega)]

theorem encodeChar_two (ha : 0xC2 ≤ a.toNat ∧ a.toNat < 0xE0) (hb : isContinuation b) :
    encodeChar (Char.ofNat ((a.toNat - 0xC0) * 0x40 + tail b)) = [a, b] := by
  rw [isContinuation_iff] at hb
  generalize hn : (a.toNat - 0xC0) * 0x40 + tail b = n
  rw [tail_eq] at hn
  rw [encodeChar, toNat_ofNat_of_isCodePoint (n := n) (by omega), if_neg (by omega),
    if_pos (by omega), byte_eq (a := a) (by omega), byte_eq (a := b) (by omega)]

theorem encodeChar_three (ha : 0xE0 ≤ a.toNat ∧ a.toNat < 0xF0) (hb : isSecond a b)
    (hc : isContinuation c) :
    encodeChar (Char.ofNat (((a.toNat - 0xE0) * 0x40 + tail b) * 0x40 + tail c)) = [a, b, c] := by
  have hbounds := isContinuation_iff.1 (isContinuation_of_isSecond hb)
  rw [isSecond_iff] at hb
  rw [isContinuation_iff] at hc
  generalize hn : ((a.toNat - 0xE0) * 0x40 + tail b) * 0x40 + tail c = n
  rw [tail_eq, tail_eq] at hn
  have hpoint : 0x800 ≤ n ∧ n < 0x10000 ∧ IsCodePoint n := by split_ifs at hb <;> omega
  rw [encodeChar, toNat_ofNat_of_isCodePoint hpoint.2.2, if_neg (by omega), if_neg (by omega),
    if_pos (by omega), byte_eq (a := a) (by omega), byte_eq (a := b) (by omega),
    byte_eq (a := c) (by omega)]

theorem encodeChar_four (ha : 0xF0 ≤ a.toNat ∧ a.toNat ≤ 0xF4) (hb : isSecond a b)
    (hc : isContinuation c) (hd : isContinuation d) :
    encodeChar (Char.ofNat
      ((((a.toNat - 0xF0) * 0x40 + tail b) * 0x40 + tail c) * 0x40 + tail d)) = [a, b, c, d] := by
  have hbounds := isContinuation_iff.1 (isContinuation_of_isSecond hb)
  rw [isSecond_iff] at hb
  rw [isContinuation_iff] at hc hd
  generalize hn : (((a.toNat - 0xF0) * 0x40 + tail b) * 0x40 + tail c) * 0x40 + tail d = n
  rw [tail_eq, tail_eq, tail_eq] at hn
  have hpoint : 0x10000 ≤ n ∧ IsCodePoint n := by split_ifs at hb <;> omega
  rw [encodeChar, toNat_ofNat_of_isCodePoint hpoint.2, if_neg (by omega), if_neg (by omega),
    if_neg (by omega), byte_eq (a := a) (by omega), byte_eq (a := b) (by omega),
    byte_eq (a := c) (by omega), byte_eq (a := d) (by omega)]

theorem eq_nil_of_pieces (h : pieces bytes = []) : bytes = [] := by
  revert h
  fun_cases pieces bytes
  case case1 => exact fun _ => rfl
  all_goals exact nofun

/-- What was read as a character first begins with the bytes of this character. -/
theorem exists_of_pieces {found : List Piece} (h : pieces bytes = .char x :: found) :
    ∃ rest, bytes = encodeChar x ++ rest ∧ pieces rest = found := by
  have hcase {y : Char} {front rest : List UInt8} (hy : encodeChar y = front)
      (h : Piece.char y :: pieces rest = .char x :: found) :
      ∃ rest', front ++ rest = encodeChar x ++ rest' ∧ pieces rest' = found := by
    obtain ⟨hx, hrest⟩ := List.cons.inj h
    exact ⟨rest, by rw [← hy, Piece.char.inj hx], hrest⟩
  revert h
  fun_cases pieces bytes with
  | case2 a rest ha => exact hcase (encodeChar_one ha)
  | case5 a hlow hstart b rest hless hb => exact hcase (encodeChar_two (by omega) hb)
  | case10 a hlow hstart b hmore hb c rest hc hless =>
    exact hcase (encodeChar_three (by omega) (by simpa using hb) (by simpa using hc))
  | case13 a hlow hstart b hmore hb c hc hmost d rest hd =>
    exact hcase
      (encodeChar_four (by omega) (by simpa using hb) (by simpa using hc) (by simpa using hd))
  | _ => exact nofun

/-- Bytes that fall into characters are the encoding of these. -/
theorem eq_encode_of_pieces (h : pieces bytes = text.map .char) : bytes = encode text := by
  induction text generalizing bytes with
  | nil => exact eq_nil_of_pieces h
  | cons x text ih =>
    obtain ⟨rest, rfl, hrest⟩ := exists_of_pieces h
    rw [ih hrest, encode, encode, List.flatMap_cons]

/-! ## The strict reading -/

/-- Pieces make a text if each of them is a character. -/
theorem textOfPieces_eq_ok {found : List Piece} :
    textOfPieces position found = .ok text ↔ found = text.map .char := by
  induction found generalizing position text with
  | nil => cases text <;> simp [textOfPieces]
  | cons piece rest ih =>
    cases piece with
    | fault bytes reason => cases text <;> simp [textOfPieces]
    | char x =>
      cases text with
      | nil => cases hrest : textOfPieces (position + (encodeChar x).length) rest <;>
          simp [textOfPieces, hrest, Except.map]
      | cons y text =>
        rw [List.map_cons, List.cons.injEq, Piece.char.injEq, ← @ih _ text]
        cases hrest : textOfPieces (position + (encodeChar x).length) rest <;>
          simp [textOfPieces, hrest, Except.map]

/-- The bytes that are read as a text are the bytes that the text is written in. -/
theorem decode_eq_ok_iff : decode bytes = .ok text ↔ bytes = encode text := by
  rw [decode, textOfPieces_eq_ok]
  exact ⟨eq_encode_of_pieces, fun h => h ▸ pieces_encode text⟩

/-- A text is decoded from its encoding. -/
theorem decode_encode (text : Text) : decode (encode text) = .ok text := decode_eq_ok_iff.2 rfl

/-- Texts with the same bytes are the same. -/
theorem encode_injective : Function.Injective encode := fun a b h => by
  have hread := decode_encode a
  rw [h, decode_encode] at hread
  exact (Except.ok.inj hread).symm

end LiveCheck.Utf8
