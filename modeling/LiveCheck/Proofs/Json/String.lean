import LiveCheck.Json.Reader
import LiveCheck.Json.Writer
import Mathlib.Data.Nat.Basic

/-!
# Strings read back

Four hexadecimal digits are read as the number they were written for (`readHex4_hexadecimal`), so
that the escape of a character by its UTF-16 units, one or two of them, stands for this character
again. With the other escapes, every character of a text is read back (`readString_escapeChar`),
and with it the text between quotes (`readString_text`).
-/

namespace LiveCheck

namespace Text

theorem hexadecimal_one {n : Nat} (h : n < 16) : hexadecimal 1 n = [Nat.digitChar n] := by
  simp [hexadecimal, Nat.toDigits_of_lt_base h]

/-- The last of several hexadecimal digits. -/
theorem hexadecimal_succ {width : Nat} (hwidth : 0 < width) (n : Nat) :
    hexadecimal (width + 1) n = hexadecimal width (n / 16) ++ [Nat.digitChar (n % 16)] := by
  simp only [hexadecimal]
  by_cases h : n < 16
  · obtain ⟨width, rfl⟩ : ∃ k, width = k + 1 := ⟨width - 1, by omega⟩
    rw [Nat.toDigits_of_lt_base h, Nat.div_eq_of_lt h, Nat.mod_eq_of_lt h, Nat.toDigits_zero]
    simp [List.replicate_succ']
  · rw [Nat.toDigits_of_base_le (by decide) (by omega)]
    simp

end Text

namespace Json

/-- A hexadecimal digit has the value that it was written for. -/
theorem hexValue?_digitChar {n : Nat} (h : n < 16) : hexValue? (Nat.digitChar n) = some n := by
  have : ∀ n < 16, hexValue? (Nat.digitChar n) = some n := by decide
  exact this n h

/-- A number of sixteen bits is read back. -/
theorem readHex4_hexadecimal {n : Nat} (h : n < 0x10000) (rest : Text) :
    readHex4 (Text.hexadecimal 4 n ++ rest) = some (n, rest) := by
  rw [Text.hexadecimal_succ (by decide), Text.hexadecimal_succ (by decide),
    Text.hexadecimal_succ (by decide), Text.hexadecimal_one (by omega)]
  simp only [List.cons_append, List.nil_append, readHex4, Option.bind_eq_bind, Option.pure_def,
    hexValue?_digitChar (Nat.mod_lt _ (by decide : 16 > 0)),
    hexValue?_digitChar (by omega : n / 16 / 16 / 16 < 16), Option.bind_some]
  congr 2
  omega

/-! ## Escapes -/

/-- The unit of a character that has one is no half of a surrogate pair. -/
theorem toNat_not_half (c : Char) : c.toNat < 0xD800 ∨ 0xE000 ≤ c.toNat ∧ c.toNat < 0x110000 := by
  rcases c.valid with h | ⟨hmore, hless⟩
  · exact .inl h
  · exact .inr ⟨hmore, hless⟩

/-- A character of one unit is read from its escape. -/
theorem readUnicodeEscape_unit {c : Char} (h : c.toNat < 0x10000) (rest : Text) :
    readUnicodeEscape (Text.hexadecimal 4 c.toNat ++ rest) = some (.char c, rest) := by
  have hhalf := toNat_not_half c
  rw [readUnicodeEscape, readHex4_hexadecimal h]
  simp only [Option.bind_eq_bind, Option.bind_some, Option.pure_def]
  rw [if_neg (by omega), if_neg (by omega), Char.ofNat_toNat]

/-- A character of two units is read from the escapes of both. -/
theorem readUnicodeEscape_pair {high low : Nat} (hhigh : 0xD800 ≤ high ∧ high < 0xDC00)
    (hlow : 0xDC00 ≤ low ∧ low < 0xE000) (rest : Text) :
    readUnicodeEscape (Text.hexadecimal 4 high ++ (unitEscape low ++ rest)) =
      some (.char (Char.ofNat (0x10000 + (high - 0xD800) * 0x400 + (low - 0xDC00))), rest) := by
  rw [readUnicodeEscape, readHex4_hexadecimal (by omega), unitEscape, List.cons_append,
    List.cons_append]
  simp only [Option.bind_eq_bind, Option.bind_some, Option.pure_def]
  rw [if_pos hhigh, readHex4_hexadecimal (by omega)]
  dsimp only
  rw [if_pos hlow]

/-- The two units of a character above the others make it up again. -/
theorem ofNat_pair {c : Char} (h : 0x10000 ≤ c.toNat) {high low : Nat}
    (hhigh : high = 0xD800 + (c.toNat - 0x10000) / 0x400)
    (hlow : low = 0xDC00 + (c.toNat - 0x10000) % 0x400) :
    (0xD800 ≤ high ∧ high < 0xDC00) ∧ (0xDC00 ≤ low ∧ low < 0xE000) ∧
      Char.ofNat (0x10000 + (high - 0xD800) * 0x400 + (low - 0xDC00)) = c := by
  have hhalf := toNat_not_half c
  have hvalue : 0x10000 + (high - 0xD800) * 0x400 + (low - 0xDC00) = c.toNat := by omega
  exact ⟨by omega, by omega, hvalue ▸ Char.ofNat_toNat c⟩

/-! ## Characters -/

variable {fuel : Nat} {s : JsonString} {tail rest : Text}

/-- A string goes on after an escape. -/
theorem readString_escape {e : Char} {more : Text} {letter : Letter}
    (hescape : (if e = 'u' then readUnicodeEscape more
      else (simpleEscape? e).map fun c => (.char c, more)) = some (letter, tail))
    (h : readString fuel tail = .ok (s, rest)) :
    readString (fuel + 1) ('\\' :: e :: more) = .ok (s.cons letter, rest) := by
  rw [readString, if_neg (by decide), if_pos rfl]
  dsimp only
  rw [hescape]
  dsimp only
  rw [h]
  rfl

/-- What is written of a character is read as this character. -/
theorem readString_escapeChar (c : Char) (h : readString fuel tail = .ok (s, rest)) :
    readString (fuel + 1) (escapeChar c ++ tail) = .ok (s.cons (.char c), rest) := by
  rw [escapeChar]
  -- Seven characters have an escape of their own.
  iterate 7
    split
    · subst c
      exact readString_escape rfl h
  split
  · -- The character stands for itself.
    rw [List.singleton_append, readString.eq_def]
    dsimp only
    rw [if_neg ‹_›, if_neg ‹_›, if_neg (by omega), h]
    rfl
  split
  · rename_i hunit
    rw [unitEscape, List.cons_append, List.cons_append]
    exact readString_escape (by rw [if_pos rfl, readUnicodeEscape_unit hunit tail]) h
  · rename_i hpair
    dsimp only
    generalize hhigh : 0xD800 + (c.toNat - 0x10000) / 0x400 = high
    generalize hlow : 0xDC00 + (c.toNat - 0x10000) % 0x400 = low
    obtain ⟨hhighs, hlows, hpair⟩ := ofNat_pair (Nat.le_of_not_lt hpair) hhigh.symm hlow.symm
    have hread := readUnicodeEscape_pair hhighs hlows tail
    rw [hpair] at hread
    rw [List.append_assoc, unitEscape, List.cons_append, List.cons_append]
    exact readString_escape (by rw [if_pos rfl, hread]) h

/-- A text is read back up to its closing quote. -/
theorem readString_text {t : Text} (hfuel : t.length < fuel) (rest : Text) :
    readString fuel (t.flatMap escapeChar ++ '"' :: rest) = .ok (.text t, rest) := by
  induction t generalizing fuel with
  | nil =>
    obtain ⟨fuel, rfl⟩ : ∃ k, fuel = k + 1 := ⟨fuel - 1, by omega⟩
    rfl
  | cons c t ih =>
    obtain ⟨fuel, rfl⟩ : ∃ k, fuel = k + 1 := ⟨fuel - 1, by omega⟩
    rw [List.length_cons] at hfuel
    rw [List.flatMap_cons, List.append_assoc, readString_escapeChar c (ih (by omega))]
    rfl

/-- Something is written of every character, for it is read back. -/
theorem escapeChar_ne_nil (c : Char) : escapeChar c ≠ [] := by
  intro h
  have hread := readString_escapeChar c (rfl : readString 1 ['"'] = .ok (.text [], []))
  rw [h] at hread
  cases hread

theorem length_le_flatMap_escapeChar (t : Text) : t.length ≤ (t.flatMap escapeChar).length := by
  induction t with
  | nil => exact Nat.zero_le _
  | cons c t ih =>
    have := List.length_pos_iff.2 (escapeChar_ne_nil c)
    rw [List.flatMap_cons, List.length_append, List.length_cons]
    omega

end Json

end LiveCheck
