import LiveCheck.Number.Numeral
import LiveCheck.Text.Blank
import LiveCheck.Text.Line

/-!
# Digits, blanks and line breaks

Digits and blanks are told apart (`isBlank_of_isDecimalDigit`), line breaks are blanks, and a text
that begins with digits or blanks is split where they end. The numeral of a number stands for it
(`numeralValue_toDigits`).
-/

namespace LiveCheck

/-! ## Classes of characters -/

/-- What holds of the ten characters from each zero on holds of every decimal digit. -/
theorem of_isDecimalDigit {P : Char → Prop}
    (h : ∀ z ∈ zeroDigits, ∀ k < 10, P (Char.ofNat (z + k))) {c : Char} (hc : isDecimalDigit c) :
    P c := by
  have hzero : ∃ z ∈ zeroDigits, z ≤ c.toNat ∧ c.toNat < z + 10 := by
    rw [isDecimalDigit, digitValue?] at hc
    split at hc
    · split at hc
      · refine ⟨0x30, List.mem_cons_self, ?_⟩
        have : '0'.toNat = 0x30 ∧ '9'.toNat = 0x39 := by decide
        omega
      · simp at hc
    · rw [Option.isSome_map] at hc
      obtain ⟨z, hz⟩ := Option.isSome_iff_exists.1 hc
      exact ⟨z, List.mem_of_find?_eq_some hz, by simpa using List.find?_some hz⟩
  obtain ⟨z, hz, hle, hlt⟩ := hzero
  have hc := h z hz (c.toNat - z) (by omega)
  rwa [Nat.add_sub_cancel' hle, Char.ofNat_toNat] at hc

theorem isBlank_of_isDecimalDigit {c : Char} (hc : isDecimalDigit c) : isBlank c = false :=
  of_isDecimalDigit (P := fun c => isBlank c = false) (by decide +kernel) hc

theorem isDecimalDigit_of_isBlank {c : Char} (hc : isBlank c) : isDecimalDigit c = false := by
  cases h : isDecimalDigit c with
  | false => rfl
  | true => simp [isBlank_of_isDecimalDigit h] at hc

theorem isBlank_of_isLineBreak {c : Char} (hc : isLineBreak c) : isBlank c := by
  simp only [isLineBreak, isBlank, Bool.or_eq_true, Bool.and_eq_true, decide_eq_true_eq,
    beq_iff_eq] at hc ⊢
  omega

theorem isLineBreak_of_isDecimalDigit {c : Char} (hc : isDecimalDigit c) :
    isLineBreak c = false := by
  cases h : isLineBreak c with
  | false => rfl
  | true =>
    have := isBlank_of_isLineBreak h
    simp [isBlank_of_isDecimalDigit hc] at this

/-- A decimal digit is no character that is not one. -/
theorem ne_of_isDecimalDigit {c d : Char} (hc : isDecimalDigit c) (hd : isDecimalDigit d = false) :
    c ≠ d := by
  rintro rfl
  simp [hc] at hd

theorem digitValue?_of_isDigit {c : Char} (hc : c.isDigit) :
    digitValue? c = some (c.toNat - '0'.toNat) := by
  have hrange := Char.isDigit_iff_toNat.1 hc
  have : '9'.toNat < 0x80 := by decide
  rw [digitValue?, if_pos (by omega), if_pos hrange]

theorem isDecimalDigit_of_isDigit {c : Char} (hc : c.isDigit) : isDecimalDigit c := by
  rw [isDecimalDigit, digitValue?_of_isDigit hc]
  rfl

/-! ## Numerals -/

/-- The numeral of a number stands for it. -/
theorem numeralValue_toDigits (n : Nat) : numeralValue (Nat.toDigits 10 n) = n := by
  have hdigits : ∀ digits : Text, (∀ c ∈ digits, c.isDigit) → ∀ start,
      digits.foldl (fun n c => 10 * n + (digitValue? c).getD 0) start =
        Nat.ofDigitChars 10 digits start := by
    intro digits
    induction digits with
    | nil => exact fun _ _ => rfl
    | cons c rest ih =>
      intro h start
      rw [List.foldl_cons, Nat.ofDigitChars_cons, ih fun d hd => h d (List.mem_cons_of_mem _ hd),
        digitValue?_of_isDigit (h c List.mem_cons_self)]
      rfl
  rw [numeralValue, hdigits _ (fun c hc => Nat.isDigit_of_mem_toDigits (by decide) (by decide) hc),
    Nat.ofDigitChars_ten_toDigits]

/-! ## Where a run of characters ends -/

namespace Text

theorem takeWhile_of_head {p : Char → Bool} {text : Text} (h : text.head?.any p = false) :
    text.takeWhile p = [] := by
  cases text with
  | nil => rfl
  | cons c rest => exact List.takeWhile_cons_of_neg (by simpa using h)

theorem dropWhile_of_head {p : Char → Bool} {text : Text} (h : text.head?.any p = false) :
    text.dropWhile p = text := by
  cases text with
  | nil => rfl
  | cons c rest => exact List.dropWhile_cons_of_neg (by simpa using h)

/-- What is left behind a run does not go on with it. -/
theorem head_dropWhile (p : Char → Bool) (text : Text) :
    (text.dropWhile p).head?.any p = false := by
  have hhead := List.head?_dropWhile_not p text
  cases hnext : (text.dropWhile p).head? with
  | none => rfl
  | some c => simpa [hnext] using hhead

theorem takeWhile_append {p : Char → Bool} {run rest : Text} (hrun : ∀ c ∈ run, p c)
    (hrest : rest.head?.any p = false) : (run ++ rest).takeWhile p = run := by
  rw [List.takeWhile_append_of_pos hrun, takeWhile_of_head hrest, List.append_nil]

theorem dropWhile_append {p : Char → Bool} {run rest : Text} (hrun : ∀ c ∈ run, p c)
    (hrest : rest.head?.any p = false) : (run ++ rest).dropWhile p = rest := by
  rw [List.dropWhile_append_of_pos hrun, dropWhile_of_head hrest]

theorem stripLeft_append {blanks text : Text} (h : ∀ c ∈ blanks, isBlank c) :
    stripLeft (blanks ++ text) = stripLeft text :=
  List.dropWhile_append_of_pos h

theorem strip_append {blanks text : Text} (h : ∀ c ∈ blanks, isBlank c) :
    strip (blanks ++ text) = strip text := by
  rw [strip, stripLeft_append h, strip]

theorem stripLeft_of_head {text : Text} (h : text.head?.any isBlank = false) :
    stripLeft text = text :=
  dropWhile_of_head h

/-- A text that stripping leaves alone does not begin with a blank. -/
theorem head_of_strip {text : Text} (h : text.strip = text) : text.head?.any isBlank = false := by
  cases text with
  | nil => rfl
  | cons c rest =>
    refine Bool.eq_false_iff.2 fun hc => ?_
    -- Stripping would make the text shorter.
    have hstrip : strip (c :: rest) = stripRight (stripLeft rest) := by
      rw [strip, stripLeft, List.dropWhile_cons_of_pos (by simpa using hc), stripLeft]
    have hlength : (stripRight (stripLeft rest)).length ≤ rest.length := by
      rw [stripRight, List.length_reverse]
      calc (List.dropWhile isBlank (stripLeft rest).reverse).length
          ≤ (stripLeft rest).reverse.length := (List.dropWhile_sublist _).length_le
        _ = (stripLeft rest).length := List.length_reverse
        _ ≤ rest.length := (List.dropWhile_sublist _).length_le
    rw [← hstrip, h, List.length_cons] at hlength
    omega

end Text

end LiveCheck
