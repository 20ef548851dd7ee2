import LiveCheck.Json.Reader
import LiveCheck.Json.Writer
import LiveCheck.Proofs.Number.Shortest
import LiveCheck.Proofs.Text.Character

/-!
# Numbers read back

A number is read up to the first character that belongs to no number (`Stops`). A run of digits
with no zero in front is read as a whole number, and with a point or an exponent behind it as the
decimal fraction that is written there. So what is written of a whole number
(`readScalar_decimal`) and of a binary64 number (`readScalar_floatText`) is read as this number.
-/

namespace LiveCheck

/-! ## Digits -/

/-- Zeros in front do not count. -/
theorem numeralValue_zeros_append (n : Nat) (digits : Text) :
    numeralValue (zeros n ++ digits) = numeralValue digits := by
  induction n with
  | zero => rfl
  | succ n ih => exact ih

/-- Zeros at the end are powers of ten. -/
theorem numeralValue_append_zeros (digits : Text) (n : Nat) :
    numeralValue (digits ++ zeros n) = numeralValue digits * 10 ^ n := by
  induction n with
  | zero => simp [zeros]
  | succ n ih =>
    have hzero : (digitValue? '0').getD 0 = 0 := rfl
    rw [zeros, List.replicate_succ', ← List.append_assoc, numeralValue, List.foldl_append,
      ← numeralValue, ← zeros, ih, List.foldl_cons, List.foldl_nil, hzero]
    ring

/-- No numeral of a number but zero begins with a zero. -/
theorem toDigits_head {n : Nat} (h : n ≠ 0) : (Nat.toDigits 10 n).head? ≠ some '0' := by
  induction n using Nat.strong_induction_on with
  | _ n ih =>
    rw [Nat.toDigits_eq_if (by decide)]
    split
    · rename_i hlt
      have : ∀ k < 10, k ≠ 0 → Nat.digitChar k ≠ '0' := by decide
      simpa using this n hlt h
    · rw [List.head?_append, Option.or_of_isSome (by simp [Nat.toDigits_ne_nil])]
      exact ih (n / 10) (by omega) (by omega)

namespace Json

/-- The text holds digits only. -/
def AllDigits (text : Text) : Prop := ∀ c ∈ text, isAsciiDigit c

theorem allDigits_toDigits (n : Nat) : AllDigits (Nat.toDigits 10 n) := fun c hc => by
  have hrange := Char.isDigit_iff_toNat.1 (Nat.isDigit_of_mem_toDigits (by decide) (by decide) hc)
  simpa [isAsciiDigit, Char.le_def, UInt32.le_iff_toNat_le] using hrange

theorem allDigits_zeros (n : Nat) : AllDigits (zeros n) := fun c hc => by
  rw [List.eq_of_mem_replicate hc]
  decide

theorem AllDigits.append {a b : Text} (ha : AllDigits a) (hb : AllDigits b) : AllDigits (a ++ b) :=
  fun c hc => (List.mem_append.1 hc).elim (ha c) (hb c)

theorem AllDigits.drop {digits : Text} (h : AllDigits digits) (n : Nat) :
    AllDigits (digits.drop n) :=
  fun c hc => h c (List.mem_of_mem_drop hc)

/-- The digits of a whole number: there is one, and no zero stands in front of others. -/
structure Whole (digits : Text) : Prop where
  all : AllDigits digits
  ne_nil : digits ≠ []
  zero : digits.head? = some '0' → digits = ['0']

/-- Digits that begin with no zero are those of a whole number, also with others behind them. -/
theorem whole_append {digits more : Text} (hdigits : AllDigits digits) (hmore : AllDigits more)
    (hne : digits ≠ []) (hhead : digits.head? ≠ some '0') : Whole (digits ++ more) := by
  refine ⟨hdigits.append hmore, List.append_ne_nil_of_left_ne_nil hne _, fun h => ?_⟩
  rw [List.head?_append, Option.or_of_isSome (by simpa using hne)] at h
  exact absurd h hhead

/-- The first digits of a numeral are those of a whole number. -/
theorem whole_take {digits : Text} {n : Nat} (hdigits : AllDigits digits) (hne : digits ≠ [])
    (hhead : digits.head? ≠ some '0') (hn : 0 < n) : Whole (digits.take n) := by
  refine ⟨fun c hc => hdigits c (List.mem_of_mem_take hc), ?_, fun h => ?_⟩
  · rw [Ne, List.take_eq_nil_iff, not_or]
    exact ⟨hn.ne', hne⟩
  · rw [List.head?_take, if_neg hn.ne'] at h
    exact absurd h hhead

/-- Numerals are the digits of whole numbers. -/
theorem whole_toDigits (n : Nat) : Whole (Nat.toDigits 10 n) := by
  refine ⟨allDigits_toDigits n, Nat.toDigits_ne_nil, fun h => ?_⟩
  by_cases hn : n = 0
  · subst hn
    rfl
  · exact absurd h (toDigits_head hn)

/-- The text does not go on with a digit. -/
def NoDigit (rest : Text) : Prop := rest.head?.any isAsciiDigit = false

/-- The text does not go on with what could belong to a number. -/
def Stops (rest : Text) : Prop :=
  NoDigit rest ∧ '.' ∉ rest.head? ∧ 'e' ∉ rest.head? ∧ 'E' ∉ rest.head?

variable {whole fraction power rest : Text}

/-! ## The parts of a number -/

theorem readFraction?_of_head (h : '.' ∉ rest.head?) : readFraction? rest = none := by
  cases rest with
  | nil => rfl
  | cons c rest =>
    rw [readFraction?.eq_def]
    split
    · simp_all
    · rfl

/-- A point and digits are read as a fraction. -/
theorem readFraction?_of_digits (hfraction : AllDigits fraction) (hne : fraction ≠ [])
    (hrest : NoDigit rest) : readFraction? ('.' :: (fraction ++ rest)) = some (fraction, rest) := by
  simp only [readFraction?, Text.takeWhile_append hfraction hrest,
    Text.dropWhile_append hfraction hrest]

theorem readExponent?_of_stops (h : Stops rest) : readExponent? rest = none := by
  cases rest with
  | nil => rfl
  | cons c rest =>
    obtain ⟨-, -, hlower, hupper⟩ := h
    rw [readExponent?.eq_def]
    dsimp only
    rw [if_neg]
    rintro (rfl | rfl)
    · exact hlower rfl
    · exact hupper rfl

/-- A power of ten is read with its sign. -/
theorem readExponent?_of_digits (below : Bool) (hpower : AllDigits power) (hne : power ≠ [])
    (hrest : NoDigit rest) :
    readExponent? ('e' :: (if below then '-' else '+') :: (power ++ rest)) =
      some (if below then -(numeralValue power : Int) else numeralValue power, rest) := by
  cases below <;>
    simp [readExponent?, Text.takeWhile_append hpower hrest, Text.dropWhile_append hpower hrest]

/-- The whole part reaches up to the first character that is no digit. -/
theorem whole_eq (hwhole : Whole whole) (hrest : NoDigit rest) :
    (match whole ++ rest with
      | '0' :: more => (['0'], more)
      | _ => ((whole ++ rest).takeWhile isAsciiDigit, (whole ++ rest).dropWhile isAsciiDigit)) =
        (whole, rest) := by
  split
  · rename_i more htext
    obtain ⟨c, digits, rfl⟩ := List.exists_cons_of_ne_nil hwhole.ne_nil
    rw [List.cons_append] at htext
    obtain ⟨rfl, rfl⟩ := List.cons.inj htext
    rw [hwhole.zero rfl, (List.cons.inj (hwhole.zero rfl)).2, List.nil_append]
  · rw [Text.takeWhile_append hwhole.all hrest, Text.dropWhile_append hwhole.all hrest]

/-- What is behind the whole part decides what the number is. -/
theorem readNumber_eq (negative : Bool) (hwhole : Whole whole) (hrest : NoDigit rest) {after : Text}
    (hfraction : (readFraction? rest).getD ([], rest) = (fraction, after)) :
    readNumber negative (whole ++ rest) =
      match readExponent? after with
      | none =>
        if fraction.isEmpty then
          match readNumeral whole with
          | .ok n => .ok (int (if negative then -n else n), rest)
          | .error e => .error (.overlong e)
        else
          .ok (float (Decimal.toBinary64 negative
            ⟨numeralValue (whole ++ fraction), -fraction.length⟩), after)
      | some (power, rest) =>
        .ok (float (Decimal.toBinary64 negative
          ⟨numeralValue (whole ++ fraction), power - fraction.length⟩), rest) := by
  rw [readNumber.eq_def]
  split
  rename_i digits more hsplit
  obtain ⟨rfl, rfl⟩ := Prod.mk.inj (hsplit.symm.trans (whole_eq hwhole hrest))
  obtain ⟨rfl, rfl⟩ : _ = fraction ∧ _ = after :=
    ⟨congrArg Prod.fst hfraction, congrArg Prod.snd hfraction⟩
  exact if_neg (by simp [hwhole.ne_nil])

/-- A whole number is read as such if its digits are not too many. -/
theorem readNumber_of_whole (negative : Bool) (hwhole : Whole whole) (hrest : Stops rest)
    (hlength : whole.length ≤ digitLimit) : readNumber negative (whole ++ rest) =
      .ok (int (if negative then -(numeralValue whole : Int) else numeralValue whole), rest) := by
  have hfraction : (readFraction? rest).getD ([], rest) = ([], rest) := by
    rw [readFraction?_of_head hrest.2.1, Option.getD_none]
  rw [readNumber_eq negative hwhole hrest.1 hfraction, readExponent?_of_stops hrest, readNumeral,
    if_pos hlength]
  rfl

/-- A number with a fraction is read as the nearest one that is representable. -/
theorem readNumber_of_fraction (negative : Bool) (hwhole : Whole whole)
    (hfraction : AllDigits fraction) (hne : fraction ≠ []) (hrest : Stops rest) :
    readNumber negative (whole ++ '.' :: (fraction ++ rest)) =
      .ok (float (Decimal.toBinary64 negative
        ⟨numeralValue (whole ++ fraction), -fraction.length⟩), rest) := by
  have hpoint : NoDigit ('.' :: (fraction ++ rest)) := rfl
  have hread : (readFraction? ('.' :: (fraction ++ rest))).getD ([], '.' :: (fraction ++ rest)) =
      (fraction, rest) := by
    rw [readFraction?_of_digits hfraction hne hrest.1, Option.getD_some]
  rw [readNumber_eq negative hwhole hpoint hread, readExponent?_of_stops hrest]
  dsimp only
  rw [if_neg (by simpa using hne)]

/-- A number with a power of ten is read as the nearest one that is representable. -/
theorem readNumber_of_power (negative below : Bool) (hwhole : Whole whole)
    (hfraction : AllDigits fraction) (hpower : AllDigits power) (hne : power ≠ [])
    (hrest : NoDigit rest) :
    readNumber negative (whole ++ ((if fraction.isEmpty then [] else '.' :: fraction) ++
        'e' :: (if below then '-' else '+') :: (power ++ rest))) =
      .ok (float (Decimal.toBinary64 negative ⟨numeralValue (whole ++ fraction),
        (if below then -(numeralValue power : Int) else numeralValue power) - fraction.length⟩),
        rest) := by
  generalize hexponent : 'e' :: (if below then '-' else '+') :: (power ++ rest) = exponent
  have hhead : exponent.head? = some 'e' := by rw [← hexponent, List.head?_cons]
  have hstart : NoDigit ((if fraction.isEmpty then [] else '.' :: fraction) ++ exponent) := by
    split
    · rw [List.nil_append, NoDigit, hhead]
      rfl
    · rfl
  -- The fraction is left out if it has no digits; the power then follows at once.
  have hread : (readFraction? ((if fraction.isEmpty then [] else '.' :: fraction) ++ exponent)).getD
      ([], (if fraction.isEmpty then [] else '.' :: fraction) ++ exponent) =
        (fraction, exponent) := by
    split
    · rename_i hempty
      rw [List.nil_append, readFraction?_of_head (by rw [hhead]; decide), Option.getD_none,
        List.isEmpty_iff.1 hempty]
    · rename_i hfull
      rw [List.cons_append, readFraction?_of_digits hfraction (by simpa using hfull)
        (by rw [NoDigit, hhead]; rfl), Option.getD_some]
  rw [readNumber_eq negative hwhole hstart hread, ← hexponent,
    readExponent?_of_digits below hpower hne hrest]

/-! ## Decimal fractions -/

/-- A fraction whose digits are all behind the point, maybe after zeros. -/
theorem readNumber_behindPoint (negative : Bool) (n : Nat) {digits : Text}
    (hall : AllDigits digits) (hne : digits ≠ []) (hrest : Stops rest) :
    readNumber negative ('0' :: '.' :: zeros n ++ digits ++ rest) =
      .ok (float (Decimal.toBinary64 negative
        ⟨numeralValue digits, -((n + digits.length : Nat) : Int)⟩), rest) := by
  have hread := readNumber_of_fraction negative (whole_toDigits 0)
    ((allDigits_zeros n).append hall) (by simp [hne]) hrest
  have hvalue : numeralValue (Nat.toDigits 10 0 ++ (zeros n ++ digits)) = numeralValue digits := by
    rw [← List.append_assoc, ← numeralValue_zeros_append (n + 1) digits]
    rfl
  rw [hvalue, List.length_append, zeros, List.length_replicate] at hread
  exact hread

/-- A fraction whose digits are all in front of the point, and maybe zeros behind them. -/
theorem readNumber_beforePoint (negative : Bool) (k : Nat) {digits : Text}
    (hall : AllDigits digits) (hne : digits ≠ []) (hhead : digits.head? ≠ some '0')
    (hlast : numeralValue digits % 10 ≠ 0) (hrest : Stops rest) :
    readNumber negative (digits ++ zeros k ++ '.' :: (zeros 1 ++ rest)) =
      .ok (float (Decimal.toBinary64 negative ⟨numeralValue digits, k⟩), rest) := by
  have hread := readNumber_of_fraction negative (whole_append hall (allDigits_zeros k) hne hhead)
    (allDigits_zeros 1) (by simp [zeros]) hrest
  have hvalue : numeralValue (digits ++ zeros k ++ zeros 1) =
      numeralValue digits * 10 ^ (k + 1) := by
    rw [numeralValue_append_zeros, numeralValue_append_zeros, mul_assoc, ← pow_add]
  -- The zeros before and behind the point stand for powers of ten.
  have hsame : Decimal.normalize ⟨numeralValue digits * 10 ^ (k + 1), -1⟩ =
      Decimal.normalize ⟨numeralValue digits, k⟩ := by
    rw [Decimal.normalize_eq hlast,
      Decimal.normalize_of_mod (d := ⟨numeralValue digits, k⟩) hlast]
    congr 1
    push_cast
    ring
  rw [hvalue] at hread
  rw [← Decimal.toBinary64_congr hsame]
  exact hread

/-- A number that is written without a power of ten is read with its value. -/
theorem readNumber_positional (negative : Bool) {m : Nat} {e : Int} (hm : m % 10 ≠ 0)
    (hrest : Stops rest) : readNumber negative
        (Decimal.positional (Nat.toDigits 10 m) (Decimal.digitCount m + e - 1) ++ rest) =
      .ok (float (Decimal.toBinary64 negative ⟨m, e⟩), rest) := by
  have hcount : (Nat.toDigits 10 m).length = Decimal.digitCount m := rfl
  have hall := allDigits_toDigits m
  have hvalue := numeralValue_toDigits m
  have hne : Nat.toDigits 10 m ≠ [] := Nat.toDigits_ne_nil
  have hhead := toDigits_head (n := m) (by rintro rfl; simp at hm)
  rw [Decimal.positional]
  generalize Nat.toDigits 10 m = digits at *
  subst hvalue
  split
  · rename_i hplace
    generalize hn : (-(Decimal.digitCount _ + e - 1) - 1).toNat = n
    obtain rfl : e = -((n + digits.length : Nat) : Int) := by omega
    exact readNumber_behindPoint negative n hall hne hrest
  · rename_i hplace
    dsimp only
    generalize hn : (Decimal.digitCount _ + e - 1).toNat + 1 = n
    -- The point is behind all digits, with zeros before it, or it is between them.
    by_cases hlength : digits.length ≤ n
    · obtain ⟨k, rfl⟩ : ∃ k : Nat, e = k := ⟨e.toNat, by omega⟩
      obtain rfl : n = digits.length + k := by omega
      rw [List.drop_eq_nil_of_le hlength, List.take_of_length_le hlength, Nat.add_sub_cancel_left,
        List.append_assoc]
      exact readNumber_beforePoint negative k hall hne hhead hm hrest
    · -- The point is between the digits.
      have hfraction : (digits.drop n).isEmpty = false := by simpa using hlength
      have hread := readNumber_of_fraction negative (whole_take hall hne hhead (by omega : 0 < n))
        (hall.drop n) (by simpa using hlength) hrest
      have hexponent : -((digits.drop n).length : Int) = e := by
        rw [List.length_drop]
        omega
      rw [List.take_append_drop, hexponent] at hread
      rw [hfraction, Nat.sub_eq_zero_of_le (by omega)]
      simpa [zeros] using hread

/-- A number that is written with a power of ten is read with its value. -/
theorem readNumber_scientific (negative : Bool) {m : Nat} {e : Int} (hm : m % 10 ≠ 0)
    (hrest : Stops rest) : readNumber negative
        (Decimal.scientific (Nat.toDigits 10 m) (Decimal.digitCount m + e - 1) ++ rest) =
      .ok (float (Decimal.toBinary64 negative ⟨m, e⟩), rest) := by
  have hcount : (Nat.toDigits 10 m).length = Decimal.digitCount m := rfl
  have hall := allDigits_toDigits m
  have hvalue := numeralValue_toDigits m
  have hne : Nat.toDigits 10 m ≠ [] := Nat.toDigits_ne_nil
  have hhead := toDigits_head (n := m) (by rintro rfl; simp at hm)
  rw [Decimal.scientific]
  generalize Nat.toDigits 10 m = digits at *
  generalize hplace : (Decimal.digitCount m : Int) + e - 1 = place
  have hread := readNumber_of_power negative (decide (place < 0))
    (whole_take hall hne hhead Nat.one_pos) (hall.drop 1)
    ((allDigits_zeros (2 - (Nat.toDigits 10 place.natAbs).length)).append
      (allDigits_toDigits place.natAbs)) (by simp [Nat.toDigits_ne_nil]) hrest.1
  -- One digit is before the point, so the others count as powers of a tenth.
  have hexponent : (if decide (place < 0) then -(place.natAbs : Int) else place.natAbs) -
      (digits.drop 1).length = e := by
    have : 0 < digits.length := List.length_pos_iff.2 hne
    rw [List.length_drop]
    simp only [decide_eq_true_eq]
    omega
  rw [List.take_append_drop, hvalue, numeralValue_zeros_append, numeralValue_toDigits,
    hexponent] at hread
  rw [← hread]
  simp only [decide_eq_true_eq, List.append_assoc, List.cons_append, List.nil_append]

/-- What is written of a decimal fraction is read as the number that it is read as. -/
theorem readNumber_text (negative : Bool) {d : Decimal} (hd : d.digits % 10 ≠ 0)
    (hrest : Stops rest) :
    readNumber negative (d.text ++ rest) = .ok (float (d.toBinary64 negative), rest) := by
  rw [Decimal.text]
  split
  · exact readNumber_positional negative hd hrest
  · exact readNumber_scientific negative hd hrest

/-! ## Words and numbers -/

/-- A number begins with a digit. -/
theorem head_of_readNumber {negative : Bool} {text : Text} {result : Json × Text}
    (h : readNumber negative text = .ok result) : ∃ c more, text = c :: more ∧ isAsciiDigit c := by
  cases text with
  | nil => simp [readNumber] at h
  | cons c more =>
    refine ⟨c, more, rfl, ?_⟩
    by_contra hc
    -- The whole part would be empty.
    rw [readNumber.eq_def] at h
    split at h
    rename_i whole rest hsplit
    split at hsplit
    · rename_i heq
      obtain ⟨rfl, rfl⟩ := List.cons.inj heq
      exact hc rfl
    · rw [List.takeWhile_cons_of_neg hc] at hsplit
      rw [← (Prod.mk.inj hsplit).1] at h
      simp at h

/-- A number with or without a minus sign is no word. -/
theorem readScalar_of_number {negative : Bool} {text : Text} {result : Json × Text}
    (h : readNumber negative text = .ok result) :
    readScalar (if negative then '-' :: text else text) = .ok result := by
  obtain ⟨c, more, rfl, hc⟩ := head_of_readNumber h
  -- No word begins with a digit, so the number is not taken for one.
  have hne : ∀ d, isAsciiDigit d = false → d ≠ c := by
    rintro d hd rfl
    simp [hc] at hd
  have hn := hne 'n' rfl
  have ht := hne 't' rfl
  have hf := hne 'f' rfl
  have hnan := hne 'N' rfl
  have hinfinity := hne 'I' rfl
  have hminus := hne '-' rfl
  cases negative with
  | false =>
    have hword : readWord? (c :: more) = none := by
      simp [readWord?, words, hn, ht, hf, hnan, hinfinity, hminus]
    rw [if_neg Bool.false_ne_true, readScalar.eq_def, hword]
    dsimp only
    split
    · rename_i heq
      exact absurd (List.cons.inj heq).1.symm hminus
    · exact h
  | true =>
    have hword : readWord? ('-' :: c :: more) = none := by simp [readWord?, words, hinfinity]
    rw [if_pos rfl, readScalar.eq_def, hword]
    exact h

/-- A whole number that may be written is read back. -/
theorem readScalar_decimal {n : Int} (hn : (Nat.toDigits 10 n.natAbs).length ≤ digitLimit)
    (hrest : Stops rest) : readScalar (decimal n ++ rest) = .ok (int n, rest) := by
  have hread := readNumber_of_whole (decide (n < 0)) (whole_toDigits n.natAbs) hrest hn
  have hvalue : (if decide (n < 0) then -(n.natAbs : Int) else n.natAbs) = n := by
    simp only [decide_eq_true_eq]
    omega
  rw [numeralValue_toDigits, hvalue] at hread
  rw [← readScalar_of_number hread, decimal]
  simp only [decide_eq_true_eq]
  split <;> rfl

/-- The number is infinite, or a finite one that is representable. -/
def Numerical : Binary64 → Prop
  | .nan => False
  | .infinite _ => True
  | .finite _ units => Binary64.Representable units

/-- Every ratio is rounded to such a number. -/
theorem numerical_of_ofRatio {negative : Bool} {num den : Nat} {x : Binary64}
    (h : Binary64.ofRatio negative num den = x) : Numerical x := by
  cases x with
  | nan =>
    rw [Binary64.ofRatio] at h
    split at h <;> cases h
  | infinite _ => trivial
  | finite _ _ => exact Binary64.representable_of_ofRatio h

/-- A binary64 number that is one is read back. -/
theorem readScalar_floatText {x : Binary64} (hx : Numerical x) (hrest : Stops rest) :
    readScalar (floatText x ++ rest) = .ok (float x, rest) := by
  cases x with
  | nan => exact hx.elim
  | infinite negative => cases negative <;> rfl
  | finite negative units =>
    -- The sign stands in front of the text of the magnitude.
    have hsign : ∀ text,
        readNumber negative (text ++ rest) = .ok (float (.finite negative units), rest) →
          readScalar ((if negative then '-' :: text else text) ++ rest) =
            .ok (float (.finite negative units), rest) := by
      intro text hread
      rw [← readScalar_of_number hread]
      cases negative <;> rfl
    refine hsign _ ?_
    split
    · rename_i hzero
      subst hzero
      exact readNumber_of_fraction negative (whole_toDigits 0) (allDigits_zeros 1) (by simp) hrest
    · rename_i hpos
      obtain ⟨hreads, hdigits⟩ := Decimal.shortest_toBinary64 hpos hx negative
      rw [readNumber_text negative hdigits hrest, hreads]

end Json

end LiveCheck
