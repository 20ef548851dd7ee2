import LiveCheck.Number.DecimalText
import Mathlib.Data.Nat.Log
import Mathlib.Tactic.Ring

/-!
# The shortest decimal fraction reads back

A magnitude that was rounded has at most 53 significant bits (`Binary64.dvd_roundUnits`), and one
that has is the nearest to itself (`Binary64.roundUnits_eq`).
A decimal fraction stands for the same number however many zeros its digits end in
(`Decimal.normalize_eq`), and so is read as the same binary64 number.

The decimal fraction that a number is written as reads back as it (`Decimal.shortest_toBinary64`):
the candidates were tested for this, and the exact value behind them does so because its magnitude
is moderate and rounding leaves it alone.
-/

namespace LiveCheck

/-- A ratio that is whole is its own nearest whole number. -/
theorem roundQuotient_mul {den : Nat} (h : 0 < den) (n : Nat) :
    roundQuotient (n * den) den = n := by
  rw [roundQuotient, Nat.mul_div_cancel _ h, Nat.mul_mod_left, Nat.mul_zero, if_pos h]

theorem roundQuotient_le (num den : Nat) : roundQuotient num den ≤ num / den + 1 := by
  simp only [roundQuotient]
  split
  · omega
  · split <;> omega

namespace Binary64

/-- The magnitude is one of a finite number: it has at most 53 significant bits. -/
def Representable (units : Nat) : Prop :=
  units < unitsLimit ∧ 2 ^ (Nat.log2 units - 52) ∣ units

/-- What was rounded has at most 53 significant bits. -/
theorem dvd_roundUnits (num den : Nat) :
    2 ^ (Nat.log2 (roundUnits num den) - 52) ∣ roundUnits num den := by
  rw [roundUnits]
  generalize num * unitsPerOne = scaled
  generalize hs : Nat.log2 (scaled / den) - 52 = s
  dsimp only [Nat.pow_eq]
  have hle : roundQuotient scaled (den * 2 ^ s) ≤ 2 ^ 53 := by
    refine (roundQuotient_le _ _).trans (Nat.succ_le_of_lt ?_)
    rw [← Nat.div_div_eq_div_mul]
    refine Nat.div_lt_of_lt_mul ?_
    calc scaled / den < 2 ^ (Nat.log2 (scaled / den) + 1) := Nat.lt_log2_self
      _ ≤ 2 ^ (s + 53) := Nat.pow_le_pow_right (by decide) (by omega)
      _ = 2 ^ s * 2 ^ 53 := pow_add _ _ _
  generalize roundQuotient scaled (den * 2 ^ s) = q at hle
  rcases hle.lt_or_eq with hlt | rfl
  · by_cases hzero : q = 0
    · rw [hzero, Nat.zero_mul]
      exact dvd_zero _
    · have hpos : q * 2 ^ s ≠ 0 := Nat.mul_ne_zero hzero (Nat.pow_pos (by decide)).ne'
      have hlog : Nat.log2 (q * 2 ^ s) < 53 + s := by
        rw [Nat.log2_lt hpos, pow_add]
        exact Nat.mul_lt_mul_of_pos_right hlt (Nat.pow_pos (by decide))
      exact (pow_dvd_pow 2 (by omega)).trans (Nat.dvd_mul_left _ _)
  · -- Rounding up gave one bit more, the last one of which is zero.
    rw [← pow_add, Nat.log2_two_pow]
    exact pow_dvd_pow 2 (by omega)

theorem representable_of_ofRatio {negative sign : Bool} {num den units : Nat}
    (h : ofRatio negative num den = .finite sign units) : Representable units := by
  rw [ofRatio] at h
  split at h
  · obtain ⟨-, rfl⟩ := finite.inj h
    exact ⟨‹_›, dvd_roundUnits num den⟩
  · cases h

/-- Rounding leaves alone what has at most 53 significant bits. -/
theorem roundUnits_eq {num den units : Nat} (h : Representable units) (hden : 0 < den)
    (hunits : num * unitsPerOne = units * den) : roundUnits num den = units := by
  obtain ⟨q, hq⟩ := h.2
  have hstep : 0 < 2 ^ (Nat.log2 units - 52) := Nat.pow_pos (by decide)
  have hmul : units * den = q * (den * 2 ^ (Nat.log2 units - 52)) := by
    conv_lhs => rw [hq]
    ring
  rw [roundUnits]
  simp only [hunits, Nat.mul_div_cancel _ hden, Nat.pow_eq]
  rw [hmul, roundQuotient_mul (Nat.mul_pos hden hstep), Nat.mul_comm]
  exact hq.symm

theorem ofRatio_eq {num den units : Nat} (h : Representable units) (hden : 0 < den)
    (hunits : num * unitsPerOne = units * den) (negative : Bool) :
    ofRatio negative num den = .finite negative units := by
  rw [ofRatio, roundUnits_eq h hden hunits, if_pos h.1]

end Binary64

namespace Decimal

/-! ## Zeros at the end of the digits -/

/-- Zeros move from the digits into the exponent. -/
theorem dropZeros_eq (fuel : Nat) (d : Decimal) : ∃ k : Nat,
    d.digits = (dropZeros fuel d).digits * 10 ^ k ∧
      (dropZeros fuel d).exponent = d.exponent + k := by
  induction fuel generalizing d with
  | zero => exact ⟨0, by simp [dropZeros], by simp [dropZeros]⟩
  | succ fuel ih =>
    rw [dropZeros]
    split
    · rename_i hzero
      obtain ⟨k, hdigits, hexponent⟩ := ih ⟨d.digits / 10, d.exponent + 1⟩
      refine ⟨k + 1, ?_, by rw [hexponent]; push_cast; ring⟩
      rw [pow_succ, ← mul_assoc, ← hdigits]
      simp only
      omega
    · exact ⟨0, by simp, by simp⟩

/-- With enough fuel, no zero is left at the end. -/
theorem dropZeros_mod {fuel : Nat} {d : Decimal} (hpos : d.digits ≠ 0) (h : d.digits < 10 ^ fuel) :
    (dropZeros fuel d).digits % 10 ≠ 0 := by
  induction fuel generalizing d with
  | zero => simp at h; exact absurd h hpos
  | succ fuel ih =>
    rw [dropZeros]
    split
    · rename_i hzero
      rw [pow_succ] at h
      exact ih (by simp only; omega) (by simp only; omega)
    · assumption

/-- The digits without a zero at their end, and how many zeros there were, are determined. -/
theorem eq_of_mul_pow {m n k l : Nat} (hm : m % 10 ≠ 0) (hn : n % 10 ≠ 0)
    (h : m * 10 ^ k = n * 10 ^ l) : m = n ∧ k = l := by
  have hle : ∀ {m n k l : Nat}, n % 10 ≠ 0 → m * 10 ^ k = n * 10 ^ l → k ≤ l := by
    intro m n k l hn h
    by_contra hlt
    obtain ⟨j, rfl⟩ : ∃ j, k = l + 1 + j := ⟨k - (l + 1), by omega⟩
    have hcancel : m * 10 ^ j * 10 = n := by
      refine Nat.eq_of_mul_eq_mul_right (Nat.pow_pos (by decide) : 0 < 10 ^ l) ?_
      rw [← h]
      ring
    omega
  obtain rfl := Nat.le_antisymm (hle hn h) (hle hm h.symm)
  exact ⟨Nat.eq_of_mul_eq_mul_right (Nat.pow_pos (by decide)) h, rfl⟩

theorem normalize_spec {d : Decimal} (h : d.digits ≠ 0) : d.normalize.digits % 10 ≠ 0 ∧
    ∃ k : Nat, d.digits = d.normalize.digits * 10 ^ k ∧ d.normalize.exponent = d.exponent + k := by
  rw [normalize, if_neg h]
  refine ⟨dropZeros_mod h ?_, dropZeros_eq _ d⟩
  calc d.digits < 2 ^ (Nat.log2 d.digits + 1) := Nat.lt_log2_self
    _ ≤ 10 ^ (Nat.log2 d.digits + 1) := Nat.pow_le_pow_left (by decide) _

/-- Zeros at the end of the digits make no difference. -/
theorem normalize_eq {m k : Nat} (hm : m % 10 ≠ 0) (e : Int) :
    normalize ⟨m * 10 ^ k, e⟩ = ⟨m, e + k⟩ := by
  have hpos : m * 10 ^ k ≠ 0 := Nat.mul_ne_zero (by rintro rfl; simp at hm) (by simp)
  obtain ⟨hmod, l, hdigits, hexponent⟩ := normalize_spec (d := ⟨m * 10 ^ k, e⟩) hpos
  obtain ⟨hsame, rfl⟩ := eq_of_mul_pow hm hmod hdigits
  exact Decimal.mk.injEq .. ▸ ⟨hsame.symm, hexponent⟩

theorem normalize_of_mod {d : Decimal} (h : d.digits % 10 ≠ 0) : d.normalize = d := by
  have := normalize_eq (k := 0) h d.exponent
  simpa using this

theorem normalize_normalize (d : Decimal) : d.normalize.normalize = d.normalize := by
  by_cases h : d.digits = 0
  · simp [normalize, h]
  · exact normalize_of_mod (normalize_spec h).1

/-! ## Reading decimal fractions -/

theorem toBinary64_congr {c d : Decimal} (h : c.normalize = d.normalize) (negative : Bool) :
    c.toBinary64 negative = d.toBinary64 negative := by
  rw [toBinary64, toBinary64, h]

/-- The sign of what is read is the given one. -/
theorem toBinary64_of_positive {d : Decimal} {units : Nat}
    (h : d.toBinary64 false = .finite false units) (negative : Bool) :
    d.toBinary64 negative = .finite negative units := by
  have hratio : ∀ {num den : Nat}, Binary64.ofRatio false num den = .finite false units →
      Binary64.ofRatio negative num den = .finite negative units := fun hratio => by
    rw [Binary64.ofRatio] at hratio ⊢
    split at hratio
    · rw [if_pos ‹_›, (Binary64.finite.inj hratio).2]
    · cases hratio
  simp only [toBinary64] at h ⊢
  split at h
  · rw [if_pos ‹_›, (Binary64.finite.inj h).2]
  rw [if_neg ‹_›]
  split at h
  · cases h
  rw [if_neg ‹_›]
  split at h
  · rw [if_pos ‹_›]
    exact hratio h
  · rw [if_neg ‹_›]
    exact hratio h

/-- What reads as a number other than zero has a digit other than zero. -/
theorem digits_ne_zero {d : Decimal} {units : Nat} (hunits : units ≠ 0)
    (h : d.toBinary64 false = .finite false units) : d.digits ≠ 0 := by
  intro hzero
  have hnormal : d.normalize = ⟨0, 0⟩ := by rw [normalize, if_pos hzero]
  rw [toBinary64, hnormal, if_pos (.inl rfl)] at h
  exact hunits (Binary64.finite.inj h).2.symm

/-- A decimal fraction of moderate magnitude that has the value of a number reads as this number. -/
theorem toBinary64_of_value {m units : Nat} {e : Int} (hm : m % 10 ≠ 0)
    (hleast : -400 ≤ digitCount m + e) (hmost : digitCount m + e ≤ 400)
    (hu : Binary64.Representable units)
    (hvalue : m * 10 ^ e.toNat * Binary64.unitsPerOne = units * 10 ^ (-e).toNat)
    (negative : Bool) : toBinary64 negative ⟨m, e⟩ = .finite negative units := by
  have hnormal : normalize ⟨m, e⟩ = ⟨m, e⟩ := normalize_of_mod hm
  have hpos : m ≠ 0 := by rintro rfl; simp at hm
  rw [toBinary64, hnormal]
  dsimp only
  rw [if_neg (by omega), if_neg (by omega)]
  split
  · have hzero : (-e).toNat = 0 := by omega
    rw [hzero] at hvalue
    exact Binary64.ofRatio_eq hu Nat.one_pos (by simpa using hvalue) negative
  · have hzero : e.toNat = 0 := by omega
    rw [hzero, pow_zero, Nat.mul_one] at hvalue
    exact Binary64.ofRatio_eq hu (Nat.pow_pos (by decide)) hvalue negative

/-! ## The exact value -/

theorem digitCount_pos (n : Nat) : 0 < digitCount n := Nat.length_toDigits_pos

theorem lt_pow_digitCount (n : Nat) : n < 10 ^ digitCount n :=
  (Nat.length_toDigits_le_iff (by decide) (digitCount_pos n)).1 Nat.le.refl

theorem digitCount_le {n k : Nat} (hk : 0 < k) (h : n < 10 ^ k) : digitCount n ≤ k :=
  (Nat.length_toDigits_le_iff (by decide) hk).2 h

/-- A bound of a number with zeros at its end bounds its digits. -/
theorem digitCount_bounds {m k low high : Nat} (hleast : 10 ^ low ≤ m * 10 ^ k)
    (hmost : m * 10 ^ k < 10 ^ high) : low < digitCount m + k ∧ digitCount m + k ≤ high := by
  have hten : 0 < 10 ^ k := Nat.pow_pos (by decide)
  have hm : 0 < m := by
    rw [Nat.pos_iff_ne_zero]
    rintro rfl
    rw [Nat.zero_mul] at hleast
    exact absurd hleast (Nat.not_le_of_lt (Nat.pow_pos (by decide)))
  have hk : k < high :=
    (Nat.pow_lt_pow_iff_right (by decide)).1 ((Nat.le_mul_of_pos_left _ hm).trans_lt hmost)
  constructor
  · refine (Nat.pow_lt_pow_iff_right (by decide : 1 < 10)).1 (hleast.trans_lt ?_)
    rw [pow_add]
    exact Nat.mul_lt_mul_of_pos_right (lt_pow_digitCount m) hten
  · have hcount : m < 10 ^ (high - k) := by
      refine Nat.lt_of_mul_lt_mul_right (a := 10 ^ k) ?_
      rwa [← pow_add, Nat.sub_add_cancel hk.le]
    have := digitCount_le (by omega) hcount
    omega

/-- A value that is given with powers of five has the same value in powers of two and ten. -/
theorem mul_pow_eq {m units a b j : Nat} (h : m * 10 ^ (a + j) = units * 5 ^ (b + j)) :
    m * 10 ^ a * 2 ^ (b + j) = units * 10 ^ b := by
  refine Nat.eq_of_mul_eq_mul_right (Nat.pow_pos (by decide) : 0 < 10 ^ j) ?_
  calc m * 10 ^ a * 2 ^ (b + j) * 10 ^ j = m * 10 ^ (a + j) * 2 ^ (b + j) := by ring
    _ = units * (5 ^ (b + j) * 2 ^ (b + j)) := by rw [h, mul_assoc]
    _ = units * 10 ^ b * 10 ^ j := by rw [← mul_pow]; ring

/-- What the exact value is made of. The exponent has a name, for the powers are too large to be
    worked out. -/
theorem exact_eq {n : Nat} (hn : n = 1074) (units : Nat) :
    exact units = ⟨units * 5 ^ n, -n⟩ ∧ Binary64.unitsPerOne = 2 ^ n := by
  have hexponent : (-1074 : Int) = -n := by omega
  unfold exact Binary64.unitsPerOne
  rw [hexponent, ← hn]
  exact ⟨rfl, rfl⟩

/-- An exact value is neither so small nor so large that its magnitude alone decides. -/
theorem exact_magnitude {units n : Nat} (hn : n = 1074) (hpos : units ≠ 0)
    (hlimit : units < Binary64.unitsLimit) :
    10 ^ 674 ≤ units * 5 ^ n ∧ units * 5 ^ n < 10 ^ 1474 := by
  have hleast : 10 ^ 674 ≤ 5 ^ 1074 := by decide +kernel
  have hmost : Binary64.unitsLimit * 5 ^ 1074 ≤ 10 ^ 1474 := by decide +kernel
  rw [← hn] at hleast hmost
  have hfive : 0 < 5 ^ n := Nat.pow_pos (by decide)
  exact ⟨hleast.trans (Nat.le_mul_of_pos_left _ (Nat.pos_of_ne_zero hpos)),
    (Nat.mul_lt_mul_of_pos_right hlimit hfive).trans_le hmost⟩

/-- The exact value of a number reads as this number. -/
theorem exact_toBinary64 {units : Nat} (hpos : units ≠ 0) (hu : Binary64.Representable units)
    (negative : Bool) : (exact units).toBinary64 negative = .finite negative units := by
  obtain ⟨n, hn⟩ : ∃ n, n = 1074 := ⟨_, rfl⟩
  obtain ⟨hexact, hone⟩ := exact_eq hn units
  have hdigits : (exact units).digits ≠ 0 := by
    rw [hexact]
    exact Nat.mul_ne_zero hpos (Nat.pow_pos (by decide)).ne'
  obtain ⟨hmod, k, hsame, hexponent⟩ := normalize_spec hdigits
  rw [← toBinary64_congr (normalize_normalize _)]
  generalize (exact units).normalize = d at hmod hsame hexponent ⊢
  obtain ⟨m, e⟩ := d
  rw [hexact] at hsame hexponent
  obtain rfl : e = -n + k := hexponent
  have hmod : m % 10 ≠ 0 := hmod
  have hvalue : m * 10 ^ k = units * 5 ^ n := hsame.symm
  obtain ⟨hleast, hmost⟩ := exact_magnitude hn hpos hu.1
  rw [← hvalue] at hleast hmost
  obtain ⟨hmore, hless⟩ := digitCount_bounds hleast hmost
  clear hleast hmost
  refine toBinary64_of_value hmod (by omega) (by omega) hu ?_ negative
  -- The powers of ten that stand on both sides are left out.
  obtain ⟨a, ha⟩ : ∃ a, a = (-(n : Int) + k).toNat := ⟨_, rfl⟩
  obtain ⟨b, hb⟩ : ∃ b, b = (-(-(n : Int) + k)).toNat := ⟨_, rfl⟩
  obtain ⟨j, hk, hj⟩ : ∃ j, k = a + j ∧ n = b + j := ⟨min k n, by omega, by omega⟩
  rw [← ha, ← hb, hone, hj]
  rw [hk, hj] at hvalue
  exact mul_pow_eq hvalue

/-! ## The shortest fraction -/

theorem neighbour?_toBinary64 {units : Nat} {e : Int} {d : Decimal}
    (h : neighbour? units e = some d) : d.toBinary64 false = .finite false units := by
  rw [neighbour?] at h
  generalize ite (0 ≤ e) units _ = num at h
  generalize ite (0 ≤ e) _ Binary64.unitsPerOne = den at h
  have hreads : ∀ {c : Decimal}, decide (c.toBinary64 false = .finite false units) = true →
      c.toBinary64 false = .finite false units := of_decide_eq_true
  split at h
  · rename_i hbelow habove
    obtain rfl := Option.some.inj h
    split
    · exact hreads hbelow
    · exact hreads habove
  · obtain rfl := Option.some.inj h
    exact hreads ‹_›
  · obtain rfl := Option.some.inj h
    exact hreads ‹_›
  · cases h

/-- The decimal fraction that a number is written as reads as this number, and its digits end in no
    zero. -/
theorem shortest_toBinary64 {units : Nat} (hpos : units ≠ 0) (hu : Binary64.Representable units)
    (negative : Bool) : (shortest units).toBinary64 negative = .finite negative units ∧
      (shortest units).digits % 10 ≠ 0 := by
  rw [shortest]
  generalize hfound : (List.range 17).findSome? _ = found
  have hreads : (found.getD (exact units)).toBinary64 false = .finite false units := by
    cases found with
    | none => exact exact_toBinary64 hpos hu false
    | some d =>
      obtain ⟨n, -, hn⟩ := List.exists_of_findSome?_eq_some hfound
      exact neighbour?_toBinary64 hn
  refine ⟨?_, (normalize_spec (digits_ne_zero hpos hreads)).1⟩
  rw [toBinary64_congr (normalize_normalize _)]
  exact toBinary64_of_positive hreads negative

end Decimal

end LiveCheck
