import LiveCheck.Json.Writer
import LiveCheck.Proofs.Text.Join
import LiveCheck.Text.Line
import Mathlib.Data.List.Basic
import Mathlib.Tactic.SplitIfs

/-!
# Values are written in ASCII

Whatever a value is, what is written of it consists of line feeds and printable ASCII characters
(`plain_indentedAt`): the other characters of its strings are escaped. So there is no carriage
return among them, and the text of a file that holds a value is exactly what was written
(`PlainText.unifyNewlines`).
-/

namespace LiveCheck

/-- A line feed or a printable ASCII character. -/
def isPlain (c : Char) : Bool := c = '\n' || (0x20 ≤ c.toNat && c.toNat < 0x7F)

/-- The text consists of line feeds and printable ASCII characters. -/
def PlainText (text : Text) : Prop := ∀ c ∈ text, isPlain c

instance (text : Text) : Decidable (PlainText text) :=
  decidable_of_iff (text.all isPlain) List.all_eq_true

namespace PlainText

variable {a b : Text}

theorem append (ha : PlainText a) (hb : PlainText b) : PlainText (a ++ b) :=
  fun c hc => (List.mem_append.1 hc).elim (ha c) (hb c)

theorem cons {c : Char} (hc : isPlain c) (h : PlainText a) : PlainText (c :: a) :=
  List.forall_mem_cons.2 ⟨hc, h⟩

theorem replicate {c : Char} (hc : isPlain c) (n : Nat) : PlainText (List.replicate n c) :=
  fun _ h => List.eq_of_mem_replicate h ▸ hc

/-- A text is plain that is made of plain pieces. -/
theorem flatMap {α : Type} {f : α → Text} (h : ∀ x, PlainText (f x)) (l : List α) :
    PlainText (l.flatMap f) := by
  intro c hc
  obtain ⟨x, -, hx⟩ := List.mem_flatMap.1 hc
  exact h x c hx

/-- Plain parts are joined to a plain text by a plain separator. -/
theorem join {separator : Text} {parts : List Text} (hseparator : PlainText separator)
    (h : ∀ part ∈ parts, PlainText part) : PlainText (Text.join separator parts) := by
  intro c hc
  rcases Text.mem_join hc with hc | ⟨part, hpart, hc⟩
  · exact hseparator c hc
  · exact h part hpart c hc

/-- There is no other line end in the text than a line feed. -/
theorem unifyNewlines (h : PlainText a) : Text.unifyNewlines a = a := by
  induction a with
  | nil => rfl
  | cons c rest ih =>
    have hc : c ≠ '\r' := by
      rintro rfl
      exact absurd (h _ List.mem_cons_self) (by decide)
    rw [Text.unifyNewlines, ih fun d hd => h d (List.mem_cons_of_mem _ hd)]
    · rintro rest rfl
      exact absurd rfl hc
    · exact hc

end PlainText

/-! ## Numbers -/

/-- The digits up to base sixteen are plain. -/
theorem plain_digitChar {n : Nat} (h : n < 16) : isPlain (Nat.digitChar n) := by
  have : ∀ n < 16, isPlain (Nat.digitChar n) := by decide
  exact this n h

/-- Numerals up to base sixteen are plain. -/
theorem plain_toDigits {base : Nat} (hmore : 1 < base) (hless : base ≤ 16) (n : Nat) :
    PlainText (Nat.toDigits base n) := by
  induction n using Nat.strongRecOn with
  | _ n ih =>
    rw [Nat.toDigits_eq_if hmore]
    split
    · exact .cons (plain_digitChar (by omega)) nofun
    · have hlast := Nat.mod_lt n (by omega : base > 0)
      exact (ih _ (Nat.div_lt_self (by omega) hmore)).append
        (.cons (plain_digitChar (by omega)) nofun)

theorem plain_zeros (n : Nat) : PlainText (zeros n) := .replicate (by decide) n

/-- The four digits of an escape are plain. -/
theorem plain_hexadecimal (width n : Nat) : PlainText (Text.hexadecimal width n) :=
  .append (plain_zeros _) (plain_toDigits (by decide) (by decide) n)

/-- Whole numbers are written in plain text. -/
theorem plain_decimal (n : Int) : PlainText (decimal n) := by
  have := plain_toDigits (by decide : 1 < 10) (by decide) n.natAbs
  rw [decimal]
  split
  · exact .cons (by decide) this
  · exact this

theorem PlainText.take {text : Text} (h : PlainText text) (n : Nat) : PlainText (text.take n) :=
  fun c hc => h c (List.mem_of_mem_take hc)

theorem PlainText.drop {text : Text} (h : PlainText text) (n : Nat) : PlainText (text.drop n) :=
  fun c hc => h c (List.mem_of_mem_drop hc)

/-- Decimal numbers are written in plain text, with or without a power of ten. -/
theorem plain_decimalText (d : Decimal) : PlainText d.text := by
  have hdigits := plain_toDigits (by decide : 1 < 10) (by decide) d.digits
  rw [Decimal.text]
  generalize Nat.toDigits 10 d.digits = digits at *
  split
  · rw [Decimal.positional]
    split
    · exact .append (.cons (by decide) (.cons (by decide) (plain_zeros _))) hdigits
    · refine .append (.append (hdigits.take _) (plain_zeros _)) (.cons (by decide) ?_)
      split
      · decide
      · exact hdigits.drop _
  · rw [Decimal.scientific]
    refine .append (.append (.append (.append (hdigits.take 1) ?_) ?_) (plain_zeros _))
      (plain_toDigits (by decide) (by decide) _)
    · split
      · exact nofun
      · exact .cons (by decide) (hdigits.drop 1)
    · split <;> decide

/-- Numbers that are not whole are written in plain text, and so is what is no number. -/
theorem plain_floatText (x : Binary64) : PlainText (Json.floatText x) := by
  cases x with
  | nan => decide
  | infinite negative => cases negative <;> decide
  | finite negative units =>
    have hmagnitude :
        PlainText (if units = 0 then ['0', '.', '0'] else (Decimal.shortest units).text) := by
      split
      · decide
      · exact plain_decimalText _
    cases negative with
    | false => exact hmagnitude
    | true => exact .cons (by decide) hmagnitude

namespace Json

/-! ## Values -/

/-- Every letter is written in plain text: what is no plain character is escaped. -/
theorem plain_escapeLetter (letter : Letter) : PlainText (escapeLetter letter) := by
  have hunit (unit : Nat) : PlainText (unitEscape unit) :=
    .cons (by decide) (.cons (by decide) (plain_hexadecimal 4 unit))
  cases letter with
  | half unit => exact hunit unit
  | char c =>
    rw [escapeLetter, escapeChar]
    split_ifs with _ _ _ _ _ _ _ hprintable
    iterate 7
      · decide
    · refine .cons ?_ nofun
      simp only [isPlain, Bool.or_eq_true, Bool.and_eq_true, decide_eq_true_eq]
      omega
    · exact hunit _
    · exact .append (hunit _) (hunit _)

/-- Strings are written in plain text. -/
theorem plain_quoteString (s : JsonString) : PlainText (quoteString s) :=
  .append (.cons (by decide) (.flatMap plain_escapeLetter _)) (by decide)

/-- Containers are written in plain text if their parts are. -/
theorem plain_bracketed {opening closing : Char} (hopening : isPlain opening)
    (hclosing : isPlain closing) (depth : Nat) {parts : List Text}
    (h : ∀ part ∈ parts, PlainText part) : PlainText (bracketed opening closing depth parts) := by
  have hindent (n : Nat) : PlainText ('\n' :: List.replicate (2 * n) ' ') :=
    .cons (by decide) (.replicate (by decide) _)
  rw [bracketed]
  split
  · exact .cons hopening (.cons hclosing nofun)
  · exact .append (.append (.append (.cons hopening (hindent _))
      (.join (.cons (by decide) (hindent _)) h)) (hindent _)) (.cons hclosing nofun)

mutual

/-- Every value is written in plain text, at any depth. -/
theorem plain_indentedAt (depth : Nat) (value : Json) : PlainText (indentedAt depth value) := by
  cases value with
  | null => exact (by decide : PlainText "null".toList)
  | bool b =>
    cases b with
    | false => exact (by decide : PlainText "false".toList)
    | true => exact (by decide : PlainText "true".toList)
  | int n => exact plain_decimal n
  | float x => exact plain_floatText x
  | string s => exact plain_quoteString s
  | list items => exact plain_bracketed (by decide) (by decide) depth (plain_indentedItems _ items)
  | object members =>
    exact plain_bracketed (by decide) (by decide) depth (plain_indentedMembers _ members)

/-- The items of a list are written in plain text. -/
theorem plain_indentedItems (depth : Nat) (items : List Json) :
    ∀ part ∈ indentedItems depth items, PlainText part := by
  match items with
  | [] => exact nofun
  | item :: rest =>
    exact List.forall_mem_cons.2 ⟨plain_indentedAt depth item, plain_indentedItems depth rest⟩

/-- The members of an object are written in plain text. -/
theorem plain_indentedMembers (depth : Nat) (members : List (JsonString × Json)) :
    ∀ part ∈ indentedMembers depth members, PlainText part := by
  match members with
  | [] => exact nofun
  | (name, value) :: rest =>
    exact List.forall_mem_cons.2 ⟨.append (.append (plain_quoteString name) (by decide))
      (plain_indentedAt depth value), plain_indentedMembers depth rest⟩

end

end Json

end LiveCheck
