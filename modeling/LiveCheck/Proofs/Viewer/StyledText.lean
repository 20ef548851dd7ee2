import LiveCheck.Number.Numeral
import LiveCheck.Viewer.StyledText
import Mathlib.Data.Nat.Digits.Defs

/-!
# Texts without control characters

What disturbs a terminal is a control character, so a piece without control characters is added to a
styled text as it is (`StyledText.plain_append_uncontrolled`). Numbers have none.
-/

namespace LiveCheck

/-- Is the character a control character? -/
def isControl (c : Char) : Bool := c.toNat < 0x20 || 0x7f ≤ c.toNat && c.toNat < 0xa0

/-- What disturbs a terminal is a control character. -/
theorem isControl_of_disturbsTerminal {c : Char} (h : disturbsTerminal c) : isControl c := by
  simp only [disturbsTerminal, Bool.or_eq_true, decide_eq_true_eq] at h
  rcases h with (((rfl | rfl) | rfl) | rfl) | rfl <;> decide

namespace Text

/-- There are no control characters in the text. -/
def Uncontrolled (text : Text) : Prop := ∀ c ∈ text, ¬isControl c

instance (text : Text) : Decidable text.Uncontrolled :=
  List.decidableBAll (fun c => ¬isControl c) text

theorem uncontrolled_append {front rest : Text} :
    (front ++ rest).Uncontrolled ↔ front.Uncontrolled ∧ rest.Uncontrolled :=
  List.forall_mem_append

theorem Uncontrolled.not_mem {text : Text} (h : text.Uncontrolled) : '\n' ∉ text :=
  fun hmem => h _ hmem (by decide)

theorem uncontrolled_digits (n : Nat) : Uncontrolled (Nat.toDigits 10 n) := fun c hc => by
  have hrange : 48 ≤ c.toNat ∧ c.toNat ≤ 57 :=
    Char.isDigit_iff_toNat.1 (Nat.isDigit_of_mem_toDigits (by decide) (by decide) hc)
  simp only [isControl, Bool.or_eq_true, Bool.and_eq_true, decide_eq_true_eq]
  omega

/-- Numbers hold no control characters. -/
theorem uncontrolled_decimal (n : Int) : Uncontrolled (decimal n) := by
  rw [decimal]
  split
  · exact List.forall_mem_cons.2 ⟨by decide, uncontrolled_digits _⟩
  · exact uncontrolled_digits _

theorem uncontrolled_alignRight {text : Text} (h : text.Uncontrolled) (width : Nat) :
    (alignRight width text).Uncontrolled :=
  uncontrolled_append.2 ⟨fun c hc => by rw [List.eq_of_mem_replicate hc]; decide, h⟩

end Text

namespace StyledText

variable (t : StyledText) {piece : Text}

/-- Of a piece that is added, all but the characters that disturb the terminal is to be read. -/
theorem plain_append_filter (piece : Text) (style : Option String) :
    (t.append piece style).plain = t.plain ++ piece.filter (!disturbsTerminal ·) := by
  rw [append]
  split
  · rename_i hempty
    rw [List.isEmpty_iff.1 hempty, List.filter_nil, List.append_nil]
  · rfl

/-- A piece that does not disturb the terminal is added as it is. -/
theorem plain_append (h : piece.all (!disturbsTerminal ·)) (style : Option String) :
    (t.append piece style).plain = t.plain ++ piece := by
  rw [plain_append_filter, List.filter_eq_self.2 (List.all_eq_true.1 h)]

/-- A piece without control characters is appended as it is. -/
theorem plain_append_uncontrolled (h : piece.Uncontrolled) (style : Option String) :
    (t.append piece style).plain = t.plain ++ piece :=
  t.plain_append (List.all_eq_true.2 fun c hc => by
    simpa using mt isControl_of_disturbsTerminal (h c hc)) style

end StyledText

end LiveCheck
