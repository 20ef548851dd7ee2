import LiveCheck.Listing.Block
import LiveCheck.Proofs.Listing.Marker
import LiveCheck.Proofs.Text.Line

/-!
# Messages

A text is *trimmed* if no blank stands at its ends (`Text.Trimmed`). Stripping makes any text
trimmed (`Text.trimmed_strip`), and the message that trimmed texts make is trimmed again
(`trimmed_joinMessage`), whether or not a number is left out at its front. Nor does a message get a
line break that none of its texts has (`unbroken_joinMessage`).
-/

namespace LiveCheck

namespace Text

/-- There are no blanks at the ends of the text. -/
def Trimmed (text : Text) : Prop :=
  text.head?.any isBlank = false ∧ text.getLast?.any isBlank = false

instance (text : Text) : Decidable text.Trimmed := inferInstanceAs (Decidable (_ ∧ _))

/-! ## Ends of a text -/

/-- The front of a text begins as the text does. -/
theorem head_of_front {p : Char → Bool} {front text : Text} (hfront : front <+: text)
    (h : text.head?.any p = false) : front.head?.any p = false := by
  obtain ⟨rest, rfl⟩ := hfront
  cases front with
  | nil => rfl
  | cons c front => exact h

/-- The back of a text ends as the text does. -/
theorem last_of_back {p : Char → Bool} {back text : Text} (hback : back <:+ text)
    (h : text.getLast?.any p = false) : back.getLast?.any p = false := by
  rw [← List.head?_reverse] at h ⊢
  exact head_of_front (List.reverse_prefix.2 hback) h

theorem head_append {p : Char → Bool} {front : Text} (hne : front ≠ []) (rest : Text) :
    (front ++ rest).head?.any p = front.head?.any p := by
  rw [List.head?_append, List.head?_eq_some_head hne]
  rfl

theorem last_append {p : Char → Bool} {back : Text} (hne : back ≠ []) (rest : Text) :
    (rest ++ back).getLast?.any p = back.getLast?.any p := by
  rw [List.getLast?_append, List.getLast?_eq_some_getLast hne]
  rfl

/-- Stripping takes blanks off the end of what is left without those at the front. -/
theorem strip_front (text : Text) : text.strip <+: text.stripLeft := by
  rw [strip, stripRight, ← List.reverse_suffix, List.reverse_reverse]
  exact List.dropWhile_suffix isBlank

/-- Stripping takes nothing out of the middle of a text. -/
theorem strip_isInfix (text : Text) : text.strip <:+: text :=
  text.strip_front.isInfix.trans (List.dropWhile_suffix isBlank).isInfix

/-- Stripping makes any text trimmed. -/
theorem trimmed_strip (text : Text) : text.strip.Trimmed := by
  constructor
  · exact head_of_front text.strip_front (head_dropWhile isBlank text)
  · rw [strip, stripRight, List.getLast?_reverse]
    exact head_dropWhile isBlank _

theorem Unbroken.part {part text : Text} (hpart : part <:+: text) (h : text.Unbroken) :
    part.Unbroken :=
  fun c hc => h c (hpart.mem hc)

/-! ## Joining -/

theorem join_ne_nil {separator part : Text} (hne : part ≠ []) (parts : List Text) :
    join separator (part :: parts) ≠ [] := by
  cases parts with
  | nil => simpa [join] using hne
  | cons next parts => simp [join_cons_cons, hne]

/-- Texts that are trimmed, and not empty, make a trimmed text. -/
theorem trimmed_join {parts : List Text} (h : ∀ part ∈ parts, part ≠ [] ∧ part.Trimmed) :
    (join [' '] parts).Trimmed := by
  induction parts with
  | nil => exact ⟨rfl, rfl⟩
  | cons part parts ih =>
    obtain ⟨hne, hpart⟩ := h part List.mem_cons_self
    have hparts := ih fun p hp => h p (List.mem_cons_of_mem _ hp)
    cases parts with
    | nil => simpa [join] using hpart
    | cons next parts =>
      obtain ⟨hnext, -⟩ := h next (List.mem_cons_of_mem _ List.mem_cons_self)
      have hrest : join [' '] (next :: parts) ≠ [] := join_ne_nil hnext parts
      rw [join_cons_cons]
      constructor
      · rw [List.append_assoc, head_append hne]
        exact hpart.1
      · rw [last_append hrest]
        exact hparts.2

end Text

/-! ## Messages -/

/-- A message is an end of its joined parts. -/
theorem joinMessage_suffix (fragments : List Text) :
    joinMessage fragments <:+ Text.join [' '] fragments := by
  rw [joinMessage]
  split
  · exact List.suffix_refl _
  · exact (List.dropWhile_suffix isBlank).trans (List.dropWhile_suffix isDecimalDigit)

/-- A message of trimmed parts is trimmed. -/
theorem trimmed_joinMessage {fragments : List Text}
    (h : ∀ part ∈ fragments, part ≠ [] ∧ part.Trimmed) : (joinMessage fragments).Trimmed := by
  have hwhole := Text.trimmed_join h
  refine ⟨?_, Text.last_of_back (joinMessage_suffix fragments) hwhole.2⟩
  rw [joinMessage]
  split
  · exact hwhole.1
  · exact Text.head_dropWhile isBlank _

/-- A message of unbroken parts is unbroken. -/
theorem unbroken_joinMessage {fragments : List Text} (h : ∀ part ∈ fragments, part.Unbroken) :
    (joinMessage fragments).Unbroken := by
  refine Text.Unbroken.part (joinMessage_suffix fragments).isInfix fun c hc => ?_
  rcases Text.mem_join hc with hspace | ⟨part, hpart, hc⟩
  · rw [List.mem_singleton.1 hspace]
    decide
  · exact h part hpart c hc

end LiveCheck
