import LiveCheck.Proofs.Json.Number
import Mathlib.Data.List.TakeWhile

/-!
# What the faults of reading come from

Apart from its form, a text is refused only for what is written in it: for a run of more digits than
a whole number may have, or for more opening brackets and braces than containers may be nested
(`Json.read_of_modest`). The result of every part of the reader is *grounded* in its text
(`Grounded`): what is left is an end of the text, and a fault has its reason there. This goes from
one part of the reader to the next (`Grounded.bind`), so that the induction over values, items and
members has one case per call.
-/

namespace LiveCheck

namespace Json

/-- One of the two characters that open a container. -/
def isOpening (c : Char) : Bool := c = '[' || c = '\x7b'

/-- The text has a run of more digits than a whole number may have. -/
def HasOverlong (text : Text) : Prop :=
  ∃ run, run <:+: text ∧ AllDigits run ∧ digitLimit < run.length

/-- What is left of the text is an end of it, and a fault has its reason in the text: the run of
    digits that is too long, or the characters that open more containers than there is room for. -/
def Grounded {α : Type} (room : Nat) (text : Text) : Except Fault (α × Text) → Prop
  | .ok (_, rest) => rest <:+ text
  | .error .malformed => True
  | .error (.overlong _) => HasOverlong text
  | .error (.tooDeep _) => room < text.countP isOpening

variable {α β : Type} {fuel room : Nat} {text rest : Text} {result : Except Fault (α × Text)}

/-- A run of digits in an end of a text is one of the text. -/
theorem HasOverlong.of_suffix (h : HasOverlong rest) (hsuffix : rest <:+ text) :
    HasOverlong text := by
  obtain ⟨run, hrun, hdigits, hlong⟩ := h
  exact ⟨run, hrun.trans hsuffix.isInfix, hdigits, hlong⟩

namespace Grounded

/-- A result that is grounded in an end of a text is grounded in the text. -/
theorem of_suffix (h : Grounded room rest result) (hsuffix : rest <:+ text) :
    Grounded room text result := by
  match result, h with
  | .ok _, h => exact h.trans hsuffix
  | .error .malformed, _ => trivial
  | .error (.overlong _), h => exact HasOverlong.of_suffix h hsuffix
  | .error (.tooDeep _), h => exact Nat.lt_of_lt_of_le h hsuffix.sublist.countP_le

/-- Reading goes on with what was left. -/
theorem bind {next : α × Text → Except Fault (β × Text)} (h : Grounded room text result)
    (hnext : ∀ a rest, rest <:+ text → Grounded room text (next (a, rest))) :
    Grounded room text (result >>= next) := by
  match result, h with
  | .ok (a, rest), h => exact hnext a rest h
  | .error .malformed, _ => trivial
  | .error (.overlong _), h => exact h
  | .error (.tooDeep _), h => exact h

/-- There is no room for a container in front of the text. -/
theorem full {c : Char} (hc : isOpening c) (container : Container) :
    Grounded 0 (c :: text) (.error (.tooDeep container) : Except Fault (α × Text)) := by
  show 0 < (c :: text).countP isOpening
  rw [List.countP_cons_of_pos hc]
  exact Nat.succ_pos _

/-- What is in a container has less room and stands behind the character that opens it. -/
theorem opened {c : Char} (hc : isOpening c) (h : Grounded room text result) :
    Grounded (room + 1) (c :: text) result := by
  match result, h with
  | .ok _, h => exact h.trans (List.suffix_cons c text)
  | .error .malformed, _ => trivial
  | .error (.overlong _), h => exact HasOverlong.of_suffix h (List.suffix_cons c text)
  | .error (.tooDeep _), h =>
    show room + 1 < (c :: text).countP isOpening
    rw [List.countP_cons_of_pos hc]
    exact Nat.succ_lt_succ h

end Grounded

/-! ## Strings, numbers and words -/

theorem skipSpace_suffix (text : Text) : skipSpace text <:+ text := List.dropWhile_suffix _

/-- What is left after four digits is an end of the text. -/
theorem suffix_of_readHex4 {n : Nat} (h : readHex4 text = some (n, rest)) : rest <:+ text := by
  rw [readHex4.eq_def] at h
  split at h
  · simp only [Option.bind_eq_bind, Option.bind_eq_some_iff, Option.pure_def] at h
    obtain ⟨_, -, _, -, _, -, _, -, h⟩ := h
    cases h
    exact ⟨[_, _, _, _], rfl⟩
  · cases h

theorem suffix_of_readUnicodeEscape {letter : Letter}
    (h : readUnicodeEscape text = some (letter, rest)) : rest <:+ text := by
  obtain ⟨⟨high, after⟩, hhigh, h⟩ := Option.bind_eq_some_iff.1 h
  have hsuffix := suffix_of_readHex4 hhigh
  -- One escape was read, if no second one is needed or none follows.
  have hsingle (h : (if 0xD800 ≤ high ∧ high < 0xE000 then pure (Letter.half high, after)
      else pure (Letter.char (Char.ofNat high), after)) = some (letter, rest)) : rest <:+ text := by
    split at h <;> cases h <;> exact hsuffix
  dsimp only at h
  split at h
  · split at h
    · split at h
      · rename_i low last hlow
        split at h
        · cases h
          exact ((suffix_of_readHex4 hlow).trans ⟨['\\', 'u'], rfl⟩).trans hsuffix
        · exact hsingle h
      · exact hsingle h
    · exact hsingle h
  · exact hsingle h

/-- What is left after a string is an end of the text. -/
theorem grounded_readString (fuel : Nat) (text : Text) :
    Grounded room text (readString fuel text) := by
  -- Each character takes fuel, so the induction is on the fuel.
  induction fuel generalizing text with
  | zero => trivial
  | succ fuel ih =>
    cases text with
    | nil => trivial
    | cons c rest =>
      rw [readString.eq_def]
      dsimp only
      split
      · exact List.suffix_cons c rest
      split
      · cases rest with
        | nil => trivial
        | cons e more =>
          dsimp only
          split
          · trivial
          · rename_i letter after hescaped
            have hmore : more <:+ c :: e :: more := ⟨[c, e], rfl⟩
            -- An escape is of one letter, or of four digits, or of two times four digits.
            have hafter : after <:+ c :: e :: more := by
              split at hescaped
              · exact (suffix_of_readUnicodeEscape hescaped).trans hmore
              · obtain ⟨_, -, hescaped⟩ := Option.map_eq_some_iff.1 hescaped
                cases hescaped
                exact hmore
            refine Grounded.of_suffix ?_ hafter
            exact (ih after).bind fun _ _ h => h
      split
      · trivial
      · refine Grounded.of_suffix ?_ (List.suffix_cons c rest)
        exact (ih rest).bind fun _ _ h => h

theorem suffix_of_readExponent? {n : Int} (h : readExponent? text = some (n, rest)) :
    rest <:+ text := by
  rw [readExponent?.eq_def] at h
  split at h
  · rename_i e more
    split at h
    · split at h
      rename_i negative digits hsign
      have hdigits : digits <:+ more := by
        split at hsign <;> cases hsign
        · exact List.suffix_cons _ _
        · exact List.suffix_cons _ _
        · exact List.suffix_rfl
      split at h
      · cases h
      · cases h
        exact ((List.dropWhile_suffix _).trans hdigits).trans (List.suffix_cons _ _)
    · cases h
  · cases h

theorem suffix_of_readFraction? {digits : Text} (h : readFraction? text = some (digits, rest)) :
    rest <:+ text := by
  rw [readFraction?.eq_def] at h
  split at h
  · split at h
    · cases h
    · cases h
      exact (List.dropWhile_suffix _).trans (List.suffix_cons _ _)
  · cases h

/-- Reading a number fails only if its digits are too many. -/
theorem grounded_readNumber (negative : Bool) (text : Text) :
    Grounded room text (readNumber negative text) := by
  rw [readNumber.eq_def]
  split
  rename_i whole afterWhole hwhole
  obtain ⟨hdigits, htext⟩ : AllDigits whole ∧ whole ++ afterWhole = text := by
    split at hwhole <;> cases hwhole
    · exact ⟨(whole_toDigits 0).all, rfl⟩
    · exact ⟨fun c => List.mem_takeWhile_imp, List.takeWhile_append_dropWhile⟩
  have hsuffix : afterWhole <:+ text := ⟨whole, htext⟩
  split
  · trivial
  split
  rename_i fraction afterFraction hfraction
  have hafter : afterFraction <:+ text := by
    cases hread : readFraction? afterWhole with
    | none =>
      rw [hread] at hfraction
      cases hfraction
      exact hsuffix
    | some found =>
      rw [hread] at hfraction
      cases hfraction
      exact (suffix_of_readFraction? hread).trans hsuffix
  split
  · split
    · split
      · exact hsuffix
      · -- Only the whole part of a number without fraction and power is read as a numeral.
        rename_i e he
        rw [readNumeral] at he
        split at he
        · cases he
        · exact ⟨whole, ⟨[], afterWhole, htext⟩, hdigits, Nat.lt_of_not_le ‹_›⟩
    · exact hafter
  · rename_i hexponent
    exact (suffix_of_readExponent? hexponent).trans hafter

/-- Reading a value that is no container fails only for a reason in the text. -/
theorem grounded_readScalar (text : Text) : Grounded room text (readScalar text) := by
  rw [readScalar.eq_def]
  split
  · rename_i found hfound
    rw [readWord?] at hfound
    obtain ⟨w, -, hw⟩ := List.exists_of_findSome?_eq_some hfound
    split at hw
    · cases hw
      exact List.drop_suffix _ _
    · cases hw
  · split
    · exact (grounded_readNumber true _).of_suffix (List.suffix_cons _ _)
    · exact grounded_readNumber false _

/-! ## Values -/

/-- The next part begins behind white space, and one character of its own at least. -/
theorem suffix_of_skipSpace {c : Char} {more : Text} (h : skipSpace text = c :: more) :
    skipSpace more <:+ text ∧ more <:+ text := by
  have hmore : more <:+ text := (List.suffix_cons c more).trans (h ▸ skipSpace_suffix text)
  exact ⟨(skipSpace_suffix more).trans hmore, hmore⟩

/-- Reading a value fails only for a reason in the text if reading its parts does. -/
theorem grounded_readValue_succ
    (hitems : ∀ room text, Grounded room text (readItems fuel room text))
    (hmembers : ∀ room members text, Grounded room text (readMembers fuel room members text))
    (room : Nat) (text : Text) : Grounded room text (readValue (fuel + 1) room text) := by
  rw [readValue.eq_def]
  dsimp only
  split
  · rename_i rest
    refine Grounded.of_suffix ?_ (List.suffix_cons _ rest)
    exact (grounded_readString _ rest).bind fun _ _ h => h
  · rename_i rest
    split
    · exact Grounded.full rfl _
    · rename_i hclosed
      exact (suffix_of_skipSpace hclosed).2.trans (List.suffix_cons _ rest)
    · -- What is inside the container is read with one level less of room.
      refine Grounded.opened rfl (Grounded.of_suffix ?_ (skipSpace_suffix rest))
      exact (hitems _ _).bind fun _ _ h => h
  · rename_i rest
    split
    · exact Grounded.full rfl _
    · rename_i hclosed
      exact (suffix_of_skipSpace hclosed).2.trans (List.suffix_cons _ rest)
    · refine Grounded.opened rfl (Grounded.of_suffix ?_ (skipSpace_suffix rest))
      exact (hmembers _ _ _).bind fun _ _ h => h
  · exact grounded_readScalar _

/-- Reading items fails only for a reason in the text if reading each of them does. -/
theorem grounded_readItems_succ
    (hvalue : ∀ room text, Grounded room text (readValue fuel room text))
    (hitems : ∀ room text, Grounded room text (readItems fuel room text))
    (room : Nat) (text : Text) : Grounded room text (readItems (fuel + 1) room text) := by
  rw [readItems.eq_def]
  refine (hvalue room text).bind fun item rest hrest => ?_
  dsimp only
  split
  · rename_i hclosed
    exact (suffix_of_skipSpace hclosed).2.trans hrest
  · rename_i hcomma
    refine Grounded.of_suffix ?_ ((suffix_of_skipSpace hcomma).1.trans hrest)
    exact (hitems room _).bind fun _ _ h => h
  · trivial

/-- Reading members fails only for a reason in the text if reading each of them does. -/
theorem grounded_readMembers_succ
    (hvalue : ∀ room text, Grounded room text (readValue fuel room text))
    (hmembers : ∀ room members text, Grounded room text (readMembers fuel room members text))
    (room : Nat) (members : List (JsonString × Json)) (text : Text) :
    Grounded room text (readMembers (fuel + 1) room members text) := by
  rw [readMembers.eq_def]
  dsimp only
  split
  · rename_i quoted
    refine Grounded.of_suffix ?_ (List.suffix_cons _ quoted)
    refine (grounded_readString _ quoted).bind fun name rest hrest => ?_
    dsimp only
    split
    · rename_i hcolon
      refine Grounded.of_suffix ?_ ((suffix_of_skipSpace hcolon).1.trans hrest)
      refine (hvalue room _).bind fun value rest hrest => ?_
      dsimp only
      split
      · rename_i hclosed
        exact (suffix_of_skipSpace hclosed).2.trans hrest
      · rename_i hcomma
        exact (hmembers room _ _).of_suffix ((suffix_of_skipSpace hcomma).1.trans hrest)
      · trivial
    · trivial
  · trivial

/-- By induction on the fuel, all reading fails only for a reason in the text. -/
theorem grounded_reading (fuel : Nat) :
    (∀ room text, Grounded room text (readValue fuel room text)) ∧
      (∀ room text, Grounded room text (readItems fuel room text)) ∧
        ∀ room members text, Grounded room text (readMembers fuel room members text) := by
  induction fuel with
  | zero => exact ⟨fun _ _ => trivial, fun _ _ => trivial, fun _ _ _ => trivial⟩
  | succ fuel ih =>
    obtain ⟨hvalue, hitems, hmembers⟩ := ih
    exact ⟨grounded_readValue_succ hitems hmembers, grounded_readItems_succ hvalue hitems,
      grounded_readMembers_succ hvalue hmembers⟩

/-- The text has no run of more digits than a whole number may have, and opens no more containers
    than there is room for. -/
def Modest (room : Nat) (text : Text) : Prop :=
  ¬ HasOverlong text ∧ text.countP isOpening ≤ room

/-- A modest text is read, or is not of the form of JSON. -/
theorem read_of_modest {room : Nat} (h : Modest room text) {fault : Fault}
    (hread : read room text = .error fault) : fault = .malformed := by
  obtain ⟨hshort, hflat⟩ := h
  have hgrounded := ((grounded_reading (2 * text.length + 2)).1 room
    (skipSpace text)).of_suffix (skipSpace_suffix text)
  rw [read] at hread
  cases hvalue : readValue (2 * text.length + 2) room (skipSpace text) with
  | ok found =>
    rw [hvalue] at hread
    dsimp only [bind, Except.bind] at hread
    split at hread <;> cases hread
    rfl
  | error found =>
    rw [hvalue] at hread hgrounded
    obtain rfl : found = fault := Except.error.inj hread
    match found, hgrounded with
    | .malformed, _ => rfl
    | .overlong _, hlong => exact absurd hlong hshort
    | .tooDeep _, hdeep => exact absurd hdeep (Nat.not_lt_of_le hflat)

end Json

end LiveCheck
