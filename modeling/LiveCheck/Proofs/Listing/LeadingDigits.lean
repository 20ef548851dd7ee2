import LiveCheck.Proofs.Listing.Collected
import LiveCheck.Proofs.Listing.Passage
import LiveCheck.Proofs.Text.Join
import Mathlib.Data.List.TakeWhile

/-!
# What a message leaves out

The message of a record is made of the texts that its passage tells for the code
(`Passage.texts`): a code message tells the text behind the code, a continuation all that it says
(`ListingLine.Tells`). They are joined by spaces, and digits at the front of the whole are left out
with the blanks behind them, whatever number they are.

So a text is told in full, or without a repetition of the code (`KeepsText`), exactly if the first
of them begins with no digits or with those of the code (`keepsText_iff`, `leadingDigits_join`). A
message that begins with any other number loses it.
-/

namespace LiveCheck

/-! ## Digits at the front -/

/-- The digits that a text begins with. -/
def Text.leadingDigits (text : Text) : Text := text.takeWhile isDecimalDigit

/-- Nothing of a text is missing in a message but the code, if the text begins with it, and the
    blanks behind that. -/
def KeepsText (code text message : Text) : Prop :=
  message = text ∨ ∃ rest : Text, text = code ++ rest ∧ message = rest.stripLeft

namespace Text

/-- Joined texts begin with the digits of the first one: a space ends them at the latest. -/
theorem leadingDigits_join (parts : List Text) :
    (join [' '] parts).leadingDigits = (parts.headD []).leadingDigits := by
  match parts with
  | [] => rfl
  | [part] => rw [join_singleton]; rfl
  | part :: next :: rest =>
    have hspace : List.takeWhile isDecimalDigit ([' '] ++ join [' '] (next :: rest)) = [] :=
      List.takeWhile_cons_of_neg (by decide)
    rw [join_cons_cons, List.append_assoc, leadingDigits, List.takeWhile_append, hspace,
      List.append_nil]
    split
    · rename_i hall
      exact ((List.takeWhile_prefix _).eq_of_length hall).symm
    · rfl

end Text

theorem joinMessage_of_none {texts : List Text} (h : (Text.join [' '] texts).leadingDigits = []) :
    joinMessage texts = Text.join [' '] texts := by
  rw [Text.leadingDigits] at h
  rw [joinMessage]
  simp only [h]

theorem joinMessage_of_some {texts : List Text} (h : (Text.join [' '] texts).leadingDigits ≠ []) :
    joinMessage texts = Text.stripLeft ((Text.join [' '] texts).dropWhile isDecimalDigit) := by
  rw [Text.leadingDigits] at h
  rw [joinMessage]
  split
  · exact absurd ‹_› h
  · rfl

/-- The digits at the front, and the blanks behind them, are all that a message leaves out. -/
theorem exists_blanks (texts : List Text) : ∃ blanks : Text, (∀ c ∈ blanks, isBlank c) ∧
    ((Text.join [' '] texts).leadingDigits = [] → blanks = []) ∧
    Text.join [' '] texts =
      (Text.join [' '] texts).leadingDigits ++ blanks ++ joinMessage texts := by
  by_cases h : (Text.join [' '] texts).leadingDigits = []
  · exact ⟨[], by simp, fun _ => rfl, by rw [joinMessage_of_none h, h]; rfl⟩
  · refine ⟨((Text.join [' '] texts).dropWhile isDecimalDigit).takeWhile isBlank,
      fun c hc => List.mem_takeWhile_imp hc, fun hnone => absurd hnone h, ?_⟩
    rw [joinMessage_of_some h, List.append_assoc, Text.stripLeft, List.takeWhile_append_dropWhile]
    exact List.takeWhile_append_dropWhile.symm

/-- A message keeps its texts exactly if they begin with no number but the code. -/
theorem keepsText_iff {code : Text} (hne : code ≠ []) (hcode : ∀ c ∈ code, isDecimalDigit c)
    (texts : List Text) : KeepsText code (Text.join [' '] texts) (joinMessage texts) ↔
      (Text.join [' '] texts).leadingDigits = [] ∨
        (Text.join [' '] texts).leadingDigits = code := by
  obtain ⟨blanks, hblanks, -, hwhole⟩ := exists_blanks texts
  generalize htext : Text.join [' '] texts = text at hwhole ⊢
  constructor
  · rintro (hfull | ⟨rest, hrest, hmessage⟩)
    · -- Nothing is missing, so there are no digits.
      rw [hfull] at hwhole
      have hlength := congrArg List.length hwhole
      simp only [List.length_append] at hlength
      exact .inl (List.length_eq_zero_iff.1 (by omega))
    · -- The digits begin with the code. If they went on behind it, these would be missing too.
      right
      have hdigits : text.leadingDigits = code ++ Text.leadingDigits rest := by
        rw [hrest, Text.leadingDigits, List.takeWhile_append_of_pos hcode, Text.leadingDigits]
      by_cases hmore : Text.leadingDigits rest = []
      · rw [hdigits, hmore, List.append_nil]
      · exfalso
        have hhead : rest.head?.any isBlank = false := by
          cases rest with
          | nil => rfl
          | cons c rest =>
            have hc : isDecimalDigit c := by
              by_contra hc
              exact hmore (List.takeWhile_cons_of_neg hc)
            exact isBlank_of_isDecimalDigit hc
        rw [Text.stripLeft_of_head hhead] at hmessage
        rw [hmessage, hdigits, hrest] at hwhole
        have hlength := congrArg List.length hwhole
        have hpos := List.length_pos_iff.2 hmore
        simp only [List.length_append] at hlength
        omega
  · rintro (hnone | hcode)
    · exact .inl (htext ▸ joinMessage_of_none (htext.symm ▸ hnone))
    · refine .inr ⟨text.dropWhile isDecimalDigit, ?_, ?_⟩
      · rw [← hcode]
        exact List.takeWhile_append_dropWhile.symm
      · rw [joinMessage_of_some (by rw [htext, hcode]; exact hne), htext]

/-! ## What lines tell -/

namespace ListingLine

/-- What a line tells for a code: the text behind the code if it is a code message, or else all that
    stands in its body. -/
inductive Tells (line code : Text) : Text → Prop
  | codeMessage (front : Text) {rest : Text} : body line = front ++ code ++ rest →
      (∀ c ∈ front, isBlank c) → rest.head?.all isBlank → Tells line code rest.strip
  | continuation : Tells line code (body line).strip

theorem tells_of_codeMessage {line code text : Text} (h : read line = codeMessage code text) :
    Tells line code text := by
  rw [read_of_not_opens (not_opens_of_text (.inl ⟨code, h⟩))] at h
  obtain ⟨rest, hbody, hrest, rfl⟩ := codeMessage?_eq_some (ofBody_eq_codeMessage h)
  -- Only the body of a marked line may have blanks in front of the code.
  split at hbody
  · refine .codeMessage ((body line).takeWhile isBlank) ?_
      (fun c hc => List.mem_takeWhile_imp hc) hrest
    rw [List.append_assoc, ← hbody]
    exact List.takeWhile_append_dropWhile.symm
  · exact .codeMessage [] hbody (by simp) hrest

theorem tells_of_continuation {line text : Text} (h : read line = continuation text)
    (code : Text) : Tells line code text := by
  rw [read_of_not_opens (not_opens_of_text (.inr h))] at h
  exact ofBody_eq_continuation h ▸ .continuation

end ListingLine

namespace Passage

open ListingLine

/-- The texts that a passage tells for a code. -/
def texts (p : Passage) (code : Text) : List Text := Block.collected code (calls p.lines)

/-- Each text of a code stands on a line of its passage. -/
theorem tells_of_mem_texts {p : Passage} {code text : Text} (h : text ∈ p.texts code) :
    ∃ line ∈ p.lines, Tells line code text := by
  obtain ⟨-, hcall | hcall⟩ := Block.mem_collected h
  · obtain ⟨line, hline, hcall⟩ := List.mem_filterMap.1 hcall
    exact ⟨line, hline, tells_of_codeMessage (eq_of_call?_switchCode hcall)⟩
  · obtain ⟨line, hline, hcall⟩ := List.mem_filterMap.1 hcall
    exact ⟨line, hline, tells_of_continuation (eq_of_call?_addContinuation hcall) code⟩

end Passage

/-! ## Messages of a listing -/

/-- **What the messages of a listing tell.** The records are those of the passages, each with the
    texts that its passage tells for its code, joined by spaces. If the first text begins with
    digits, these are missing, with the blanks behind them, and nothing else ever is; so the texts
    are told in full, or with nothing missing but the code, exactly if these digits are none or
    those of the code. -/
theorem readListing_messages {text : Text} {records : List Record}
    (h : readListing text = .ok records) :
    let passages := Passage.ofLines text.lines
    records.Perm (passages.flatMap Passage.records) ∧
    ∀ p ∈ passages, ∀ r ∈ p.records,
      let texts := p.texts r.code
      let whole := Text.join [' '] texts
      let digits := Text.leadingDigits (texts.headD [])
      (∀ t ∈ texts, ∃ line ∈ p.lines, ListingLine.Tells line r.code t) ∧
      (∃ blanks : Text, (∀ c ∈ blanks, isBlank c) ∧ (digits = [] → blanks = []) ∧
        whole = digits ++ blanks ++ r.message) ∧
      r.message.head?.any isBlank = false ∧
      (KeepsText r.code whole r.message ↔ digits = [] ∨ digits = r.code) := by
  intro passages
  rw [readListing_eq] at h
  split at h
  · cases h
  rename_i hstop
  refine ⟨?_, fun p hp r hr => ?_⟩
  · rw [← Except.ok.inj h, Scan.records_ofText hstop]
    exact List.mergeSort_perm _ _
  · intro texts whole digits
    have hformed := Passage.wellFormed_of_mem_records hp hr
    obtain ⟨-, -, hmessage⟩ := Passage.of_mem_records hr
    rw [Block.textsFor_eq_collected] at hmessage
    have hdigits : whole.leadingDigits = digits := Text.leadingDigits_join texts
    -- The message is the joined texts without their leading digits and the blanks behind these.
    have hkeeps := keepsText_iff hformed.code.1 hformed.code.2 texts
    obtain ⟨blanks, hblanks, hnone, hwhole⟩ := exists_blanks texts
    refine ⟨fun t ht => Passage.tells_of_mem_texts ht, ⟨blanks, hblanks, ?_, ?_⟩,
      hformed.trimmed.1, ?_⟩
    · rw [← hdigits]
      exact hnone
    · rw [← hdigits, hmessage]
      exact hwhole
    · rw [← hdigits, hmessage]
      exact hkeeps

/-- A message that repeats its code, with a continuation that begins with a number, and one that
    begins with another number. -/
theorem readListing_messages_of_numbers :
    let text : Text := ("****  $140 $36\n****  LINE 2\n140  140 unknown symbol\n" ++
      "     2 of 3\n36  3 dimensions expected\n").toList
    ∃ p ∈ Passage.ofLines text.lines, ∃ r₁ r₂, readListing text = .ok [r₁, r₂] ∧
      p.records = [r₁, r₂] ∧
      KeepsText r₁.code "140 unknown symbol 2 of 3".toList r₁.message ∧
      r₁.message = "unknown symbol 2 of 3".toList ∧
      ¬KeepsText r₂.code "3 dimensions expected".toList r₂.message := by
  intro text
  let p : Passage := ⟨[⟨"140".toList, 4⟩, ⟨"36".toList, 9⟩], text.lines.drop 1⟩
  have hp : p ∈ Passage.ofLines text.lines := List.mem_of_mem_head? (by rfl)
  have hread : readListing text = .ok [⟨"140".toList, 4, 2, "unknown symbol 2 of 3".toList⟩,
      ⟨"36".toList, 9, 2, "dimensions expected".toList⟩] :=
    readListing_of_sorted (by decide +kernel) (by decide +kernel) (by rw [Sorted]; decide +kernel)
  have hrecords : p.records = [⟨"140".toList, 4, 2, "unknown symbol 2 of 3".toList⟩,
      ⟨"36".toList, 9, 2, "dimensions expected".toList⟩] := by decide +kernel
  have htexts : p.texts "140".toList = ["140 unknown symbol".toList, "2 of 3".toList] ∧
      p.texts "36".toList = ["3 dimensions expected".toList] := by decide +kernel
  obtain ⟨-, hmessages⟩ := readListing_messages hread
  obtain ⟨-, -, -, hfirst⟩ := hmessages p hp _ (hrecords ▸ List.mem_cons_self)
  obtain ⟨-, -, -, hsecond⟩ := hmessages p hp _
    (hrecords ▸ List.mem_cons_of_mem _ (List.mem_singleton_self _))
  rw [htexts.1] at hfirst
  rw [htexts.2] at hsecond
  exact ⟨p, hp, _, _, hread, hrecords, hfirst.2 (by decide +kernel), rfl,
    fun hkeeps => absurd (hsecond.1 hkeeps) (by decide +kernel)⟩

/-- A number at the front of a message is lost though it is not the code. -/
theorem not_keepsText_of_number :
    let text : Text := "****    $140\n****  LINE 1\n140  3 dimensions expected\n".toList
    ∃ p ∈ Passage.ofLines text.lines, ∃ r,
      readListing text = .ok [r] ∧ p.records = [r] ∧
      p.texts r.code = ["3 dimensions expected".toList] ∧ r.message = "dimensions expected".toList ∧
      ¬KeepsText r.code (Text.join [' '] (p.texts r.code)) r.message := by
  intro text
  let p : Passage := ⟨[⟨"140".toList, 6⟩], text.lines.drop 1⟩
  have htexts : p.texts "140".toList = ["3 dimensions expected".toList] := by decide +kernel
  refine ⟨p, List.mem_of_mem_head? (by rfl),
    ⟨"140".toList, 6, 1, "dimensions expected".toList⟩,
    readListing_of_sorted (by decide +kernel) (by decide +kernel) (List.pairwise_singleton _ _),
    by decide +kernel, htexts, rfl, ?_⟩
  rw [htexts]
  rintro (hfull | ⟨rest, hrest, -⟩)
  · exact absurd hfull (by decide +kernel)
  · -- The text does not begin with the code.
    have hdigit : '3' = '1' := (List.cons.inj hrest).1
    exact absurd hdigit (by decide)

end LiveCheck
