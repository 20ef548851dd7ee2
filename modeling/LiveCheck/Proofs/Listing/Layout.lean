import LiveCheck.Proofs.Listing.Append
import LiveCheck.Proofs.Listing.Marker
import LiveCheck.Proofs.Listing.PrintedLine
import LiveCheck.Proofs.Text.Visible

/-!
# Listings and their layout

The kind of a line does not depend on the blanks at its end (`ListingLine.read_append_blanks`), and
a line of blanks does nothing. So a listing is read by its visible lines alone (`Scan.ofText_eq`),
and all layouts of it are read alike (`readListing_of_relaid`).
-/

namespace LiveCheck

variable {blanks : Text} (hblanks : ∀ c ∈ blanks, isBlank c)

/-! ## Blanks behind a text -/

namespace Text

include hblanks

/-- A word without blanks ends in front of blanks. -/
theorem prefix_append_blanks {word text : Text} (hword : word.any isBlank = false) :
    word <+: text ++ blanks ↔ word <+: text := by
  refine ⟨fun h => ?_, fun h => h.trans (List.prefix_append _ _)⟩
  rcases List.prefix_or_prefix_of_prefix h (List.prefix_append text blanks) with h' | ⟨rest, rfl⟩
  · exact h'
  · -- What the word has behind the text is blank.
    have hrest : rest <+: blanks := (List.prefix_append_right_inj text).1 h
    cases rest with
    | nil => simp
    | cons c rest =>
      have hc := List.any_eq_false.1 hword c (List.mem_append_right _ List.mem_cons_self)
      exact absurd (hblanks c (hrest.subset List.mem_cons_self)) hc

theorem head_append_blanks {p : Char → Bool} (hp : ∀ c, isBlank c → p c = false) (text : Text) :
    (text ++ blanks).head?.any p = text.head?.any p := by
  cases text with
  | nil =>
    cases blanks with
    | nil => rfl
    | cons c rest => exact hp c (hblanks c List.mem_cons_self)
  | cons c rest => rfl

theorem takeWhile_append_blanks {p : Char → Bool} (hp : ∀ c, isBlank c → p c = false)
    (text : Text) : (text ++ blanks).takeWhile p = text.takeWhile p := by
  have hstop : blanks.takeWhile p = [] := takeWhile_of_head (head_append_blanks hblanks hp [])
  rw [List.takeWhile_append, hstop, List.append_nil]
  split
  · rename_i hall
    exact ((List.takeWhile_prefix p).eq_of_length hall).symm
  · rfl

theorem dropWhile_append_blanks {p : Char → Bool} (hp : ∀ c, isBlank c → p c = false)
    (text : Text) : (text ++ blanks).dropWhile p = text.dropWhile p ++ blanks := by
  have hstop : blanks.dropWhile p = blanks := dropWhile_of_head (head_append_blanks hblanks hp [])
  rw [List.dropWhile_append, hstop]
  split
  · rename_i hnone
    rw [List.isEmpty_iff.1 hnone, List.nil_append]
  · rfl

/-- Blanks at the end stay, unless there is nothing else. -/
theorem stripLeft_append_blanks (text : Text) : stripLeft (text ++ blanks) =
    if stripLeft text = [] then [] else stripLeft text ++ blanks := by
  rw [stripLeft, List.dropWhile_append, ← stripLeft]
  by_cases hnone : stripLeft text = []
  · rw [if_pos (by simp [hnone]), if_pos hnone]
    exact List.dropWhile_eq_nil_iff.2 hblanks
  · rw [if_neg (by simpa using hnone), if_neg hnone]

theorem strip_append_blanks (text : Text) : strip (text ++ blanks) = strip text := by
  rw [strip, stripLeft_append_blanks hblanks]
  split
  · rename_i hnone
    rw [strip, hnone]
  · exact stripRight_append hblanks _

end Text

/-! ## Markers -/

section Markers

include hblanks

theorem endsCodes_of_blanks : EndsCodes blanks := by
  intro c hc
  have hblank := hblanks c (List.mem_of_mem_head? hc)
  refine ⟨isDecimalDigit_of_isBlank hblank, ?_⟩
  rintro rfl
  exact absurd hblank (by decide)

/-- Blanks at the end of a line belong to no code. -/
theorem codesFrom_append_blanks (code text : Text) :
    codesFrom code (text ++ blanks) = codesFrom code text := by
  induction text generalizing code with
  | nil => exact codesFrom_of_ends (endsCodes_of_blanks hblanks) code
  | cons c rest ih =>
    rw [List.cons_append, codesFrom, codesFrom, ih, ih,
      Text.head_append_blanks hblanks fun _ => isDecimalDigit_of_isBlank]

/-- Blanks at the end of a line make no marker. -/
theorem markersFrom_append_blanks (offset : Nat) (text : Text) :
    markersFrom offset (text ++ blanks) = markersFrom offset text := by
  induction text generalizing offset with
  | nil =>
    have hdollar : '$' ∉ blanks := fun h => absurd (hblanks '$' h) (by decide)
    have hnone := markersFrom_append hdollar offset []
    rwa [List.append_nil] at hnone
  | cons c rest ih =>
    rw [List.cons_append, markersFrom, markersFrom, ih, leadingCodes, leadingCodes,
      codesFrom_append_blanks hblanks,
      Text.head_append_blanks hblanks fun _ => isDecimalDigit_of_isBlank]

end Markers

/-! ## Lines -/

namespace ListingLine

theorem isMarked_of_unprefixed {line : Text} (h : ¬Printed.asterisks <+: line) :
    isMarked line = false := by
  rw [isMarked.eq_2]
  rintro rest rfl
  exact h ⟨rest, rfl⟩

theorem directive?_of_unprefixed {body : Text} (h : ¬['L', 'I', 'N', 'E'] <+: body.stripLeft) :
    directive? body = none := by
  rw [directive?]
  split
  · rename_i rest hbody
    exact absurd ⟨rest, hbody.symm⟩ h
  · rfl

include hblanks

theorem isMarked_append_blanks (line : Text) : isMarked (line ++ blanks) = isMarked line := by
  have hbegins : Printed.asterisks <+: line ++ blanks ↔ Printed.asterisks <+: line :=
    Text.prefix_append_blanks hblanks (by decide)
  by_cases h : Printed.asterisks <+: line
  · obtain ⟨rest, rfl⟩ := h
    rw [List.append_assoc, isMarked_asterisks, isMarked_asterisks]
    cases rest with
    | nil =>
      have hstar : blanks.head? ≠ some '*' := fun h =>
        absurd (hblanks '*' (List.mem_of_mem_head? h)) (by decide)
      exact bne_iff_ne.2 hstar
    | cons c rest => rfl
  · rw [isMarked_of_unprefixed h, isMarked_of_unprefixed fun h' => h (hbegins.1 h')]

theorem body_append_blanks (line : Text) : body (line ++ blanks) = body line ++ blanks := by
  rw [body, body, isMarked_append_blanks hblanks]
  split
  · rename_i hmarked
    have hbegins : Printed.asterisks <+: line := by
      by_contra h
      simp [isMarked_of_unprefixed h] at hmarked
    exact List.drop_append_of_le_length hbegins.length_le
  · rfl

/-- Blanks at the end of a line directive do not count. -/
theorem directive?_append_blanks (body : Text) : directive? (body ++ blanks) = directive? body := by
  have hstrip := Text.stripLeft_append_blanks hblanks body
  by_cases hword : ['L', 'I', 'N', 'E'] <+: body.stripLeft
  · obtain ⟨rest, hrest⟩ := hword
    -- Behind the word, the numeral ends where the blanks begin, or before.
    have hnumeral : (Text.stripLeft (rest ++ blanks)).takeWhile isDecimalDigit =
        (Text.stripLeft rest).takeWhile isDecimalDigit := by
      rw [Text.stripLeft_append_blanks hblanks]
      split
      · rename_i hnone
        rw [hnone]
      · exact Text.takeWhile_append_blanks hblanks (fun _ => isDecimalDigit_of_isBlank) _
    rw [if_neg (by simp [← hrest]), ← hrest, List.append_assoc] at hstrip
    rw [directive?, directive?, hstrip, ← hrest]
    simp only [List.cons_append, List.nil_append, hnumeral]
    cases rest with
    | nil => simp [Text.stripLeft]
    | cons c rest => rfl
  · rw [directive?_of_unprefixed hword, directive?_of_unprefixed]
    rw [hstrip]
    split
    · simp
    · rwa [Text.prefix_append_blanks hblanks (by decide)]

/-- Blanks at the end of a code message do not count. -/
theorem codeMessage?_append_blanks (body : Text) :
    codeMessage? (body ++ blanks) = codeMessage? body := by
  have hdigit : ∀ c, isBlank c → isDecimalDigit c = false := fun _ => isDecimalDigit_of_isBlank
  have hhead : ∀ rest : Text, (rest ++ blanks).head?.all isBlank = rest.head?.all isBlank := by
    intro rest
    cases rest with
    | nil =>
      cases blanks with
      | nil => rfl
      | cons c later => exact hblanks c List.mem_cons_self
    | cons c later => rfl
  rw [codeMessage?, codeMessage?, Text.takeWhile_append_blanks hblanks hdigit,
    Text.dropWhile_append_blanks hblanks hdigit, Text.strip_append_blanks hblanks, hhead]

/-- Blanks at the end of a line do not make it an echo of a source line. -/
theorem isSourceEcho_append_blanks (line : Text) :
    isSourceEcho (line ++ blanks) = isSourceEcho line := by
  have hstrip := Text.stripLeft_append_blanks hblanks line
  by_cases hnone : Text.stripLeft line = []
  · rw [if_pos hnone] at hstrip
    simp [isSourceEcho, hstrip, hnone]
  rw [if_neg hnone] at hstrip
  have hline : line ≠ [] := by
    rintro rfl
    exact hnone rfl
  rw [isSourceEcho, isSourceEcho, hstrip, List.head?_append_of_ne_nil _ hline,
    List.head?_append_of_ne_nil _ hnone,
    Text.dropWhile_append_blanks hblanks fun _ => isDecimalDigit_of_isBlank]
  generalize List.dropWhile isDecimalDigit (Text.stripLeft line) = rest
  -- Behind the number, blanks at the end count as little as blanks in front of a text.
  have hrest := Text.stripLeft_append_blanks hblanks rest
  by_cases hempty : Text.stripLeft rest = []
  · simp [hrest, hempty]
  · have hgap : (rest ++ blanks).takeWhile isBlank = rest.takeWhile isBlank := by
      rw [List.takeWhile_append, if_neg]
      intro hall
      refine hempty (List.dropWhile_eq_nil_iff.2 fun c hc => ?_)
      rw [← (List.takeWhile_prefix isBlank).eq_of_length hall] at hc
      exact List.mem_takeWhile_imp hc
    simp [hrest, hempty, hgap, List.isEmpty_eq_false_iff.2 hempty]

/-- The kind of a body does not depend on the blanks at its end. -/
theorem ofBody_append_blanks (marked : Bool) (body : Text) :
    ofBody marked (body ++ blanks) = ofBody marked body := by
  have hcode : codeMessage? (if marked then (body ++ blanks).stripLeft else body ++ blanks) =
      codeMessage? (if marked then body.stripLeft else body) := by
    cases marked with
    | false => exact codeMessage?_append_blanks hblanks body
    | true =>
      rw [if_pos rfl, if_pos rfl, Text.stripLeft_append_blanks hblanks]
      split
      · rename_i hnone
        rw [hnone]
      · exact codeMessage?_append_blanks hblanks _
  have hall : (body ++ blanks).all isBlank = body.all isBlank := by
    rw [List.all_append, List.all_eq_true.2 hblanks, Bool.and_true]
  rw [ofBody, ofBody, directive?_append_blanks hblanks, hcode, hall,
    Text.strip_append_blanks hblanks, isSourceEcho_append_blanks hblanks]
  by_cases hnone : body = []
  · subst hnone
    rfl
  · rw [List.head?_append_of_ne_nil _ hnone]

/-- A line is read as the same without the blanks at its end. -/
theorem read_append_blanks (line : Text) : read (line ++ blanks) = read line := by
  rw [read, read, isMarked_append_blanks hblanks, body_append_blanks hblanks, findMarkers,
    markersFrom_append_blanks hblanks, findMarkers, ofBody_append_blanks hblanks]

omit hblanks in

/-- A line is read like the one without the blanks at its end. -/
theorem read_stripRight (line : Text) : read line.stripRight = read line := by
  obtain ⟨blanks, hblanks, hline⟩ := line.exists_stripRight_append
  rw [hline, read_append_blanks hblanks, ← hline]

omit hblanks in

/-- A line of blanks is read as blank. -/
theorem read_of_stripRight_nil {line : Text} (h : line.stripRight = []) : read line = blank := by
  rw [← read_stripRight, h]
  rfl

end ListingLine

/-! ## Scanning -/

namespace Scan

/-- What lines do after a first one depends on how they are scanned only. -/
theorem ofLines_cons_congr {rest later : List ListingLine}
    (h : ∀ current, ofLines current rest = ofLines current later) (current : Option Block)
    (line : ListingLine) : ofLines current (line :: rest) = ofLines current (line :: later) := by
  cases line with
  | directive numeral =>
    cases current with
    | none => exact h none
    | some block =>
      simp only [ofLines]
      cases readNumeral numeral with
      | ok n => exact h _
      | error e => rfl
  | markers | closing => simp only [ofLines, h]
  | blank | codeMessage | continuation => exact h _

/-- Lines are scanned by what is visible of them. -/
theorem ofLines_visible (lines : List Text) (current : Option Block) :
    ofLines current (lines.map ListingLine.read) =
      ofLines current ((Text.visible lines).map ListingLine.read) := by
  induction lines generalizing current with
  | nil => rfl
  | cons line rest ih =>
    rw [Text.visible, List.map_cons, List.map_cons]
    by_cases hnone : line.stripRight = []
    · rw [List.filter_cons_of_neg (by simpa using hnone), ListingLine.read_of_stripRight_nil hnone]
      exact ih current
    · rw [List.filter_cons_of_pos (by simpa using hnone), List.map_cons,
        ListingLine.read_stripRight]
      exact ofLines_cons_congr ih current _

/-- A listing is scanned by its visible lines. -/
theorem ofText_eq (text : Text) :
    ofText text = ofLines none (text.visibleLines.map ListingLine.read) :=
  ofLines_visible text.lines none

end Scan

/-! ## Listings -/

/-- All layouts of a listing are read alike, and the same is said of blocks without records. -/
theorem readListing_of_relaid {a b : Text} (h : Relation.EqvGen Text.Relaid a b) :
    readListing a = readListing b ∧ listingFaults a = listingFaults b := by
  have hscan : Scan.ofText a = Scan.ofText b := by
    rw [Scan.ofText_eq, Scan.ofText_eq, Text.visibleLines_of_relaid h]
  exact ⟨by rw [readListing, readListing, hscan], by rw [listingFaults, listingFaults, hscan]⟩

/-- A line of blanks in a block, a blank behind its line directive, and other line ends. -/
theorem readListing_of_relaid_block :
    let a : Text := "****    $140\n**** LINE 3\n140\n  unknown symbol\nx".toList
    let b : Text := "****    $140\r\n\t \r\n**** LINE 3 \r\n140\r\n  unknown symbol\r\nx\r\n".toList
    Relation.EqvGen Text.Relaid a b ∧ readListing a = readListing b ∧
      readListing a = .ok [⟨"140".toList, 6, 3, "unknown symbol".toList⟩] := by
  intro a b
  let markers : Text := "****    $140\n".toList
  let directive : Text := "**** LINE 3".toList
  let messages : Text := "\n140\n  unknown symbol\nx".toList
  have hblank : Text.Relaid (markers ++ (directive ++ messages))
      (markers ++ "\t \n".toList ++ (directive ++ messages)) :=
    .blankLines _ _ _ (by decide) (List.all_eq_true.1 (by decide)) (by decide)
  have hpadding : Text.Relaid (markers ++ "\t \n".toList ++ directive ++ messages)
      (markers ++ "\t \n".toList ++ directive ++ [' '] ++ messages) :=
    .padding _ _ _ (List.all_eq_true.1 (by decide)) (by decide)
  have hends := Text.Relaid.lineEnds (markers ++ "\t \n".toList ++ directive ++ [' '] ++ messages)
    "\r\n".toList (by decide)
  have hrelaid : Relation.EqvGen Text.Relaid a b := by
    refine .trans _ _ _ (.rel _ _ hblank) (.trans _ _ _ (.rel _ _ ?_) (.rel _ _ hends))
    rw [← List.append_assoc]
    exact hpadding
  exact ⟨hrelaid, (readListing_of_relaid hrelaid).1, by decide +kernel⟩

end LiveCheck
