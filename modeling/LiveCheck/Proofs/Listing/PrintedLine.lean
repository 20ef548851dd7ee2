import LiveCheck.Proofs.Listing.Printed
import LiveCheck.Listing.Line

/-!
# Reading printed lines

Every line of a printed block is read as what it was printed for, whatever its texts look like:
the groups of codes (`Block.read_printMarkers`), the line of the source (`Block.read_printLine`),
the remarks (`Remark.read_print`) and the codes of the sections (`Section.read_printCode`).
-/

namespace LiveCheck

namespace ListingLine

/-! ## Marked and unmarked lines -/

theorem isMarked_asterisks (rest : Text) :
    isMarked (Printed.asterisks ++ rest) = (rest.head? != some '*') := rfl

theorem read_of_not_marked {line : Text} (h : isMarked line = false) :
    read line = ofBody false line := by
  rw [read, body, h]
  rfl

theorem read_of_markers {line : Text} (h : isMarked line) (hne : findMarkers line ≠ []) :
    read line = markers (findMarkers line) := by
  rw [read, if_pos h]
  exact if_neg (by simpa using hne)

/-- A marked line that names no code is read by what follows the asterisks. -/
theorem read_asterisks {rest : Text} (hhead : rest.head? ≠ some '*') (h : namesCode rest = false) :
    read (Printed.asterisks ++ rest) = ofBody true rest := by
  have hmarked : isMarked (Printed.asterisks ++ rest) = true := by
    rw [isMarked_asterisks]
    simpa using hhead
  have hfound : findMarkers (Printed.asterisks ++ rest) = [] :=
    markersFrom_eq_nil ((namesCode_append (by decide) rest).trans h) 0
  rw [read, body, hmarked, if_pos rfl, hfound]
  rfl

/-! ## Bodies -/

theorem ofBody_of_directive {body numeral : Text} (h : directive? body = some numeral)
    (marked : Bool) : ofBody marked body = directive numeral := by
  rw [ofBody, h]

theorem directive?_of_head {body : Text} (h : (Text.stripLeft body).head? ≠ some 'L') :
    directive? body = none := by
  rw [directive?]
  split
  · next hbody => simp [hbody] at h
  · rfl

/-- A code with a text after a blank is a code message. -/
theorem codeMessage?_append {code rest : Text} (hne : code ≠ [])
    (hcode : ∀ c ∈ code, isDecimalDigit c) {blank : Char} (hblank : isBlank blank) :
    codeMessage? (code ++ blank :: rest) = some (code, Text.strip (blank :: rest)) := by
  have hstop : (blank :: rest).head?.any isDecimalDigit = false := isDecimalDigit_of_isBlank hblank
  rw [codeMessage?, Text.takeWhile_append hcode hstop, Text.dropWhile_append hcode hstop, if_pos]
  simpa [hblank] using hne

theorem codeMessage?_of_head {body : Text} (h : body.head?.any isDecimalDigit = false) :
    codeMessage? body = none := by
  rw [codeMessage?, Text.takeWhile_of_head h]
  rfl

end ListingLine

namespace Printed

open ListingLine

theorem isBlank_of_mem_spaces {n : Nat} {c : Char} (h : c ∈ spaces n) : isBlank c := by
  rw [(List.mem_replicate.1 h).2]
  rfl

/-! ## Remarks -/

theorem Remark.stripLeft_print (r : Remark) : Text.stripLeft r.print = r.text := by
  rw [Remark.print, Text.stripLeft_append fun _ => isBlank_of_mem_spaces,
    Text.stripLeft_of_head (Text.head_of_strip r.stripped)]

/-- A remark is no line directive. -/
theorem Remark.directive?_print (r : Remark) : directive? r.print = none := by
  have hnot := r.not_directive
  rw [directive?, r.stripLeft_print]
  split
  · next rest htext =>
    rw [htext, beginsDirective] at hnot
    -- A remark that is read as a directive begins like one.
    refine if_neg fun hboth => hnot ?_
    obtain ⟨hblank, hnumeral⟩ := Bool.and_eq_true_iff.1 hboth
    rw [hblank, Bool.true_and]
    cases hrest : Text.stripLeft rest with
    | nil => simp [hrest] at hnumeral
    | cons c later =>
      by_cases hc : isDecimalDigit c
      · exact hc
      · simp [hrest, hc] at hnumeral
  · rfl

/-- A remark is no echo of a source line. -/
theorem Remark.isSourceEcho_print (r : Remark) : isSourceEcho r.print = false := by
  have hnot := r.not_echo
  rw [beginsEcho, Bool.not_eq_true] at hnot
  rw [isSourceEcho, r.stripLeft_print, Bool.and_assoc, Bool.and_assoc,
    ← Bool.and_assoc (r.text.head?.any _), hnot, Bool.false_and, Bool.and_false]

/-- A remark is read as such. -/
theorem Remark.read_print (r : Remark) : read r.print = .continuation r.text := by
  obtain ⟨c, rest, htext⟩ := List.exists_cons_of_ne_nil r.nonempty
  have hc : isBlank c = false := by simpa [htext] using Text.head_of_strip r.stripped
  have hhead : r.print.head? = some ' ' := rfl
  have hcode : codeMessage? r.print = none := by
    refine codeMessage?_of_head ?_
    rw [hhead]
    rfl
  have hall : r.print.all isBlank = false := by simp [Remark.print, htext, hc]
  have hstrip : Text.strip r.print = r.text := by
    rw [Remark.print, Text.strip_append fun _ => isBlank_of_mem_spaces, r.stripped]
  have hspace : isBlank ' ' = true := rfl
  rw [read_of_not_marked rfl]
  simp [ofBody, r.directive?_print, hcode, hall, hhead, hspace, r.isSourceEcho_print, hstrip]

/-! ## Code lines -/

namespace Section

variable (s : Section)

theorem heading_eq_cons :
    ∃ c rest, isDecimalDigit c ∧ s.heading = c :: rest := by
  obtain ⟨c, digits, hdigits⟩ := List.exists_cons_of_ne_nil s.code.nonempty
  refine ⟨c, digits ++ spaces 2 ++ s.first.text, s.code.decimal c ?_, ?_⟩
  · rw [hdigits]
    exact List.mem_cons_self
  · rw [heading, hdigits, List.cons_append, List.cons_append]

theorem head?_heading {c : Char} (hc : isDecimalDigit c = false) : s.heading.head? ≠ some c := by
  obtain ⟨d, rest, hd, hheading⟩ := s.heading_eq_cons
  rw [hheading]
  exact fun h => ne_of_isDecimalDigit hd hc (Option.some.inj h)

theorem stripLeft_heading : Text.stripLeft s.heading = s.heading := by
  obtain ⟨d, rest, hd, hheading⟩ := s.heading_eq_cons
  rw [hheading]
  exact Text.stripLeft_of_head (isBlank_of_isDecimalDigit hd)

/-- The heading of a section is a code message. -/
theorem codeMessage?_heading :
    codeMessage? s.heading = some (s.code.digits, s.first.text) := by
  have hspaces : s.heading = s.code.digits ++ ' ' :: ([' '] ++ s.first.text) := by
    simp [heading, spaces, List.replicate]
  have hstrip : Text.strip (spaces 2 ++ s.first.text) = s.first.text := by
    rw [Text.strip_append fun _ => isBlank_of_mem_spaces, s.first.stripped]
  rw [hspaces, codeMessage?_append s.code.nonempty s.code.decimal rfl]
  exact congrArg (fun text => some (s.code.digits, text)) hstrip

/-- The heading of a section has no asterisks of its own. -/
theorem isMarked_heading : isMarked s.heading = false := by
  have hhead : s.heading.head? ≠ some '*' := s.head?_heading (by decide)
  unfold isMarked
  split
  · next hheading => simp [hheading] at hhead
  · rfl

theorem namesCode_heading (h : s.marked) : namesCode (spaces 2 ++ s.heading) = false := by
  have hdigits : '$' ∉ s.code.digits := fun h => absurd (s.code.decimal _ h) (by decide)
  rw [namesCode_append (by decide), heading, namesCode_append (by simp [hdigits, spaces])]
  exact Bool.eq_false_iff.2 (s.unambiguous h)

/-- The line of a code is read as such, whether it is marked or not. -/
theorem read_printCode : read s.printCode = .codeMessage s.code.digits s.first.text := by
  have hhead : s.heading.head? ≠ some 'L' := s.head?_heading (by decide)
  cases hmarked : s.marked with
  | false =>
    have hprint : s.printCode = s.heading := by
      rw [printCode, hmarked]
      rfl
    rw [hprint, read_of_not_marked s.isMarked_heading, ofBody,
      directive?_of_head (by rwa [s.stripLeft_heading])]
    simp [s.codeMessage?_heading]
  | true =>
    have hprint : s.printCode = asterisks ++ (spaces 2 ++ s.heading) := by
      rw [printCode, hmarked, if_pos rfl, List.append_assoc]
    have hstrip : Text.stripLeft (spaces 2 ++ s.heading) = s.heading := by
      rw [Text.stripLeft_append fun _ => isBlank_of_mem_spaces, s.stripLeft_heading]
    rw [hprint, read_asterisks (by simp [spaces, List.replicate]) (s.namesCode_heading hmarked),
      ofBody, directive?_of_head (by rwa [hstrip])]
    simp [hstrip, s.codeMessage?_heading]

end Section

/-! ## Line directives -/

/-- The number of a line is read back. -/
theorem readNumeral_decimal (b : Block) : readNumeral (decimal b.line) = .ok b.line := by
  have hdecimal : decimal b.line = Nat.toDigits 10 b.line := if_neg (by omega)
  rw [hdecimal, readNumeral, if_pos b.line_short, numeralValue_toDigits]

theorem isDecimalDigit_of_mem_decimal {n : Nat} {c : Char} (h : c ∈ decimal n) :
    isDecimalDigit c := by
  rw [decimal, if_neg (by omega)] at h
  exact isDecimalDigit_of_isDigit (Nat.isDigit_of_mem_toDigits (by decide) (by decide) h)

theorem decimal_ne_nil (n : Nat) : decimal n ≠ [] := by
  rw [decimal, if_neg (by omega)]
  exact Nat.toDigits_ne_nil

/-- A number after the word is a line directive. -/
theorem directive?_of_digits {numeral : Text} (hne : numeral ≠ [])
    (h : ∀ c ∈ numeral, isDecimalDigit c) :
    directive? ("  LINE ".toList ++ numeral) = some numeral := by
  obtain ⟨c, digits, rfl⟩ := List.exists_cons_of_ne_nil hne
  have hhead : (c :: digits).head?.any isBlank = false :=
    isBlank_of_isDecimalDigit (h c List.mem_cons_self)
  have hstrip : Text.stripLeft (' ' :: c :: digits) = c :: digits := Text.stripLeft_of_head hhead
  have hnumeral : (c :: digits).takeWhile isDecimalDigit = c :: digits := by
    rw [← List.append_nil (c :: digits), Text.takeWhile_append h rfl, List.append_nil]
  have hLINE : Text.stripLeft ("  LINE ".toList ++ c :: digits) =
      'L' :: 'I' :: 'N' :: 'E' :: ' ' :: c :: digits := rfl
  rw [directive?, hLINE]
  simp only [hstrip, hnumeral]
  rfl

/-- The line of the source is read as such. -/
theorem Block.read_printLine (b : Block) : read b.printLine = .directive (decimal b.line) := by
  have hdigits : ∀ c ∈ decimal b.line, isDecimalDigit c := fun _ => isDecimalDigit_of_mem_decimal
  have hdollar : '$' ∉ decimal b.line := fun h => absurd (hdigits _ h) (by decide)
  -- There is no dollar sign, so the line is not one of markers.
  have hnames : namesCode ("  LINE ".toList ++ decimal b.line) = false := by
    rw [← List.append_nil (decimal b.line), ← List.append_assoc, namesCode_append]
    · rfl
    · simp [hdollar]
  rw [printLine, List.append_assoc, read_asterisks (by simp) hnames]
  exact ofBody_of_directive (directive?_of_digits (decimal_ne_nil b.line) hdigits) true

/-! ## Marker lines -/

namespace Group

variable (g : Group)

theorem head?_print (rest : Text) : (g.print ++ rest).head? = some ' ' := by
  obtain ⟨gap, hgap⟩ := Nat.exists_eq_succ_of_ne_zero (Nat.ne_of_gt g.gap_pos)
  simp [print, spaces, hgap, List.replicate_succ]

theorem codes_decimal {code : Text} (h : code ∈ g.codes.map (·.digits)) :
    code ≠ [] ∧ ∀ c ∈ code, isDecimalDigit c := by
  obtain ⟨code, -, rfl⟩ := List.mem_map.1 h
  exact ⟨code.nonempty, code.decimal⟩

/-- The markers of a printed group are those of its codes, all in the column of the group. -/
theorem markersFrom_print {rest : Text} (h : EndsCodes rest) (offset : Nat) :
    markersFrom offset (g.print ++ rest) =
      g.codes.map (fun code => ⟨code.digits, (offset + g.gap : Nat) - markerShift⟩) ++
        markersFrom (offset + g.print.length) rest := by
  let list := Text.join [','] (g.codes.map (·.digits))
  have hprint : g.print ++ rest = spaces g.gap ++ '$' :: (list ++ rest) := by
    rw [print, List.append_assoc, List.cons_append]
  have hlength : offset + g.print.length = offset + g.gap + 1 + list.length := by
    simp only [print, spaces, List.length_append, List.length_replicate, List.length_cons, list]
    omega
  have hcodes : leadingCodes (list ++ rest) = g.codes.map (·.digits) :=
    leadingCodes_join (fun _ => g.codes_decimal) (by simpa using g.nonempty) h
  have hdollar : '$' ∉ list := by
    intro h
    rcases Text.mem_join h with h | ⟨code, hcode, h⟩
    · exact absurd h (by decide)
    · exact absurd ((g.codes_decimal hcode).2 _ h) (by decide)
  rw [hprint, hlength, markersFrom_append (by simp [spaces]), markersFrom, if_pos rfl, hcodes,
    List.map_map, markersFrom_append hdollar, spaces, List.length_replicate]
  rfl

end Group

/-- The markers of printed groups are read back with their columns. -/
theorem markersFrom_groups (groups : List Group) (offset : Nat) :
    markersFrom offset (groups.flatMap Group.print) = markersAt offset groups := by
  induction groups generalizing offset with
  | nil => rfl
  | cons g groups ih =>
    -- The blank in front of the next group ends the codes of this one.
    have hends : EndsCodes (groups.flatMap Group.print) := by
      intro c hc
      cases groups with
      | nil => simp at hc
      | cons next later =>
        rw [List.flatMap_cons, next.head?_print] at hc
        obtain rfl := Option.some.inj hc
        decide
    rw [List.flatMap_cons, g.markersFrom_print hends, ih, markersAt]

theorem markersAt_ne_nil {groups : List Group} (h : groups ≠ []) (offset : Nat) :
    markersAt offset groups ≠ [] := by
  obtain ⟨g, rest, rfl⟩ := List.exists_cons_of_ne_nil h
  simp [markersAt, g.nonempty]

/-- The groups of codes are read as such. -/
theorem Block.read_printMarkers (b : Block) : read b.printMarkers = .markers b.markers := by
  have hfound : findMarkers b.printMarkers = b.markers :=
    (markersFrom_append (by decide) 0 _).trans (markersFrom_groups b.groups _)
  have hmarked : isMarked b.printMarkers = true := by
    obtain ⟨g, rest, hgroups⟩ := List.exists_cons_of_ne_nil b.nonempty
    rw [printMarkers, isMarked_asterisks, hgroups, List.flatMap_cons, g.head?_print]
    decide
  rw [read_of_markers hmarked (hfound ▸ markersAt_ne_nil b.nonempty _), hfound]

end Printed

end LiveCheck
