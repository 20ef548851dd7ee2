import LiveCheck.Proofs.Listing.Block
import LiveCheck.Proofs.Listing.PrintedLine

/-!
# Reading back printed listings

The lines of a printed block call for exactly what was printed (`Block.call?_body`), so the block
that is read holds the texts that were printed for each of its codes (`Block.textsFor_calls`) and
turns into its records (`Block.records_collected`). A printed listing is read back
(`readListing_print`).
-/

namespace LiveCheck.Printed

open ListingLine
open LiveCheck.Block (Call textsFor)

/-! ## Lines of a printed listing -/

theorem unbroken_spaces (n : Nat) : (spaces n).Unbroken := by
  intro c hc
  rw [(List.mem_replicate.1 hc).2]
  decide

theorem unbroken_of_digits {digits : Text} (h : ∀ c ∈ digits, isDecimalDigit c) :
    digits.Unbroken := fun c hc => by
  rw [isLineBreak_of_isDecimalDigit (h c hc)]
  exact Bool.false_ne_true

theorem Group.unbroken_print (g : Group) : g.print.Unbroken := by
  refine (unbroken_spaces g.gap).append fun c hc => ?_
  rcases List.mem_cons.1 hc with rfl | hc
  · decide
  rcases Text.mem_join hc with hc | ⟨code, hcode, hc⟩
  · obtain rfl := List.mem_singleton.1 hc
    decide
  · exact unbroken_of_digits (g.codes_decimal hcode).2 c hc

theorem Remark.unbroken_print (r : Remark) : r.print.Unbroken :=
  (unbroken_spaces 5).append r.unbroken

theorem Section.unbroken_printCode (s : Section) : s.printCode.Unbroken := by
  have hheading : s.heading.Unbroken :=
    ((unbroken_of_digits s.code.decimal).append (unbroken_spaces 2)).append s.first.unbroken
  rw [printCode]
  split
  · exact Text.Unbroken.append (by decide) hheading
  · exact hheading

theorem Block.unbroken_printMarkers (b : Block) : b.printMarkers.Unbroken := by
  refine Text.Unbroken.append (by decide) fun c hc => ?_
  obtain ⟨g, -, hc⟩ := List.mem_flatMap.1 hc
  exact g.unbroken_print c hc

theorem Block.unbroken_printLine (b : Block) : b.printLine.Unbroken :=
  Text.Unbroken.append (by decide) (unbroken_of_digits fun _ => isDecimalDigit_of_mem_decimal)

/-- A printed block has no line breaks but those between its lines. -/
theorem Block.unbroken_print (b : Block) {line : Text} (h : line ∈ b.print) : line.Unbroken := by
  have hremark : ∀ {remarks : List Remark}, line ∈ remarks.map Remark.print → line.Unbroken := by
    intro remarks h
    obtain ⟨r, -, rfl⟩ := List.mem_map.1 h
    exact r.unbroken_print
  rcases List.mem_append.1 h with h | h
  · rcases List.mem_cons.1 h with rfl | h
    · exact b.unbroken_printMarkers
    rcases List.mem_cons.1 h with rfl | h
    · exact b.unbroken_printLine
    · exact hremark h
  · obtain ⟨s, -, h⟩ := List.mem_flatMap.1 h
    rcases List.mem_cons.1 h with rfl | h
    · exact s.unbroken_printCode
    · exact hremark h

/-- The lines of printed blocks are those that were printed. -/
theorem lines_print (blocks : List Block) :
    Text.lines (print blocks) = blocks.flatMap Block.print := by
  refine Text.lines_flatMap fun line hline => ?_
  obtain ⟨b, -, hb⟩ := List.mem_flatMap.1 hline
  exact b.unbroken_print hb

/-! ## What a printed block calls for -/

/-- What a remark calls for. -/
def Remark.call (r : Remark) : Call := .addContinuation r.text

/-- What a section calls for. -/
def Section.calls (s : Section) : List Call :=
  .switchCode s.code.digits s.first.text :: s.more.map Remark.call

/-- The lines of a block after its marker line. -/
def Block.body (b : Block) : List Text :=
  b.printLine :: b.context.map Remark.print ++ b.sections.flatMap Section.print

/-- What the lines after its marker line call for. -/
def Block.calls (b : Block) : List Call :=
  .setLine b.line :: b.context.map Remark.call ++ b.sections.flatMap Section.calls

/-- The block that is read. -/
def Block.collected (b : Block) : LiveCheck.Block :=
  (LiveCheck.Block.ofMarkers b.markers).calls b.calls

/-- A remark is read as a call that adds its text. -/
theorem call?_remarks (remarks : List Remark) :
    (remarks.map Remark.print).map (fun line => (read line).call?) =
      (remarks.map Remark.call).map some := by
  rw [List.map_map, List.map_map]
  refine List.map_congr_left fun r _ => ?_
  rw [Function.comp, r.read_print]
  rfl

/-- A section is read as the calls that it stands for. -/
theorem Section.call?_print (s : Section) :
    s.print.map (fun line => (read line).call?) = s.calls.map some := by
  rw [print, List.map_cons, call?_remarks, s.read_printCode]
  rfl

/-- The lines of a block after the markers are read as the calls that it stands for. -/
theorem Block.call?_body (b : Block) : (b.body.map read).map call? = b.calls.map some := by
  have hsections : (b.sections.flatMap Section.print).map (fun line => (read line).call?) =
      (b.sections.flatMap Section.calls).map some := by
    rw [List.map_flatMap, List.map_flatMap]
    exact List.flatMap_congr fun s _ => s.call?_print
  have hline : (read b.printLine).call? = some (.setLine b.line) := by
    rw [b.read_printLine, call?, readNumeral_decimal]
    rfl
  rw [List.map_map, body, List.cons_append, List.map_cons, List.map_append]
  exact congrArg₂ List.cons hline
    ((congrArg₂ (· ++ ·) (call?_remarks b.context) hsections).trans List.map_append.symm)

/-- Scanning a printed listing collects its blocks. -/
theorem ofLines_print (blocks : List Block) (current : Option LiveCheck.Block) :
    Scan.ofLines current ((blocks.flatMap Block.print).map read) =
      ⟨current.toList ++ blocks.map Block.collected, none⟩ := by
  induction blocks generalizing current with
  | nil => simp [Scan.ofLines]
  | cons b rest ih =>
    have hlines : ((b :: rest).flatMap Block.print).map read = .markers b.markers ::
        (b.body.map read ++ (rest.flatMap Block.print).map read) := by
      rw [List.flatMap_cons, List.map_append, ← b.read_printMarkers]
      rfl
    rw [hlines, Scan.ofLines, Scan.ofLines_calls b.call?_body, ih]
    rfl

/-! ## The texts of a block -/

theorem textsFor_remarks (code : Text) (current : Option Text) (remarks : List Remark)
    (rest : List Call) : textsFor code current (remarks.map Remark.call ++ rest) =
      (if current = none ∨ current = some code then remarks.map (·.text) else []) ++
        textsFor code current rest := by
  induction remarks with
  | nil => simp
  | cons r remarks ih =>
    rw [List.map_cons, List.cons_append, Remark.call, textsFor, ih]
    by_cases h : current = none ∨ current = some code <;> simp [h, r.nonempty]

/-- The texts for a code are those of its sections, in their order. -/
theorem textsFor_sections (code : Text) (current : Option Text) (sections : List Section) :
    textsFor code current (sections.flatMap Section.calls) =
      (sections.filter fun s => s.code.digits = code).flatMap Section.texts := by
  induction sections generalizing current with
  | nil => rfl
  | cons s sections ih =>
    rw [List.flatMap_cons, Section.calls, List.cons_append, textsFor, textsFor_remarks, ih]
    -- Remarks of a section belong to the code that it names.
    by_cases hcode : s.code.digits = code
    · by_cases hfirst : s.first.text = [] <;> simp [hcode, hfirst, Section.texts]
    · simp [hcode]

/-- A block holds the texts for each code that were printed for it. -/
theorem Block.textsFor_calls (b : Block) (code : Text) :
    textsFor code none b.calls = b.texts code := by
  rw [calls, List.cons_append, textsFor, textsFor_remarks, if_pos (.inl rfl), textsFor_sections,
    texts]

/-- The block that is read has the records of the block that was printed. -/
theorem Block.records_collected (b : Block) : b.collected.records = .ok b.records := by
  have hline : (1 : Int) ≤ b.line := by exact_mod_cast b.line_pos
  have hgiven : LiveCheck.Block.lineGiven b.calls = some (b.line : Int) := rfl
  rw [collected, LiveCheck.Block.records_calls hgiven hline]
  simp only [b.textsFor_calls]
  rfl

/-! ## The listing -/

/-- The lines of printed blocks are read back, whichever way they are put together to a text. -/
theorem readListing_of_lines {text : Text} {blocks : List Block}
    (h : text.lines = blocks.flatMap Block.print) :
    readListing text = .ok (sortRecords (blocks.flatMap Block.records)) := by
  have hscan : Scan.ofText text = ⟨blocks.map Block.collected, none⟩ := by
    rw [Scan.ofText, h, ofLines_print]
    rfl
  have hrecords : (Scan.ofText text).records = blocks.flatMap Block.records := by
    rw [hscan, Scan.records, List.flatMap_map]
    refine List.flatMap_congr fun b _ => ?_
    rw [b.records_collected]
    rfl
  rw [readListing, hrecords, hscan]

/-- A listing of printed blocks has the records of the blocks, sorted by their places. -/
theorem readListing_print (blocks : List Block) :
    readListing (print blocks) = .ok (sortRecords (blocks.flatMap Block.records)) :=
  readListing_of_lines (lines_print blocks)

/-- A block whose two codes share a dollar sign, and whose section is about the first one. -/
example :
    let unknown : Code := ⟨"140".toList, by decide, List.all_eq_true.1 rfl⟩
    let other : Code := ⟨"8".toList, by decide, List.all_eq_true.1 rfl⟩
    let near : Phrase := ⟨"near x".toList, by decide, by decide⟩
    let symbol : Phrase := ⟨"Unknown symbol".toList, by decide, by decide⟩
    let block : Block :=
      { groups := [⟨20, [unknown, other], by decide, by decide⟩]
        line := 12
        context := [⟨near, by decide, by decide, by decide⟩]
        sections := [⟨unknown, true, symbol, [], by decide⟩]
        nonempty := by decide
        line_pos := by decide
        line_short := by decide }
    print [block] = ("****                    $140,8\n****  LINE 12\n     near x\n" ++
      "****  140  Unknown symbol\n").toList ∧
    readListing (print [block]) = .ok
      [⟨"140".toList, 22, 12, "near x Unknown symbol".toList⟩,
        ⟨"8".toList, 22, 12, "near x".toList⟩] := by
  cbv

end LiveCheck.Printed
