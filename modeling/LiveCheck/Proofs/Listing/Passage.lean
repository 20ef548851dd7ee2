import LiveCheck.Proofs.Listing.Append
import LiveCheck.Proofs.Listing.Block
import LiveCheck.Proofs.Listing.Message
import LiveCheck.Proofs.Listing.PrintedLine

/-!
# The codes of a listing

A *passage* of a listing is a line that opens an error block, with the lines up to the next one that
opens a block or closes it (`Passage.ofLines`). The first line directive of a passage tells the line
of the source, and every code of the passage is placed on that line (`Passage.places`).

The records of a listing are those of its passages, no more and no less, sorted by their places,
with the records of one place in the order of the listing (`readListing_passages`).
-/

namespace LiveCheck

namespace ListingLine

/-! ## Lines that open and close blocks -/

/-- The line opens an error block. -/
def Opens (line : Text) : Prop := isMarked line ∧ findMarkers line ≠ []

/-- The line closes the error block that is open: it is the echo of a source line, or text that is
    neither marked nor indented, and neither a line directive nor a code message. -/
def Closes (line : Text) : Prop :=
  isSourceEcho line ∨ (¬isMarked line ∧ ¬line.head?.any isBlank ∧ ¬line.all isBlank ∧
    directive? line = none ∧ codeMessage? line = none)

instance (line : Text) : Decidable (Opens line) := inferInstanceAs (Decidable (_ ∧ _))

instance (line : Text) : Decidable (Closes line) := inferInstanceAs (Decidable (_ ∨ _))

/-- An open block goes on with the line. -/
def continues (line : Text) : Bool := ¬Opens line ∧ ¬Closes line

/-- The echo of a source line is indented, and its first character that is no blank is a digit. -/
theorem echo_cases {line : Text} (h : isSourceEcho line) :
    line.head?.any isBlank ∧ (Text.stripLeft line).head?.any isDecimalDigit := by
  simp only [isSourceEcho, Bool.and_eq_true] at h
  exact h.1.1

theorem not_marked_of_indented {line : Text} (h : line.head?.any isBlank) :
    isMarked line = false := by
  rw [isMarked.eq_2]
  rintro rest rfl
  have hblank : isBlank '*' = true := h
  exact absurd hblank (by decide)

/-- No block goes on with a line that opens or closes one, and with every other line it does. -/
theorem boundary_iff_opens_or_closes (line : Text) : Boundary line ↔ Opens line ∨ Closes line := by
  refine or_congr_right ⟨?_, ?_⟩
  · rintro ⟨hmarked, hblank, hdirective, hcode, hindent | hecho⟩
    · exact .inr ⟨hmarked, hindent, hblank, hdirective, hcode⟩
    · exact .inl hecho
  · rintro (hecho | ⟨hmarked, hindent, hblank, hdirective, hcode⟩)
    · obtain ⟨hindent, hdigit⟩ := echo_cases hecho
      obtain ⟨c, hc, hdigit⟩ := (Option.any_eq_true _ _).1 hdigit
      obtain ⟨rest, hrest⟩ := List.head?_eq_some_iff.1 hc
      refine ⟨by simp [not_marked_of_indented hindent], fun hall => ?_, directive?_of_head ?_,
        codeMessage?_of_head ?_, .inr hecho⟩
      · have hmem : c ∈ Text.stripLeft line := hrest ▸ List.mem_cons_self
        have := List.all_eq_true.1 hall c ((List.dropWhile_sublist isBlank).subset hmem)
        simp [isBlank_of_isDecimalDigit hdigit] at this
      · rw [hc]
        exact fun h => ne_of_isDecimalDigit hdigit (by decide) (Option.some.inj h)
      · cases hhead : line.head? with
        | none => rfl
        | some d =>
          rw [hhead] at hindent
          exact isDecimalDigit_of_isBlank hindent
    · exact ⟨hmarked, hblank, hdirective, hcode, .inl hindent⟩

theorem continues_eq (line : Text) : continues line = !(read line).endsBlock := by
  rw [Bool.eq_iff_iff]
  simp only [continues, decide_eq_true_eq, Bool.not_eq_true', ← not_or,
    ← boundary_iff_opens_or_closes, boundary_iff, Bool.not_eq_true]

theorem read_of_not_opens {line : Text} (h : ¬Opens line) :
    read line = ofBody (isMarked line) (body line) := by
  rw [read]
  refine if_pos ?_
  split
  · simpa [Opens, *] using h
  · rfl

theorem ofBody_ne_markers (marked : Bool) (body : Text) (found : List Marker) :
    ofBody marked body ≠ markers found := by
  rw [ofBody]
  split
  · simp
  split
  · simp
  split
  · simp
  split
  · simp
  split <;> simp

/-- The lines that open blocks are read as such. -/
theorem read_eq_markers_iff {line : Text} {found : List Marker} :
    read line = markers found ↔ Opens line ∧ found = findMarkers line := by
  constructor
  · intro h
    have hopens : Opens line := by
      by_contra hnot
      exact ofBody_ne_markers _ _ _ ((read_of_not_opens hnot).symm.trans h)
    rw [read_of_markers hopens.1 hopens.2] at h
    exact ⟨hopens, (markers.inj h).symm⟩
  · rintro ⟨hopens, rfl⟩
    exact read_of_markers hopens.1 hopens.2

/-- The line directives of an open block are read as such. -/
theorem read_eq_directive_iff {line numeral : Text} (h : ¬Opens line) :
    read line = directive numeral ↔ directive? (body line) = some numeral := by
  rw [read_of_not_opens h, ofBody]
  split
  · rename_i n hn
    rw [hn, directive.injEq, Option.some.injEq]
  · rename_i hnone
    rw [hnone]
    refine iff_of_false ?_ (by simp)
    split
    · simp
    split
    · simp
    split
    · simp
    split <;> simp

theorem body_suffix (line : Text) : body line <:+ line := by
  rw [body]
  split
  · exact List.drop_suffix 4 line
  · exact List.suffix_refl line

/-- A code message is a code and what stands behind it, if anything, after a blank. -/
theorem codeMessage?_eq_some {body code text : Text} (h : codeMessage? body = some (code, text)) :
    ∃ rest : Text, body = code ++ rest ∧ rest.head?.all isBlank ∧ rest.strip = text := by
  rw [codeMessage?] at h
  obtain ⟨hrest, hsome⟩ := Option.ite_none_right_eq_some.1 h
  obtain ⟨rfl, rfl⟩ := Prod.mk.inj (Option.some.inj hsome)
  exact ⟨_, List.takeWhile_append_dropWhile.symm, (Bool.and_eq_true_iff.1 hrest).2, rfl⟩

theorem ofBody_eq_codeMessage {marked : Bool} {body code text : Text}
    (h : ofBody marked body = codeMessage code text) :
    codeMessage? (if marked then body.stripLeft else body) = some (code, text) := by
  rw [ofBody] at h
  split at h
  · cases h
  split at h
  · rename_i hcode
    obtain ⟨rfl, rfl⟩ := codeMessage.inj h
    exact hcode
  split at h
  · cases h
  split at h
  · cases h
  split at h <;> cases h

theorem ofBody_eq_continuation {marked : Bool} {body text : Text}
    (h : ofBody marked body = continuation text) : body.strip = text := by
  rw [ofBody] at h
  split at h
  · cases h
  split at h
  · cases h
  split at h
  · cases h
  split at h
  · exact continuation.inj h
  split at h
  · exact continuation.inj h
  · cases h

theorem not_opens_of_text {line text : Text}
    (h : (∃ code, read line = codeMessage code text) ∨ read line = continuation text) :
    ¬Opens line := by
  intro hopens
  rw [read_of_markers hopens.1 hopens.2] at h
  simp at h

/-- What a line adds to a message is a part of the line, stripped. -/
theorem text_of_read {line text : Text}
    (h : (∃ code, read line = codeMessage code text) ∨ read line = continuation text) :
    ∃ part : Text, part <:+ line ∧ part.strip = text := by
  have hindented : (if isMarked line then (body line).stripLeft else body line) <:+ line := by
    split
    · exact (List.dropWhile_suffix isBlank).trans (body_suffix line)
    · exact body_suffix line
  rw [read_of_not_opens (not_opens_of_text h)] at h
  rcases h with ⟨code, hcode⟩ | hcontinuation
  · obtain ⟨rest, hbody, -, htext⟩ := codeMessage?_eq_some (ofBody_eq_codeMessage hcode)
    exact ⟨rest, (List.suffix_append code rest).trans (hbody ▸ hindented), htext⟩
  · exact ⟨body line, body_suffix line, ofBody_eq_continuation hcontinuation⟩

theorem eq_of_call?_switchCode {line : ListingLine} {code text : Text}
    (h : line.call? = some (.switchCode code text)) : line = codeMessage code text := by
  cases line with
  | directive numeral => obtain ⟨n, -, hn⟩ := Option.map_eq_some_iff.1 h; cases hn
  | codeMessage => cases h; rfl
  | _ => cases h

theorem eq_of_call?_addContinuation {line : ListingLine} {text : Text}
    (h : line.call? = some (.addContinuation text)) : line = continuation text := by
  cases line with
  | directive numeral => obtain ⟨n, -, hn⟩ := Option.map_eq_some_iff.1 h; cases hn
  | continuation => cases h; rfl
  | _ => cases h

/-- What lines call for while a block is open. -/
def calls (lines : List Text) : List Block.Call := lines.filterMap fun line => (read line).call?

/-- A line with which a block goes on is no line that opens one. -/
theorem GoesOn.not_opens {line : Text} (h : (read line).GoesOn) : ¬Opens line := by
  intro hopens
  rw [read_of_markers hopens.1 hopens.2] at h
  simp [GoesOn, call?] at h

/-- The line number that lines give is that of the first line directive. -/
theorem lineGiven_calls {lines : List Text} (h : ∀ line ∈ lines, (read line).GoesOn) :
    Block.lineGiven (calls lines) =
      (lines.findSome? fun line => directive? (body line)).map fun n => (numeralValue n : Int) := by
  induction lines with
  | nil => rfl
  | cons line rest ih =>
    have hline := h line List.mem_cons_self
    have ih := ih fun l hl => h l (List.mem_cons_of_mem _ hl)
    cases hdirective : directive? (body line) with
    | some numeral =>
      have hread := (read_eq_directive_iff hline.not_opens).2 hdirective
      rw [hread] at hline
      -- The numeral can be read, since the block goes on.
      have hvalue : readNumeral numeral = .ok (numeralValue numeral) := by
        rw [readNumeral]
        refine if_pos (by_contra fun hlong => ?_)
        simp [GoesOn, call?, readNumeral, hlong, Except.toOption] at hline
      simp [calls, hread, call?, hvalue, Except.toOption, Block.lineGiven, hdirective]
    | none =>
      have hnot : ∀ numeral, read line ≠ directive numeral := fun numeral hread => by
        simp [(read_eq_directive_iff hline.not_opens).1 hread] at hdirective
      rw [List.findSome?_cons_of_isNone (by simp [hdirective]), ← ih, calls, List.filterMap_cons]
      cases hread : read line with
      | directive numeral => exact absurd hread (hnot numeral)
      | _ => rfl

end ListingLine

/-! ## Passages -/

/-- A line that opens an error block, with the lines that belong to it. -/
structure Passage where
  /-- The markers of the line that opens it. -/
  markers : List Marker
  /-- The lines after that one. -/
  lines : List Text

namespace Passage

open ListingLine

/-- The passages of lines, in order. -/
def ofLines : List Text → List Passage
  | [] => []
  | line :: rest =>
    (if Opens line then [⟨findMarkers line, rest.takeWhile continues⟩] else []) ++ ofLines rest

variable (p : Passage)

/-- The number of the first line directive. -/
def line? : Option Nat := (p.lines.findSome? fun line => directive? (body line)).map numeralValue

/-- The codes of a passage with their columns and the line of the source, if that is a line. -/
def places : List (Text × Int × Int) :=
  match p.line? with
  | some line => if 1 ≤ line then p.markers.map fun m => (m.code, m.column, (line : Int)) else []
  | none => []

/-- The records of a passage: each of its codes with what the lines say about it. -/
def records : List Record :=
  p.places.map fun (code, column, line) =>
    { code, column, line, message := joinMessage (Block.textsFor code none (calls p.lines)) }

/-- The block that is collected from a passage. -/
def block : Block := (Block.ofMarkers p.markers).calls (calls p.lines)

variable {p}

/-- A block has the records of the passage that it was collected from. -/
theorem records_block (h : ∀ line ∈ p.lines, (read line).GoesOn) :
    p.block.records.toOption.getD [] = p.records := by
  -- The line of the block is what its last directive says, as the scan did not stop at it.
  have hgiven : Block.lineGiven (calls p.lines) = p.line?.map fun n : Nat => (n : Int) := by
    rw [lineGiven_calls h, line?, Option.map_map]
    rfl
  cases hline : p.line? with
  | none =>
    have hnone : p.block.line = none := by
      rw [block, Block.line_calls, hgiven, hline]
      rfl
    simp [Block.records, hnone, records, places, hline, Except.toOption]
  | some line =>
    replace hgiven : Block.lineGiven (calls p.lines) = some (line : Int) := by
      rw [hgiven, hline]
      rfl
    by_cases hpos : 1 ≤ line
    · have hrecords : p.block.records = _ := Block.records_calls hgiven (by omega)
      simp [hrecords, records, places, hline, hpos, Except.toOption]
    · have hsome : p.block.line = some (line : Int) := by
        rw [block, Block.line_calls, hgiven]
        rfl
      have hlow : (line : Int) < 1 := by omega
      simp [Block.records, hsome, hlow, records, places, hline, hpos, Except.toOption]

end Passage

/-! ## Scanning -/

namespace Scan

open ListingLine

theorem ofLines_none_of_continues {line : ListingLine} (h : line.endsBlock = false)
    (rest : List ListingLine) : ofLines none (line :: rest) = ofLines none rest := by
  cases line with
  | markers | closing => simp [endsBlock] at h
  | _ => rfl

/-- A line that neither opens nor closes a block stops the scan, or the open block goes on. -/
theorem goesOn_of_continues {line : ListingLine} (h : line.endsBlock = false) {b : Block}
    {rest : List ListingLine} (hstop : (ofLines (some b) (line :: rest)).stoppedAt = none) :
    line.GoesOn := by
  cases line with
  | markers | closing => simp [endsBlock] at h
  | blank => exact .inl rfl
  | directive numeral =>
    cases hread : readNumeral numeral with
    | error e => simp [ofLines, hread] at hstop
    | ok n => exact .inr (by simp [call?, hread, Except.toOption])
  | codeMessage | continuation => exact .inr rfl

/-- A scan of the lines holds the block that was open, with the lines that it went on with, and the
    block of each passage after them. In an open block, each of these lines is one that it goes on
    with. -/
structure Holds (current : Option Block) (lines : List Text) : Prop where
  blocks : (ofLines current (lines.map read)).blocks =
    (current.map (·.calls (calls (lines.takeWhile continues)))).toList ++
      (Passage.ofLines lines).map Passage.block
  open_goesOn : current.isSome → ∀ line ∈ lines.takeWhile continues, (read line).GoesOn
  passages_goOn : ∀ p ∈ Passage.ofLines lines, ∀ line ∈ p.lines, (read line).GoesOn

variable {current : Option Block} {line : Text} {lines : List Text}

/-- No lines leave the block as it was. -/
theorem holds_nil (current : Option Block) : Holds current [] where
  blocks := by cases current <;> rfl
  open_goesOn := fun _ _ h => absurd h List.not_mem_nil
  passages_goOn := fun _ h => absurd h List.not_mem_nil

theorem takeWhile_of_endsBlock (h : (read line).endsBlock = true) (lines : List Text) :
    (line :: lines).takeWhile continues = [] :=
  List.takeWhile_cons_of_neg (by simp [continues_eq, h])

theorem takeWhile_of_continues (h : (read line).endsBlock = false) (lines : List Text) :
    (line :: lines).takeWhile continues = line :: lines.takeWhile continues :=
  List.takeWhile_cons_of_pos (by simp [continues_eq, h])

/-- The passages are those of the lines after one that an open block goes on with. -/
theorem passages_of_continues (h : (read line).endsBlock = false) (lines : List Text) :
    Passage.ofLines (line :: lines) = Passage.ofLines lines := by
  have hopens : ¬Opens line := fun hopens => by
    simp [read_of_markers hopens.1 hopens.2, endsBlock] at h
  rw [Passage.ofLines, if_neg hopens, List.nil_append]

theorem ofLines_goesOn_cons {first : ListingLine} (h : first.GoesOn) (b : Block)
    (rest : List ListingLine) :
    ofLines (some b) (first :: rest) = ofLines (some (b.calls ([first].filterMap call?))) rest :=
  ofLines_goesOn (List.forall_mem_singleton.2 h) b rest

/-- A line that opens a block begins a passage, which goes on with the lines of the new block. -/
theorem Holds.opening (hopens : Opens line)
    (h : Holds (some (.ofMarkers (findMarkers line))) lines) : Holds current (line :: lines) := by
  have hread := read_of_markers hopens.1 hopens.2
  have htake : (line :: lines).takeWhile continues = [] :=
    takeWhile_of_endsBlock (by rw [hread]; rfl) lines
  refine ⟨?_, fun _ _ hmem => absurd (htake ▸ hmem) List.not_mem_nil, fun p hp => ?_⟩
  · rw [List.map_cons, hread, ofLines, after, h.blocks, htake, Passage.ofLines, if_pos hopens]
    cases current <;> rfl
  · rw [Passage.ofLines, if_pos hopens] at hp
    rcases List.mem_cons.1 hp with rfl | hp
    · exact h.open_goesOn rfl
    · exact h.passages_goOn p hp

/-- With a line that closes it, the block that was open is complete. -/
theorem Holds.closing (hread : read line = .closing) (h : Holds none lines) :
    Holds current (line :: lines) := by
  have htake : (line :: lines).takeWhile continues = [] :=
    takeWhile_of_endsBlock (by rw [hread]; rfl) lines
  have hopens : ¬Opens line := fun hopens => by
    simp [read_of_markers hopens.1 hopens.2] at hread
  refine ⟨?_, fun _ _ hmem => absurd (htake ▸ hmem) List.not_mem_nil, fun p hp => ?_⟩
  · rw [List.map_cons, hread, ofLines, after, h.blocks, htake, Passage.ofLines, if_neg hopens]
    cases current <;> rfl
  · rw [Passage.ofLines, if_neg hopens] at hp
    exact h.passages_goOn p hp

/-- Where no block is open, a line that opens none is passed over. -/
theorem Holds.idle (hcontinues : (read line).endsBlock = false) (h : Holds none lines) :
    Holds none (line :: lines) := by
  have hpassages := passages_of_continues hcontinues lines
  refine ⟨?_, by simp, hpassages ▸ h.passages_goOn⟩
  rw [List.map_cons, ofLines_none_of_continues hcontinues, h.blocks, hpassages]
  rfl

/-- An open block goes on with a line that neither opens nor closes one. -/
theorem Holds.goesOn {b : Block} (hcontinues : (read line).endsBlock = false)
    (hgoes : (read line).GoesOn)
    (h : Holds (some (b.calls ([read line].filterMap call?))) lines) :
    Holds (some b) (line :: lines) := by
  have hpassages := passages_of_continues hcontinues lines
  have htake := takeWhile_of_continues hcontinues lines
  -- What the line calls for comes first, and then what the later ones do.
  have hcalls : (b.calls ([read line].filterMap call?)).calls (calls (lines.takeWhile continues)) =
      b.calls (calls (line :: lines.takeWhile continues)) := by
    rw [Block.calls, Block.calls, ← List.foldl_append, calls, ← List.map_singleton,
      List.filterMap_map]
    exact congrArg (List.foldl Block.call b) List.filterMap_append.symm
  refine ⟨?_, fun _ l hl => ?_, hpassages ▸ h.passages_goOn⟩
  · rw [List.map_cons, ofLines_goesOn_cons hgoes, h.blocks, hpassages, htake, Option.map_some,
      hcalls]
    rfl
  · rcases List.mem_cons.1 (htake ▸ hl) with rfl | hl
    · exact hgoes
    · exact h.open_goesOn rfl l hl

/-- A scan that does not stop holds the block that was open and those of the passages. -/
theorem holds_of_not_stopped (hstop : (ofLines current (lines.map read)).stoppedAt = none) :
    Holds current lines := by
  -- The induction is on the lines, for every block that may be open in front of them.
  induction lines generalizing current with
  | nil => exact holds_nil current
  | cons line rest ih =>
    rw [List.map_cons] at hstop
    cases hends : (read line).endsBlock with
    | true =>
      cases hread : read line with
      | markers found =>
        obtain ⟨hopens, rfl⟩ := read_eq_markers_iff.1 hread
        exact .opening hopens (ih (by rwa [hread] at hstop))
      | closing => exact .closing hread (ih (by rwa [hread] at hstop))
      | _ => simp [hread, endsBlock] at hends
    | false =>
      cases current with
      | none =>
        rw [ofLines_none_of_continues hends] at hstop
        exact .idle hends (ih hstop)
      | some b =>
        have hgoes := goesOn_of_continues hends hstop
        rw [ofLines_goesOn_cons hgoes] at hstop
        exact .goesOn hends hgoes (ih hstop)

end Scan

/-! ## What the records say -/

/-- The dollar signs of a marked line stand behind its asterisks. -/
theorem two_le_column {line : Text} (hline : ListingLine.isMarked line) {m : Marker}
    (h : m ∈ findMarkers line) : 2 ≤ m.column := by
  rw [ListingLine.isMarked.eq_def] at hline
  split at hline
  · rename_i rest
    rw [findMarkers, show '*' :: '*' :: '*' :: '*' :: rest = ['*', '*', '*', '*'] ++ rest from rfl,
      markersFrom_append (by decide)] at h
    exact le_column_of_mem_markersFrom h
  · simp at hline

namespace Passage

open ListingLine

/-- A passage begins with one of the lines and goes on with others. -/
theorem of_mem_ofLines {lines : List Text} {p : Passage} (h : p ∈ ofLines lines) :
    (∃ line ∈ lines, Opens line ∧ p.markers = findMarkers line) ∧ p.lines ⊆ lines := by
  induction lines with
  | nil => exact absurd h List.not_mem_nil
  | cons line rest ih =>
    rcases List.mem_append.1 h with h | h
    · split at h
      · obtain rfl := List.mem_singleton.1 h
        exact ⟨⟨line, List.mem_cons_self, ‹_›, rfl⟩,
          fun l hl => List.mem_cons_of_mem _ ((List.takeWhile_sublist _).subset hl)⟩
      · exact absurd h List.not_mem_nil
    · obtain ⟨⟨first, hmem, hfirst⟩, hlines⟩ := ih h
      exact ⟨⟨first, List.mem_cons_of_mem _ hmem, hfirst⟩,
        fun l hl => List.mem_cons_of_mem _ (hlines hl)⟩

/-- The places of the records are those of the passage. -/
theorem map_records (p : Passage) :
    p.records.map (fun r => (r.code, r.column, r.line)) = p.places := by
  rw [records, List.map_map]
  exact List.map_id _

/-- A record has a marker of its passage, a line from the first one on, and the message of its
    code. -/
theorem of_mem_records {p : Passage} {r : Record} (h : r ∈ p.records) :
    (∃ m ∈ p.markers, m.code = r.code ∧ m.column = r.column) ∧ 1 ≤ r.line ∧
      r.message = joinMessage (Block.textsFor r.code none (calls p.lines)) := by
  obtain ⟨⟨code, column, line⟩, hplace, rfl⟩ := List.mem_map.1 h
  rw [places] at hplace
  split at hplace
  · split at hplace
    · obtain ⟨m, hm, heq⟩ := List.mem_map.1 hplace
      obtain ⟨rfl, hrest⟩ := Prod.mk.inj heq
      obtain ⟨rfl, rfl⟩ := Prod.mk.inj hrest
      exact ⟨⟨m, hm, rfl, rfl⟩, by dsimp only; omega, rfl⟩
    · exact absurd hplace List.not_mem_nil
  · exact absurd hplace List.not_mem_nil

/-- The texts that the lines of a passage add are stripped parts of these lines. -/
theorem of_mem_texts {p : Passage} {code text : Text}
    (h : text ∈ Block.textsFor code none (calls p.lines)) :
    text ≠ [] ∧ ∃ line ∈ p.lines, ∃ part : Text, part <:+ line ∧ part.strip = text := by
  obtain ⟨hne, hcall⟩ := Block.mem_of_mem_textsFor h
  refine ⟨hne, ?_⟩
  rcases hcall with ⟨named, hcall⟩ | hcall
  · obtain ⟨line, hline, hcall⟩ := List.mem_filterMap.1 hcall
    exact ⟨line, hline, text_of_read (.inl ⟨named, eq_of_call?_switchCode hcall⟩)⟩
  · obtain ⟨line, hline, hcall⟩ := List.mem_filterMap.1 hcall
    exact ⟨line, hline, text_of_read (.inr (eq_of_call?_addContinuation hcall))⟩

end Passage

/-- A code of a record is a number, its place is one of the source, and its message is one line
    without blanks at its ends. -/
structure Record.WellFormed (r : Record) : Prop where
  column : 2 ≤ r.column
  line : 1 ≤ r.line
  code : r.code ≠ [] ∧ ∀ c ∈ r.code, isDecimalDigit c
  unbroken : r.message.Unbroken
  trimmed : r.message.Trimmed

/-- The records of a passage are well formed. -/
theorem Passage.wellFormed_of_mem_records {text : Text} {p : Passage}
    (hp : p ∈ Passage.ofLines text.lines) {r : Record} (h : r ∈ p.records) : r.WellFormed := by
  obtain ⟨⟨line, -, hopens, hmarkers⟩, hlines⟩ := Passage.of_mem_ofLines hp
  obtain ⟨⟨m, hm, hcode, hcolumn⟩, hline, hmessage⟩ := Passage.of_mem_records h
  rw [hmarkers] at hm
  refine ⟨hcolumn ▸ two_le_column hopens.1 hm, hline, hcode ▸ digits_of_mem_findMarkers hm, ?_, ?_⟩
  · rw [hmessage]
    refine unbroken_joinMessage fun part hpart => ?_
    obtain ⟨-, line, hline, whole, hwhole, rfl⟩ := Passage.of_mem_texts hpart
    exact .part (whole.strip_isInfix.trans hwhole.isInfix)
      (Text.unbroken_of_mem_lines (hlines hline))
  · rw [hmessage]
    refine trimmed_joinMessage fun part hpart => ?_
    obtain ⟨hne, line, -, whole, -, rfl⟩ := Passage.of_mem_texts hpart
    exact ⟨hne, whole.trimmed_strip⟩

/-! ## Listings -/

/-- A listing that can be read holds the records of its passages. -/
theorem Scan.records_ofText {text : Text} (h : (ofText text).stoppedAt = none) :
    (ofText text).records = (Passage.ofLines text.lines).flatMap Passage.records := by
  have hholds := holds_of_not_stopped h
  rw [records, ofText, hholds.blocks, Option.map_none, Option.toList_none, List.nil_append,
    List.flatMap_map]
  exact List.flatMap_congr fun p hp => Passage.records_block (hholds.passages_goOn p hp)

/-- No code of a listing is lost, doubled or made up: the records stand for the codes of each
    passage that tells a line of the source, once each. They are in the order of their places,
    records of one place in the order of the listing. -/
theorem readListing_passages {text : Text} {records : List Record}
    (h : readListing text = .ok records) :
    let passages := Passage.ofLines text.lines
    (records.map fun r => (r.code, r.column, r.line)).Perm (passages.flatMap Passage.places) ∧
      Sorted records ∧
      (∀ r : Record, records.filter r.besides =
        (passages.flatMap Passage.records).filter r.besides) ∧
      ∀ r ∈ records, r.WellFormed := by
  intro passages
  rw [readListing_eq] at h
  split at h
  · simp at h
  rename_i hstop
  have hrecords : records = sortRecords (passages.flatMap Passage.records) := by
    rw [← Scan.records_ofText hstop]
    exact (Except.ok.inj h).symm
  have hperm : records.Perm (passages.flatMap Passage.records) :=
    hrecords ▸ List.mergeSort_perm _ _
  refine ⟨?_, hrecords ▸ sorted_sortRecords _, fun r => hrecords ▸ filter_sortRecords r _,
    fun r hr => ?_⟩
  · have hmap := hperm.map fun r => (r.code, r.column, r.line)
    rw [List.map_flatMap] at hmap
    simpa only [Passage.map_records] using hmap
  · obtain ⟨p, hp, hr⟩ := List.mem_flatMap.1 (hperm.subset hr)
    exact Passage.wellFormed_of_mem_records hp hr

/-- A block that names a code twice, one that never tells its line, and one for an earlier line. -/
theorem readListing_passages_three_blocks :
    let text : Text := ("****    $140,36 $140\n**** LINE 3\n140  unknown symbol\n" ++
      "    4  x = y;\n**** $8\n8 no line\n****  $36\n     \n LINE 2\n LINE 7\n").toList
    ∃ records, readListing text = .ok records ∧
      (records.map fun r => (r.code, r.column, r.line)).Perm
        [("140".toList, 6, 3), ("36".toList, 6, 3), ("140".toList, 14, 3),
          ("36".toList, 4, 2)] := by
  intro text
  have hread : readListing text = .ok (sortRecords (Scan.ofText text).records) := by
    rw [readListing_eq, show (Scan.ofText text).stoppedAt = none by decide +kernel]
  have hplaces : (Passage.ofLines text.lines).flatMap Passage.places =
      [("140".toList, 6, 3), ("36".toList, 6, 3), ("140".toList, 14, 3), ("36".toList, 4, 2)] := by
    decide +kernel
  exact ⟨_, hread, hplaces ▸ (readListing_passages hread).1⟩

end LiveCheck
