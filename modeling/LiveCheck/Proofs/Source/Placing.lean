import LiveCheck.Source.Diagnostic
import LiveCheck.Proofs.Listing.Passage
import LiveCheck.Proofs.Source.LineIndex

/-!
# Records placed onto a buffer

A record whose line is one of the buffer's becomes the diagnostic that stands in its column, or at
the end of the line if the line is too short (`Record.place_eq_ok`). The columns of a line are
clamped alike, and a line ends before the next one starts, so records keep their order on the buffer
(`Record.on_mono`). What a listing tells therefore ends up in the order of the buffer, too, with one
diagnostic for each record that has a line there (`placeRecords_in_order`).
-/

namespace LiveCheck

theorem Except.toOption_eq_some_iff {ε α : Type} {result : Except ε α} {a : α} :
    result.toOption = some a ↔ result = .ok a := by
  cases result <;> simp [Except.toOption]

namespace Record

/-- The diagnostic that a record becomes on its line, which starts at an offset. -/
def on (r : Record) (source : Text) (start : Nat) (line : Text) : Diagnostic :=
  let column := min r.column.toNat line.length
  { source
    startOffset := start + column
    endOffset := start + column + 1
    severity := errorSeverity
    message := r.label
    line := r.line
    column
    code := r.code }

theorem place_eq (r : Record) (index : LineIndex) (source : Text) : r.place index source =
    index.atLine r.line fun position =>
      let start := index.startAt position
      let offset := min (start + r.column.toNat) (index.endAt position)
      { source
        startOffset := offset
        endOffset := offset + 1
        severity := errorSeverity
        message := r.label
        line := r.line
        column := offset - start
        code := r.code } := by
  rw [place, LineIndex.offset, LineIndex.lineStart]
  unfold LineIndex.atLine
  split <;> rfl

/-- A record finds a place on the line of its number, if there is one. -/
theorem place_eq_ok {r : Record} {text source : Text} {d : Diagnostic} :
    r.place (.ofText text) source = .ok d ↔
      ∃ piece, text.pieces[(r.line - 1).toNat]? = some piece ∧ 1 ≤ r.line ∧
        r.on source (Text.pieceOffset text.pieces (r.line - 1).toNat) piece.dropReturn = d := by
  rw [place_eq, LineIndex.atLine_ofText]
  refine exists_congr fun piece => and_congr_right fun hpiece => and_congr_right fun _ => ?_
  dsimp only
  rw [LineIndex.startAt_ofText hpiece, LineIndex.endAt_ofText hpiece, Nat.add_min_add_left, on,
    Int.natCast_add, Int.add_comm, Int.add_sub_cancel]

/-- In front of a placed record are the earlier pieces of the buffer and the beginning of its
    line. -/
theorem take_on {text piece : Text} {position : Nat} (h : text.pieces[position]? = some piece)
    (r : Record) (source : Text) :
    text.take
        (r.on source (Text.pieceOffset text.pieces position) piece.dropReturn).startOffset.toNat =
      Text.front text.pieces position ++ piece.dropReturn.take r.column.toNat := by
  have hle : min r.column.toNat piece.dropReturn.length ≤ piece.length :=
    (Nat.min_le_right _ _).trans piece.dropReturn_prefix.length_le
  -- The line is the front of its piece.
  have hpart : piece.take (min r.column.toNat piece.dropReturn.length) =
      piece.dropReturn.take r.column.toNat := by
    rw [← List.take_take, ← List.prefix_iff_eq_take.1 piece.dropReturn_prefix]
  have hnat : (r.on source (Text.pieceOffset text.pieces position)
      piece.dropReturn).startOffset.toNat =
        Text.pieceOffset text.pieces position + min r.column.toNat piece.dropReturn.length := by
    simp only [on]
    omega
  rw [hnat, Text.take_pieceOffset h hle, hpart]

/-- A record has a place on the buffer if its line is one of the buffer's. -/
theorem isOk_place {r : Record} (h : 1 ≤ r.line) (text source : Text) :
    (r.place (.ofText text) source).toOption.isSome ↔ r.line ≤ text.count '\n' + 1 := by
  have hcount := LineIndex.lineCount_ofText text
  rw [Text.length_pieces] at hcount
  rw [place_eq, LineIndex.atLine, hcount]
  split
  · simp only [Except.toOption, Option.isSome_some, true_iff]
    omega
  · simp only [Except.toOption, Option.isSome_none, Bool.false_eq_true, false_iff]
    omega

/-- Records keep their order on the buffer. -/
theorem on_mono {a b : Record} (h : a.le b) {text source p q : Text} (ha : 1 ≤ a.line)
    (hp : text.pieces[(a.line - 1).toNat]? = some p)
    (hq : text.pieces[(b.line - 1).toNat]? = some q) :
    let x := a.on source (Text.pieceOffset text.pieces (a.line - 1).toNat) p.dropReturn
    let y := b.on source (Text.pieceOffset text.pieces (b.line - 1).toNat) q.dropReturn
    x.startOffset ≤ y.startOffset ∧ (x.line < y.line ∨ x.line = y.line ∧ x.column ≤ y.column) := by
  rcases Record.le_iff.1 h with hline | ⟨hline, hcolumn⟩
  · -- A line ends before a later one starts.
    have hlt := LineIndex.endAt_lt_startAt hp hq (by omega)
    rw [LineIndex.endAt_ofText hp, LineIndex.startAt_ofText hq] at hlt
    refine ⟨?_, .inl hline⟩
    simp only [on]
    omega
  · rw [hline] at hp ⊢
    obtain rfl := Option.some.inj (hp.symm.trans hq)
    refine ⟨?_, .inr ⟨hline, ?_⟩⟩ <;> simp only [on] <;> omega

end Record

/-- A place on the buffer is between its ends. -/
theorem startOffset_of_place {r : Record} {text source : Text} {d : Diagnostic}
    (h : r.place (.ofText text) source = .ok d) :
    0 ≤ d.startOffset ∧ d.startOffset ≤ text.length ∧ d.endOffset = d.startOffset + 1 := by
  obtain ⟨piece, hpiece, -, rfl⟩ := Record.place_eq_ok.1 h
  have hle := LineIndex.endAt_le_length hpiece
  rw [LineIndex.endAt_ofText hpiece] at hle
  refine ⟨?_, ?_, rfl⟩ <;> simp only [Record.on] <;> omega

/-- The records that have a line on the buffer become diagnostics, one each. -/
theorem map_placeRecords {records : List Record} (h : ∀ r ∈ records, 1 ≤ r.line)
    (text source : Text) : (placeRecords records text source).map (fun d => (d.code, d.line)) =
      (records.filter fun r : Record => r.line ≤ text.count '\n' + 1).map
        fun r => (r.code, r.line) := by
  have hkeep : ∀ {r : Record} {d : Diagnostic}, r.place (.ofText text) source = .ok d →
      (d.code, d.line) = (r.code, r.line) := by
    intro r d hd
    obtain ⟨piece, -, -, rfl⟩ := Record.place_eq_ok.1 hd
    rfl
  rw [placeRecords, List.map_filterMap, ← List.filterMap_eq_map, List.filterMap_filter]
  refine List.filterMap_congr fun r hr => ?_
  have hsome := Record.isOk_place (h r hr) text source
  cases hplace : r.place (.ofText text) source with
  | ok d =>
    rw [hplace] at hsome
    simp [Except.toOption, hkeep hplace, hsome.1 rfl]
  | error fault =>
    rw [hplace] at hsome
    simpa [Except.toOption] using hsome

/-- The records of a listing become diagnostics in the order of the buffer: one for each record
    whose line the buffer has, with its code and line, and none for any other record. -/
theorem placeRecords_in_order {listing : Text} {records : List Record}
    (h : readListing listing = .ok records) (text source : Text) :
    let placed := placeRecords records text source
    (placed.map fun d => (d.code, d.line)) =
      (records.filter fun r : Record => r.line ≤ text.count '\n' + 1).map
        (fun r => (r.code, r.line)) ∧
    placed.Pairwise (fun a b => a.startOffset ≤ b.startOffset ∧
      (a.line < b.line ∨ a.line = b.line ∧ a.column ≤ b.column)) ∧
    ∀ d ∈ placed, 0 ≤ d.startOffset ∧ d.startOffset ≤ text.length ∧
      d.endOffset = d.startOffset + 1 := by
  intro placed
  obtain ⟨-, hsorted, -, hformed⟩ := readListing_passages h
  refine ⟨map_placeRecords (fun r hr => (hformed r hr).line) text source, ?_, fun d hd => ?_⟩
  · refine hsorted.filterMap _ fun a b hle x hx y hy => ?_
    obtain ⟨p, hp, hpos, rfl⟩ := Record.place_eq_ok.1 (Except.toOption_eq_some_iff.1 hx)
    obtain ⟨q, hq, -, rfl⟩ := Record.place_eq_ok.1 (Except.toOption_eq_some_iff.1 hy)
    exact Record.on_mono hle hpos hp hq
  · obtain ⟨r, -, hplace⟩ := List.mem_filterMap.1 hd
    exact startOffset_of_place (Except.toOption_eq_some_iff.1 hplace)

/-- A line that is too short for three of its records, and a record past the end of the buffer. -/
theorem placeRecords_in_order_short_line :
    let listing : Text := ("**** $8\n LINE 1\n****    $140,36 $9999\n**** LINE 3\n" ++
      "140  unknown symbol\n**** $2\n LINE 4\n").toList
    let source : Text := "ab\r\n\ncd".toList
    ∃ records, readListing listing = .ok records ∧
      let placed := placeRecords records source "/w/m.gms".toList
      (placed.map fun d => (d.code, d.line)) =
        [("8".toList, 1), ("140".toList, 3), ("36".toList, 3), ("9999".toList, 3)] ∧
      (placed.map fun d => (d.column, d.startOffset)) = [(2, 2), (2, 7), (2, 7), (2, 7)] ∧
      placed.Pairwise (fun a b => a.startOffset ≤ b.startOffset ∧
        (a.line < b.line ∨ a.line = b.line ∧ a.column ≤ b.column)) ∧
      ∀ d ∈ placed, 0 ≤ d.startOffset ∧ d.startOffset ≤ source.length ∧
        d.endOffset = d.startOffset + 1 := by
  intro listing source
  have hsorted : Sorted (Scan.ofText listing).records := by
    unfold Sorted
    decide +kernel
  have hread : readListing listing = .ok (Scan.ofText listing).records := by
    rw [readListing_eq, show (Scan.ofText listing).stoppedAt = none by decide +kernel,
      sortRecords_of_sorted hsorted]
  obtain ⟨hkept, hordered, hbounds⟩ := placeRecords_in_order hread source "/w/m.gms".toList
  exact ⟨_, hread, hkept.trans (by decide +kernel), by decide +kernel, hordered, hbounds⟩

end LiveCheck
