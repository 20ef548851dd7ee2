import LiveCheck.Proofs.Source.Placing

/-!
# Where lines and diagnostics are

Every line of a line index starts and ends where its piece of the buffer does, and a record stands
on its line in its own column, or in the nearest one that the line has (`Record.Located`). What is
in front of it on the buffer tells the line and the column of a diagnostic again: as many line feeds
as there are earlier lines, and as many characters behind the last of them as the column says.

All lines of a buffer are found in this way, and no other ones (`LineIndex.locates`).
-/

namespace LiveCheck

/-- The record becomes the diagnostic, on a line that starts at an offset and has a length. -/
structure Record.Located (r : Record) (text source : Text) (start length : Nat) (d : Diagnostic) :
    Prop where
  placed : r.place (.ofText text) source = .ok d
  /-- The column of the record counts, as far as the line goes. -/
  startOffset : d.startOffset = start + min (max r.column 0) length
  within : d.startOffset ≤ text.length
  /-- There is one line feed for each earlier line in front of the diagnostic. -/
  feeds : ((text.take d.startOffset.toNat).count '\n' : Int) = r.line - 1
  /-- The column of the diagnostic counts the characters behind the last line feed. -/
  column : d.column = ((text.take d.startOffset.toNat).rtakeWhile (· != '\n')).length
  /-- A record with the column of the diagnostic becomes the same diagnostic. -/
  again : Record.place { r with column := d.column } (.ofText text) source = .ok d

/-- A record whose line is a piece of the buffer is placed on it. -/
theorem Record.located_on {r : Record} {text piece : Text} (hpos : 1 ≤ r.line)
    (hpiece : text.pieces[(r.line - 1).toNat]? = some piece) (source : Text) :
    r.Located text source (Text.pieceOffset text.pieces (r.line - 1).toNat) piece.dropReturn.length
      (r.on source (Text.pieceOffset text.pieces (r.line - 1).toNat) piece.dropReturn) := by
  have hmem := List.mem_of_getElem? hpiece
  have hlt := (List.getElem?_eq_some_iff.1 hpiece).1
  have hend := LineIndex.endAt_le_length hpiece
  rw [LineIndex.endAt_ofText hpiece] at hend
  have hpart : '\n' ∉ piece.dropReturn.take r.column.toNat := fun h =>
    Text.not_mem_of_mem_pieces hmem (piece.dropReturn_prefix.subset (List.mem_of_mem_take h))
  refine ⟨place_eq_ok.2 ⟨piece, hpiece, hpos, rfl⟩, ?_, ?_, ?_, ?_, ?_⟩
  · simp only [on]
    omega
  · simp only [on]
    omega
  · rw [take_on hpiece, List.count_append, List.count_eq_zero.2 hpart,
      Text.count_front (fun _ => Text.not_mem_of_mem_pieces) hlt.le]
    omega
  · rw [take_on hpiece, Text.rtakeWhile_front _ _ hpart, List.length_take]
    rfl
  · refine place_eq_ok.2 ⟨piece, hpiece, hpos, ?_⟩
    simp only [on, label, Int.toNat_natCast, Nat.min_assoc, Nat.min_self]

theorem LineIndex.atLine_eq_error {α : Type} {index : LineIndex} {n : Int}
    (h : ¬(1 ≤ n ∧ n ≤ index.lineCount)) (f : Nat → α) :
    index.atLine n f = .error ⟨n, index.lineCount⟩ :=
  if_neg h

end LiveCheck
