import LiveCheck.Source.LineIndex
import LiveCheck.Proofs.Text.Piece
import Mathlib.Data.List.Range

/-!
# The lines of a buffer

The lines of a line index are the pieces of its buffer: it has as many lines (`lineCount_ofText`),
each starts where its piece stands (`startAt_ofText`), and ends with its piece, less a carriage
return at the end (`endAt_ofText`). So what the buffer holds between the two is the piece without
the carriage return (`slice_ofText`), and a line ends before the next one starts
(`endAt_lt_startAt`).
-/

namespace LiveCheck

/-- The text without the carriage return that it may end with. -/
def Text.dropReturn (line : Text) : Text :=
  if line.getLast? = some '\r' then line.dropLast else line

theorem Text.dropReturn_prefix (line : Text) : line.dropReturn <+: line := by
  rw [dropReturn]
  split
  · exact List.dropLast_prefix line
  · exact List.prefix_rfl

theorem Text.dropReturn_of_not_mem {line : Text} (h : '\r' ∉ line) : line.dropReturn = line :=
  if_neg fun hlast => h (List.mem_of_getLast? hlast)

/-! ## Line starts -/

theorem lineStartsFrom_of_last {piece : Text} (h : '\n' ∉ piece) (offset : Nat) :
    lineStartsFrom offset piece = [] := by
  induction piece generalizing offset with
  | nil => rfl
  | cons c rest ih =>
    rw [lineStartsFrom, if_neg (Ne.symm (List.ne_of_not_mem_cons h)),
      ih (List.not_mem_of_not_mem_cons h)]

theorem lineStartsFrom_append {piece : Text} (h : '\n' ∉ piece) (rest : Text) (offset : Nat) :
    lineStartsFrom offset (piece ++ '\n' :: rest) =
      (offset + piece.length + 1) :: lineStartsFrom (offset + piece.length + 1) rest := by
  induction piece generalizing offset with
  | nil => simp [lineStartsFrom]
  | cons c later ih =>
    rw [List.cons_append, lineStartsFrom, if_neg (Ne.symm (List.ne_of_not_mem_cons h)),
      ih (List.not_mem_of_not_mem_cons h), List.length_cons, Nat.add_assoc offset 1,
      Nat.add_comm 1]

/-- Lines start where the pieces of the text stand. -/
theorem lineStartsFrom_eq (text : Text) (offset : Nat) : offset :: lineStartsFrom offset text =
    (List.range text.pieces.length).map fun k => offset + Text.pieceOffset text.pieces k := by
  induction text using Text.induction_on_pieces generalizing offset with
  | last piece h => rw [lineStartsFrom_of_last h, Text.pieces_of_last h]; rfl
  | more piece rest h ih =>
    rw [lineStartsFrom_append h, ih, Text.pieces_append h, List.length_cons,
      List.range_succ_eq_map, List.map_cons, List.map_map, Text.pieceOffset_zero, Nat.add_zero]
    refine congrArg _ (List.map_congr_left fun k _ => ?_)
    simp only [Function.comp_apply, Text.pieceOffset_cons_succ]
    omega

namespace LineIndex

variable {text piece : Text} {position : Nat}

theorem lineCount_ofText (text : Text) : (ofText text).lineCount = text.pieces.length := by
  rw [lineCount, ofText, lineStartsFrom_eq, List.length_map, List.length_range]

theorem starts_ofText (h : position < text.pieces.length) :
    (ofText text).starts[position]? = some (Text.pieceOffset text.pieces position) := by
  rw [ofText, lineStartsFrom_eq, List.getElem?_map, List.getElem?_range h, Option.map_some,
    Nat.zero_add]

theorem startAt_ofText (h : text.pieces[position]? = some piece) :
    (ofText text).startAt position = Text.pieceOffset text.pieces position := by
  rw [startAt, List.getD_eq_getElem?_getD, starts_ofText (List.getElem?_eq_some_iff.1 h).1,
    Option.getD_some]

/-- Going back from the end of a piece over a carriage return. -/
theorem trim_ofText (h : text.pieces[position]? = some piece) :
    let start := Text.pieceOffset text.pieces position
    let stop := start + piece.length
    (if start < stop ∧ text[stop - 1]? = some '\r' then stop - 1 else stop) =
      start + piece.dropReturn.length := by
  intro start stop
  obtain ⟨rest, hdrop, -⟩ := Text.drop_pieceOffset h
  by_cases hne : piece = []
  · simp [stop, hne, Text.dropReturn]
  · have hpos := List.length_pos_iff.2 hne
    -- The character in front of the stop is the last one of the piece.
    have hlast : text[stop - 1]? = piece.getLast? := by
      rw [Nat.add_sub_assoc hpos, ← List.getElem?_drop, hdrop,
        List.getElem?_append_left (by omega), List.getLast?_eq_getElem?]
    rw [hlast, Text.dropReturn]
    have hlt : start < stop := Nat.lt_add_of_pos_right hpos
    by_cases hreturn : piece.getLast? = some '\r'
    · rw [if_pos ⟨hlt, hreturn⟩, if_pos hreturn, List.length_dropLast]
      omega
    · rw [if_neg fun h => hreturn h.2, if_neg hreturn]

theorem endAt_ofText (h : text.pieces[position]? = some piece) : (ofText text).endAt position =
    Text.pieceOffset text.pieces position + piece.dropReturn.length := by
  have hlt := (List.getElem?_eq_some_iff.1 h).1
  rw [← trim_ofText h, endAt, startAt_ofText h]
  by_cases hnext : position + 1 < text.pieces.length
  · rw [starts_ofText hnext, Text.pieceOffset_succ h]
    rfl
  · -- The last line stops where the buffer does.
    obtain ⟨rest, -, hlength, hlast⟩ := Text.drop_pieceOffset h
    have hstop : text.length = Text.pieceOffset text.pieces position + piece.length := by
      rw [← hlength, hlast (by omega), List.append_nil]
    have hcount : (ofText text).starts.length = text.pieces.length := lineCount_ofText text
    rw [List.getElem?_eq_none_iff.2 (by omega), ← hstop]
    rfl

/-- Between the start and the end of a line, the buffer holds the line. -/
theorem slice_ofText (h : text.pieces[position]? = some piece) :
    (text.take ((ofText text).endAt position)).drop ((ofText text).startAt position) =
      piece.dropReturn := by
  obtain ⟨rest, hdrop, -⟩ := Text.drop_pieceOffset h
  obtain ⟨later, hpiece⟩ := piece.dropReturn_prefix
  rw [endAt_ofText h, startAt_ofText h, List.drop_take, Nat.add_sub_cancel_left, hdrop, ← hpiece,
    List.append_assoc, hpiece, List.take_left]

/-- A line lies within the buffer. -/
theorem endAt_le_length (h : text.pieces[position]? = some piece) :
    (ofText text).endAt position ≤ text.length := by
  obtain ⟨rest, -, hlength, -⟩ := Text.drop_pieceOffset h
  have := piece.dropReturn_prefix.length_le
  rw [endAt_ofText h, ← hlength, List.length_append]
  omega

/-- A line ends before a later one starts. -/
theorem endAt_lt_startAt {later : Nat} {next : Text} (h : text.pieces[position]? = some piece)
    (hnext : text.pieces[later]? = some next) (hlt : position < later) :
    (ofText text).endAt position < (ofText text).startAt later := by
  have hmono : Text.pieceOffset text.pieces (position + 1) ≤ Text.pieceOffset text.pieces later :=
    Text.pieceOffset_mono hlt
  have hsucc := Text.pieceOffset_succ h
  have := piece.dropReturn_prefix.length_le
  rw [startAt_ofText hnext, endAt_ofText h]
  omega

/-! ## Line numbers -/

/-- The line numbers of a buffer are those of its pieces. -/
theorem atLine_ofText {α : Type} {line : Int} {f : Nat → α} {a : α} :
    (ofText text).atLine line f = .ok a ↔
      ∃ piece, text.pieces[(line - 1).toNat]? = some piece ∧ 1 ≤ line ∧ f (line - 1).toNat = a := by
  rw [atLine, lineCount_ofText]
  split
  · rename_i hline
    rw [List.getElem?_eq_getElem (by omega)]
    simp [hline.1]
  · rename_i hline
    refine ⟨nofun, ?_⟩
    rintro ⟨piece, hpiece, hpos, -⟩
    refine absurd ⟨hpos, ?_⟩ hline
    have := (List.getElem?_eq_some_iff.1 hpiece).1
    omega

end LineIndex

end LiveCheck
