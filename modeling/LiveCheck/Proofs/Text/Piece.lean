import LiveCheck.Text.Basic
import Mathlib.Algebra.GroupWithZero.Nat
import Mathlib.Data.List.Basic
import Mathlib.Data.List.DropRight

/-!
# Pieces of a text

The pieces of a text are what stands between its line feeds (`Text.pieces`); there is one more of
them than of line feeds. A text is put together from a last piece and any number of pieces in front
of it, each with the line feed that follows it (`Text.induction_on_pieces`), so what is said of
pieces is proved by taking one piece after the other from the front.

A piece stands behind all pieces before it and their line feeds (`Text.pieceOffset`). It is found
there (`Text.drop_pieceOffset`), and the text in front of a place on it is made of those pieces and
of its own beginning (`Text.take_pieceOffset`).
-/

namespace LiveCheck.Text

/-- The pieces of a text between its line feeds. -/
def pieces (text : Text) : List Text := List.splitOn '\n' text

theorem pieces_of_last {piece : Text} (h : '\n' ∉ piece) : pieces piece = [piece] :=
  List.splitOnP_eq_singleton fun _ hc => beq_false_of_ne (ne_of_mem_of_not_mem hc h)

theorem pieces_append {piece : Text} (h : '\n' ∉ piece) (rest : Text) :
    pieces (piece ++ '\n' :: rest) = piece :: pieces rest :=
  List.splitOnP_append_cons_of_forall_mem
    (fun _ hc => beq_false_of_ne (ne_of_mem_of_not_mem hc h)) '\n' rfl rest

/-- Every text has a last part without breaks, with further such parts and breaks in front of it. -/
theorem induction_on_breaks {IsBreak : Char → Prop} {P : Text → Prop} (text : Text)
    (last : ∀ part : Text, (∀ c ∈ part, ¬IsBreak c) → P part)
    (more : ∀ (part : Text) (c : Char) (rest : Text), (∀ d ∈ part, ¬IsBreak d) → IsBreak c →
      P rest → P (part ++ c :: rest)) : P text := by
  -- A character in front of a text goes to its first part, or ends an empty one.
  suffices h : ∀ part : Text, (∀ c ∈ part, ¬IsBreak c) → P (part ++ text) by
    simpa using h [] fun _ hc => absurd hc List.not_mem_nil
  induction text with
  | nil => exact fun part h => by simpa using last part h
  | cons c rest ih =>
    intro part h
    by_cases hc : IsBreak c
    · exact more part c rest h hc (by simpa using ih [] fun _ hd => absurd hd List.not_mem_nil)
    · have hpart : ∀ d ∈ part ++ [c], ¬IsBreak d := by
        intro d hd
        rcases List.mem_append.1 hd with hd | hd
        · exact h d hd
        · exact List.mem_singleton.1 hd ▸ hc
      simpa using ih _ hpart

/-- Every text has a last piece, with further pieces in front of it. -/
theorem induction_on_pieces {P : Text → Prop} (text : Text)
    (last : ∀ piece, '\n' ∉ piece → P piece)
    (more : ∀ piece rest, '\n' ∉ piece → P rest → P (piece ++ '\n' :: rest)) : P text := by
  induction text using @induction_on_breaks (· = '\n') with
  | last piece h => exact last piece fun hmem => h _ hmem rfl
  | more piece c rest h hc ih =>
    subst hc
    exact more piece rest (fun hmem => h _ hmem rfl) ih

theorem pieces_ne_nil (text : Text) : text.pieces ≠ [] := List.splitOn_ne_nil _ _

/-- There is one more piece than line feeds. -/
theorem length_pieces (text : Text) : text.pieces.length = text.count '\n' + 1 := by
  induction text using induction_on_pieces with
  | last piece h => rw [pieces_of_last h, List.count_eq_zero.2 h]; rfl
  | more piece rest h ih =>
    rw [pieces_append h, List.length_cons, ih, List.count_append, List.count_eq_zero.2 h,
      List.count_cons_self, Nat.zero_add]

/-- Every character but the line feeds is in a piece. -/
theorem exists_piece_of_mem {text : Text} {c : Char} (hc : c ∈ text) (hne : c ≠ '\n') :
    ∃ piece ∈ text.pieces, c ∈ piece := by
  induction text using induction_on_pieces with
  | last piece h => exact ⟨piece, by rw [pieces_of_last h]; exact List.mem_singleton_self _, hc⟩
  | more piece rest h ih =>
    rw [pieces_append h]
    rcases List.mem_append.1 hc with hc | hc
    · exact ⟨piece, List.mem_cons_self, hc⟩
    · obtain ⟨p, hp, hc⟩ := ih ((List.mem_cons.1 hc).resolve_left hne)
      exact ⟨p, List.mem_cons_of_mem _ hp, hc⟩

/-- A piece is a part of the text. -/
theorem mem_of_mem_pieces {text piece : Text} (hpiece : piece ∈ text.pieces) {c : Char}
    (hc : c ∈ piece) : c ∈ text := by
  induction text using induction_on_pieces with
  | last p h =>
    rw [pieces_of_last h, List.mem_singleton] at hpiece
    exact hpiece ▸ hc
  | more p rest h ih =>
    rw [pieces_append h] at hpiece
    rcases List.mem_cons.1 hpiece with rfl | hpiece
    · exact List.mem_append_left _ hc
    · exact List.mem_append_right _ (List.mem_cons_of_mem _ (ih hpiece))

theorem not_mem_of_mem_pieces {text piece : Text} (hpiece : piece ∈ text.pieces) :
    '\n' ∉ piece := by
  induction text using induction_on_pieces with
  | last p h =>
    rw [pieces_of_last h, List.mem_singleton] at hpiece
    exact hpiece ▸ h
  | more p rest h ih =>
    rw [pieces_append h] at hpiece
    rcases List.mem_cons.1 hpiece with rfl | hpiece
    · exact h
    · exact ih hpiece

/-- The last piece is empty if nothing follows the last line feed. -/
theorem getLast?_pieces (text : Text) :
    text.pieces.getLast? = some [] ↔ text = [] ∨ text.getLast? = some '\n' := by
  induction text using induction_on_pieces with
  | last piece h =>
    rw [pieces_of_last h]
    simp only [List.getLast?_singleton, Option.some.injEq]
    exact ⟨.inl, fun hp => hp.resolve_right fun hlast => h (List.mem_of_getLast? hlast)⟩
  | more piece rest h ih =>
    rw [pieces_append h, ← List.singleton_append,
      List.getLast?_append_of_ne_nil _ rest.pieces_ne_nil, ih]
    cases rest with
    | nil => simp
    | cons c later => simp [List.getLast?_cons_cons]

/-! ## Where a piece stands -/

/-- How many characters stand in front of the piece at a position, line feeds included. -/
def pieceOffset (pieces : List Text) (position : Nat) : Nat :=
  ((pieces.take position).map fun piece => piece.length + 1).sum

@[simp] theorem pieceOffset_zero (pieces : List Text) : pieceOffset pieces 0 = 0 := rfl

@[simp] theorem pieceOffset_cons_succ (piece : Text) (pieces : List Text) (position : Nat) :
    pieceOffset (piece :: pieces) (position + 1) =
      piece.length + 1 + pieceOffset pieces position := rfl

/-- A piece and its line feed stand between its own place and that of the next one. -/
theorem pieceOffset_succ {pieces : List Text} {position : Nat} {piece : Text}
    (h : pieces[position]? = some piece) :
    pieceOffset pieces (position + 1) = pieceOffset pieces position + piece.length + 1 := by
  rw [pieceOffset, List.take_add_one, h, Option.toList_some, List.map_append, List.sum_append,
    List.map_singleton, List.sum_singleton, ← Nat.add_assoc]
  rfl

theorem pieceOffset_mono {pieces : List Text} {i j : Nat} (h : i ≤ j) :
    pieceOffset pieces i ≤ pieceOffset pieces j := by
  obtain ⟨count, rfl⟩ := Nat.exists_eq_add_of_le h
  rw [pieceOffset, pieceOffset, List.take_add, List.map_append, List.sum_append]
  exact Nat.le_add_right _ _

/-- A piece is found behind those before it. After the last one, nothing is left of the text. -/
theorem drop_pieceOffset {text piece : Text} {position : Nat}
    (h : text.pieces[position]? = some piece) : ∃ rest,
      text.drop (pieceOffset text.pieces position) = piece ++ rest ∧
        pieceOffset text.pieces position + (piece ++ rest).length = text.length ∧
        (text.pieces.length = position + 1 → rest = []) := by
  induction text using induction_on_pieces generalizing position with
  | last p hp =>
    rw [pieces_of_last hp] at h ⊢
    cases position with
    | zero =>
      obtain rfl := Option.some.inj h
      exact ⟨[], by simp, by simp, fun _ => rfl⟩
    | succ => simp at h
  | more p rest hp ih =>
    rw [pieces_append hp] at h ⊢
    cases position with
    | zero =>
      obtain rfl := Option.some.inj h
      refine ⟨'\n' :: rest, by simp, by simp, fun hlast => ?_⟩
      simp [rest.pieces_ne_nil] at hlast
    | succ position =>
      obtain ⟨later, hdrop, hlength, hlast⟩ := ih h
      refine ⟨later, ?_, ?_, fun hcount => hlast (Nat.succ.inj hcount)⟩
      · rw [pieceOffset_cons_succ, ← hdrop, ← List.drop_drop, ← List.drop_drop,
          List.drop_left]
        rfl
      · rw [pieceOffset_cons_succ]
        simp only [List.length_append, List.length_cons] at hlength ⊢
        omega

/-! ## What stands in front of a piece -/

/-- The pieces in front of a position, each with the line feed that follows it. -/
def front (pieces : List Text) (position : Nat) : Text :=
  (pieces.take position).flatMap (· ++ ['\n'])

theorem front_cons_succ (piece : Text) (pieces : List Text) (position : Nat) :
    front (piece :: pieces) (position + 1) = piece ++ '\n' :: front pieces position := by
  simp [front]

/-- Up to a place on a piece, a text holds the pieces before it and the beginning of the piece. -/
theorem take_pieceOffset {text piece : Text} {position column : Nat}
    (h : text.pieces[position]? = some piece) (hcolumn : column ≤ piece.length) :
    text.take (pieceOffset text.pieces position + column) =
      front text.pieces position ++ piece.take column := by
  induction text using induction_on_pieces generalizing position with
  | last p hp =>
    rw [pieces_of_last hp] at h ⊢
    cases position with
    | zero =>
      obtain rfl := Option.some.inj h
      simp [front]
    | succ => simp at h
  | more p rest hp ih =>
    rw [pieces_append hp] at h ⊢
    cases position with
    | zero =>
      obtain rfl := Option.some.inj h
      rw [pieceOffset_zero, Nat.zero_add, List.take_append_of_le_length hcolumn]
      simp [front]
    | succ position =>
      rw [pieceOffset_cons_succ, front_cons_succ, List.append_assoc, List.cons_append, ← ih h,
        Nat.add_assoc, Nat.add_assoc, List.take_length_add_append, Nat.add_comm 1,
        List.take_succ_cons]

theorem count_front {pieces : List Text} (h : ∀ piece ∈ pieces, '\n' ∉ piece) {position : Nat}
    (hle : position ≤ pieces.length) : (front pieces position).count '\n' = position := by
  have hone : (pieces.take position).map (List.count '\n' ∘ (· ++ ['\n'])) =
      (pieces.take position).map fun _ => 1 := by
    refine List.map_congr_left fun piece hpiece => ?_
    rw [Function.comp_apply, List.count_append,
      List.count_eq_zero.2 (h piece (List.mem_of_mem_take hpiece))]
    rfl
  rw [front, List.count_flatMap, hone, List.map_const', List.sum_replicate_nat,
    List.length_take, Nat.min_eq_left hle, Nat.mul_one]

/-- Behind the last line feed in front of a place on a piece is the beginning of the piece. -/
theorem rtakeWhile_front (pieces : List Text) (position : Nat) {part : Text} (h : '\n' ∉ part) :
    (front pieces position ++ part).rtakeWhile (· != '\n') = part := by
  have hpart : ∀ c ∈ part.reverse, (c != '\n') = true := fun c hc =>
    bne_iff_ne.2 (ne_of_mem_of_not_mem (List.mem_reverse.1 hc) h)
  -- What is in front of the piece is empty or ends with a line feed.
  have hstop : (front pieces position).reverse.takeWhile (· != '\n') = [] := by
    rw [front]
    rcases List.eq_nil_or_concat (pieces.take position) with hnil | ⟨before, piece, hconcat⟩
    · simp [hnil]
    · simp [hconcat]
  rw [List.rtakeWhile, List.reverse_append, List.takeWhile_append_of_pos hpart, hstop,
    List.append_nil, List.reverse_reverse]

end LiveCheck.Text
