import LiveCheck.Proofs.Source.Placing
import LiveCheck.Text.Line
import Mathlib.Data.List.Forall2

/-!
# Carriage returns

Where every carriage return has a line feed right behind it (`Text.ReturnsPaired`), the lines of a
line index are those of the text without carriage returns (`Text.pieces_withoutReturns`). A record
therefore stands in the same line and column of both texts, and its offsets differ by the carriage
returns in front of it (`Record.place_withoutReturns`).

Reading a text from a file unifies its line ends, which takes just these carriage returns away. So a
check of the text of an editor and a check of the saved file lead to the same lines and columns
(`placeRecords_withoutReturns`).
-/

namespace LiveCheck

namespace Text

/-- Every carriage return has a line feed right behind it. -/
def ReturnsPaired (text : Text) : Prop :=
  ∀ i < text.length, text[i]? = some '\r' → text[i + 1]? = some '\n'

instance (text : Text) : Decidable text.ReturnsPaired :=
  inferInstanceAs (Decidable (∀ i < text.length, _))

/-- The text without its carriage returns. -/
def withoutReturns (text : Text) : Text := text.filter (· != '\r')

theorem not_mem_withoutReturns (text : Text) : '\r' ∉ text.withoutReturns := by
  simp [withoutReturns]

theorem withoutReturns_subset (text : Text) : text.withoutReturns ⊆ text :=
  List.filter_sublist.subset

/-! ## Pairs of a return and a feed -/

theorem ReturnsPaired.head_behind {before rest : Text}
    (h : ReturnsPaired (before ++ '\r' :: rest)) : rest.head? = some '\n' := by
  have hfeed := h before.length (by simp) (by simp)
  rwa [List.getElem?_append_right (by omega), Nat.add_sub_cancel_left, List.getElem?_cons_succ,
    ← List.head?_eq_getElem?] at hfeed

theorem ReturnsPaired.behind {before rest : Text} {c : Char}
    (h : ReturnsPaired (before ++ c :: rest)) : rest.ReturnsPaired := by
  intro i hi hreturn
  have hplace : ∀ k, (before ++ c :: rest)[before.length + 1 + k]? = rest[k]? := by
    intro k
    rw [List.getElem?_append_right (by omega), Nat.add_assoc, Nat.add_sub_cancel_left,
      Nat.add_comm 1, List.getElem?_cons_succ]
  have hfeed := h (before.length + 1 + i) (by simp; omega)
  rw [Nat.add_assoc (before.length + 1), hplace, hplace] at hfeed
  exact hfeed hreturn

theorem ReturnsPaired.not_mem_last {piece : Text} (h : piece.ReturnsPaired)
    (hpiece : '\n' ∉ piece) : '\r' ∉ piece := by
  intro hreturn
  obtain ⟨before, rest, rfl⟩ := List.append_of_mem hreturn
  refine hpiece (List.mem_append_right _ (List.mem_cons_of_mem _ ?_))
  exact List.mem_of_mem_head? h.head_behind

/-- A piece has a carriage return at its end only. -/
theorem ReturnsPaired.not_mem_dropLast {piece rest : Text}
    (h : ReturnsPaired (piece ++ '\n' :: rest)) (hpiece : '\n' ∉ piece) :
    '\r' ∉ piece.dropLast := by
  intro hreturn
  have hne : piece ≠ [] := by
    rintro rfl
    exact absurd hreturn List.not_mem_nil
  obtain ⟨before, later, hsplit⟩ := List.append_of_mem hreturn
  have hwhole := List.dropLast_append_getLast hne
  rw [hsplit, List.append_assoc, List.cons_append] at hwhole
  rw [← hwhole, List.append_assoc, List.cons_append] at h
  -- What stands behind the return is still in the piece, so it is no line feed.
  have hhead : (later ++ [piece.getLast hne]).head? = some '\n' := by
    have := h.head_behind
    rwa [List.head?_append_of_ne_nil _ (by simp)] at this
  refine hpiece (hwhole ▸ List.mem_append_right _ (List.mem_cons_of_mem _ ?_))
  exact List.mem_of_mem_head? hhead

/-! ## Pieces -/

theorem withoutReturns_eq_dropReturn {piece : Text} (h : '\r' ∉ piece.dropLast) :
    piece.withoutReturns = piece.dropReturn := by
  rcases List.eq_nil_or_concat piece with rfl | ⟨before, c, rfl⟩
  · rfl
  · rw [List.concat_eq_append] at h ⊢
    rw [List.dropLast_concat] at h
    have hbefore : before.filter (· != '\r') = before :=
      List.filter_eq_self.2 fun d hd => bne_iff_ne.2 (ne_of_mem_of_not_mem hd h)
    rw [withoutReturns, dropReturn, List.filter_append, hbefore, List.getLast?_concat,
      List.dropLast_concat]
    by_cases hc : c = '\r' <;> simp [hc]

/-- Every piece is without carriage returns but at its end. -/
theorem ReturnsPaired.withoutReturns_piece {text piece : Text} (h : text.ReturnsPaired)
    (hpiece : piece ∈ text.pieces) : piece.withoutReturns = piece.dropReturn := by
  induction text using induction_on_pieces with
  | last p hp =>
    rw [pieces_of_last hp, List.mem_singleton] at hpiece
    subst hpiece
    exact withoutReturns_eq_dropReturn fun hmem =>
      h.not_mem_last hp (List.dropLast_subset _ hmem)
  | more p rest hp ih =>
    rw [pieces_append hp] at hpiece
    rcases List.mem_cons.1 hpiece with rfl | hpiece
    · exact withoutReturns_eq_dropReturn (h.not_mem_dropLast hp)
    · exact ih h.behind hpiece

/-- Without carriage returns, a text has the same pieces but for the returns at their ends. -/
theorem pieces_withoutReturns {text : Text} (h : text.ReturnsPaired) :
    text.withoutReturns.pieces = text.pieces.map dropReturn := by
  have hpieces : text.withoutReturns.pieces = text.pieces.map withoutReturns := by
    induction text using induction_on_pieces with
    | last p hp =>
      rw [pieces_of_last hp, pieces_of_last fun hmem => hp (withoutReturns_subset p hmem)]
      rfl
    | more p rest hp ih =>
      have hsplit : (p ++ '\n' :: rest).withoutReturns =
          p.withoutReturns ++ '\n' :: rest.withoutReturns := by
        simp [withoutReturns]
      rw [hsplit, pieces_append fun hmem => hp (withoutReturns_subset p hmem), ih h.behind,
        pieces_append hp, List.map_cons]
  rw [hpieces]
  exact List.map_congr_left fun piece => h.withoutReturns_piece

/-- A piece stands behind the carriage returns in front of it. -/
theorem pieceOffset_withoutReturns {pieces : List Text}
    (h : ∀ piece ∈ pieces, piece.withoutReturns = piece.dropReturn) (position : Nat) :
    pieceOffset pieces position =
      pieceOffset (pieces.map dropReturn) position + (front pieces position).count '\r' := by
  induction pieces generalizing position with
  | nil => simp [pieceOffset, front]
  | cons piece pieces ih =>
    cases position with
    | zero => simp [front]
    | succ position =>
      have hlength : piece.length = piece.dropReturn.length + piece.count '\r' := by
        rw [← h piece List.mem_cons_self, withoutReturns, List.count,
          List.length_eq_countP_add_countP (· != '\r'), List.countP_eq_length_filter]
        congr 1
        exact List.countP_congr fun c _ => by simp
      have ih := ih (fun p hp => h p (List.mem_cons_of_mem _ hp)) position
      rw [List.map_cons, pieceOffset_cons_succ, pieceOffset_cons_succ, front_cons_succ,
        List.count_append, List.count_cons_of_ne (by decide), hlength, ih]
      omega

/-- Unifying line ends takes the carriage returns away. -/
theorem unifyNewlines_eq_withoutReturns {text : Text} (h : text.ReturnsPaired) :
    text.unifyNewlines = text.withoutReturns := by
  fun_induction unifyNewlines text with
  | case1 => rfl
  | case2 rest ih =>
    rw [ih (@ReturnsPaired.behind ['\r'] rest '\n' h)]
    rfl
  | case3 rest hnot ih =>
    -- The carriage return would have no line feed behind it.
    obtain ⟨later, rfl⟩ := List.head?_eq_some_iff.1 (@ReturnsPaired.head_behind [] rest h)
    exact absurd rfl (hnot later)
  | case4 c rest _ hc ih =>
    rw [ih (@ReturnsPaired.behind [] rest c h)]
    simp [withoutReturns, show c ≠ '\r' from hc]

end Text

/-! ## Records -/

/-- The first diagnostic is the second one, moved by the carriage returns in front of it. -/
structure Diagnostic.MovedByReturns (text : Text) (d e : Diagnostic) : Prop where
  source : d.source = e.source
  line : d.line = e.line
  column : d.column = e.column
  message : d.message = e.message
  severity : d.severity = e.severity
  code : d.code = e.code
  nonneg : 0 ≤ e.startOffset
  startOffset : d.startOffset = e.startOffset + (text.take d.startOffset.toNat).count '\r'

/-- A record has a place on a text if it has one on the text without carriage returns, where it is
    the same but for the returns in front of it. -/
theorem Record.place_withoutReturns {text : Text} (h : text.ReturnsPaired) (r : Record)
    (source : Text) :
    (∃ d e, r.place (.ofText text) source = .ok d ∧
      r.place (.ofText text.withoutReturns) source = .ok e ∧ d.MovedByReturns text e) ∨
    ∃ fault, r.place (.ofText text) source = .error fault ∧
      r.place (.ofText text.withoutReturns) source = .error fault := by
  have hcount := LineIndex.lineCount_ofText text
  have hplain : (LineIndex.ofText text.withoutReturns).lineCount = text.pieces.length := by
    rw [LineIndex.lineCount_ofText, Text.pieces_withoutReturns h, List.length_map]
  by_cases hline : 1 ≤ r.line ∧ r.line ≤ text.pieces.length
  · obtain ⟨piece, hpiece⟩ : ∃ piece, text.pieces[(r.line - 1).toNat]? = some piece :=
      ⟨_, List.getElem?_eq_getElem (by omega)⟩
    have hsame : text.withoutReturns.pieces[(r.line - 1).toNat]? = some piece.dropReturn := by
      rw [Text.pieces_withoutReturns h, List.getElem?_map, hpiece, Option.map_some]
    have hreturn : '\r' ∉ piece.dropReturn := by
      rw [← h.withoutReturns_piece (List.mem_of_getElem? hpiece)]
      exact piece.not_mem_withoutReturns
    have hoffset := Text.pieceOffset_withoutReturns (fun _ => h.withoutReturns_piece)
      (r.line - 1).toNat
    refine .inl ⟨_, _, place_eq_ok.2 ⟨_, hpiece, hline.1, rfl⟩,
      place_eq_ok.2 ⟨_, hsame, hline.1, rfl⟩, ?_⟩
    rw [Text.dropReturn_of_not_mem hreturn, Text.pieces_withoutReturns h]
    refine ⟨rfl, rfl, rfl, rfl, rfl, rfl, ?_, ?_⟩
    · simp only [on]
      omega
    · -- The line has no carriage return, so all of them are in front of its piece.
      rw [take_on hpiece, List.count_append,
        List.count_eq_zero.2 fun hmem => hreturn (List.mem_of_mem_take hmem)]
      simp only [on]
      omega
  · refine .inr ⟨⟨r.line, text.pieces.length⟩, ?_, ?_⟩
    · rw [place_eq, LineIndex.atLine, hcount, if_neg hline]
    · rw [place_eq, LineIndex.atLine, hplain, if_neg hline]

end LiveCheck
