import LiveCheck.Viewer.SourceState
import LiveCheck.Proofs.Source.LineIndex
import LiveCheck.Proofs.Text.Line

/-!
# The lines that a viewer shows

A viewer takes its lines from `Text.lines`, and diagnostics are placed by the lines of a line index,
which are the pieces between line feeds. The two agree on a text exactly if nothing but line feeds
breaks its lines (`SourceState.linesAgree_iff`): every other line break splits a piece, so that the
viewer never shows the whole of it.
-/

namespace LiveCheck

namespace Text

/-- A text that only line feeds break has its pieces as lines, except for an empty last one. -/
theorem getElem?_lines {text : Text} (h : ∀ c ∈ text, isLineBreak c → c = '\n') (k : Nat) :
    text.lines[k]? =
      if k + 1 = text.pieces.length ∧ text.pieces.getLast? = some [] then none
      else text.pieces[k]? := by
  induction text using induction_on_pieces generalizing k with
  | last piece hpiece =>
    rw [pieces_of_last hpiece]
    by_cases hne : piece = []
    · subst hne
      cases k <;> simp [lines]
    · rw [lines_of_unbroken (fun c hc hbreak => hpiece (h c hc hbreak ▸ hc)) hne]
      simp [hne]
  | more piece rest hpiece ih =>
    have hunbroken : piece.Unbroken := fun c hc hbreak =>
      hpiece (h c (List.mem_append_left _ hc) hbreak ▸ hc)
    have hrest := ih fun c hc => h c (List.mem_append_right _ (List.mem_cons_of_mem _ hc))
    have hpos := List.length_pos_iff.2 rest.pieces_ne_nil
    rw [lines_line hunbroken, pieces_append hpiece, List.length_cons,
      List.getLast?_cons_of_ne_nil rest.pieces_ne_nil]
    cases k with
    | zero => rw [if_neg (by omega)]; rfl
    | succ k => simpa using hrest k

end Text

namespace SourceState

/-- The viewer shows the lines of a text as a line index has them, except for an empty last line. -/
structure LinesAgree (s : SourceState) (text : Text) : Prop where
  /-- A line of the index is shown as what the text holds between its ends. -/
  inside : ∀ line : Int, 1 ≤ line → line ≤ (LineIndex.ofText text).lineCount →
    ∃ start stop, (LineIndex.ofText text).lineStart line = .ok start ∧
      (LineIndex.ofText text).lineEnd line = .ok stop ∧
      s.line? line =
        if line = (LineIndex.ofText text).lineCount ∧ (text = [] ∨ text.getLast? = some '\n')
        then none else some ((text.take stop).drop start)
  /-- There are no other lines. -/
  outside : ∀ line : Int, ¬(1 ≤ line ∧ line ≤ (LineIndex.ofText text).lineCount) →
    s.line? line = none

theorem line?_setSource (s : SourceState) (text : Text) (line : Int) :
    (s.setSource text).line? line = if 1 ≤ line then text.lines[(line - 1).toNat]? else none := by
  rw [line?, setSource]
  by_cases hpos : 1 ≤ line
  · rw [if_pos hpos]
    refine ite_eq_left_iff.2 fun hlast => (List.getElem?_eq_none_iff.2 ?_).symm
    omega
  · rw [if_neg hpos, if_neg (by omega)]

/-- The viewer and the line index agree on a text if its lines are its pieces. -/
theorem linesAgree_iff_pieces {text : Text} (hreturn : '\r' ∉ text) (s : SourceState) :
    (s.setSource text).LinesAgree text ↔ ∀ k : Nat, text.lines[k]? =
      if k + 1 = text.pieces.length ∧ text.pieces.getLast? = some [] then none
      else text.pieces[k]? := by
  have hcount := LineIndex.lineCount_ofText text
  -- Without carriage returns the index cuts the text at its line feeds.
  have hslice : ∀ {k : Nat} {piece : Text}, text.pieces[k]? = some piece →
      (text.take ((LineIndex.ofText text).endAt k)).drop ((LineIndex.ofText text).startAt k) =
        piece := fun hpiece => by
    have hmem := List.mem_of_getElem? hpiece
    rw [LineIndex.slice_ofText hpiece,
      Text.dropReturn_of_not_mem fun hc => hreturn (Text.mem_of_mem_pieces hmem hc)]
  constructor
  · intro h k
    -- Inside the index both sides give a line; beyond it the viewer must not show one.
    by_cases hk : k < text.pieces.length
    · obtain ⟨start, stop, hstart, hstop, hline⟩ := h.inside (k + 1) (by omega) (by omega)
      obtain ⟨piece, hpiece, -, rfl⟩ := LineIndex.atLine_ofText.1 hstart
      obtain ⟨-, -, -, rfl⟩ := LineIndex.atLine_ofText.1 hstop
      rw [line?_setSource, if_pos (by omega), hslice hpiece, hcount] at hline
      rw [Int.add_sub_cancel, Int.toNat_natCast] at hline hpiece
      rw [hline, hpiece]
      exact if_congr (and_congr (by omega) text.getLast?_pieces.symm) rfl rfl
    · have hline := h.outside (k + 1) (by omega)
      rw [line?_setSource, if_pos (by omega), Int.add_sub_cancel, Int.toNat_natCast] at hline
      rw [hline, List.getElem?_eq_none_iff.2 (by omega), ite_self]
  · intro h
    refine ⟨fun line hpos hle => ?_, fun line hline => ?_⟩
    · have hpiece := List.getElem?_eq_getElem (l := text.pieces) (i := (line - 1).toNat) (by omega)
      refine ⟨_, _, LineIndex.atLine_ofText.2 ⟨_, hpiece, hpos, rfl⟩,
        LineIndex.atLine_ofText.2 ⟨_, hpiece, hpos, rfl⟩, ?_⟩
      rw [line?_setSource, if_pos hpos, h, hslice hpiece, hcount, hpiece]
      exact if_congr (and_congr (by omega) text.getLast?_pieces) rfl rfl
    · rw [line?_setSource]
      split
      · rw [h, List.getElem?_eq_none_iff.2 (by omega), ite_self]
      · rfl

/-- The viewer and the line index agree on a text exactly if only line feeds break its lines. -/
theorem linesAgree_iff {text : Text} (hreturn : '\r' ∉ text) (s : SourceState) :
    (s.setSource text).LinesAgree text ↔ ∀ c ∈ text, isLineBreak c → c = '\n' := by
  rw [linesAgree_iff_pieces hreturn]
  refine ⟨fun h c hc hbreak => ?_, Text.getElem?_lines⟩
  by_contra hne
  -- The piece around any other line break is shown as a line, which has no line breaks.
  obtain ⟨piece, hmem, hcpiece⟩ := Text.exists_piece_of_mem hc hne
  obtain ⟨k, hpiece⟩ := List.mem_iff_getElem?.1 hmem
  have hline := h k
  rw [hpiece, if_neg] at hline
  · exact Text.unbroken_of_mem_lines (List.mem_of_getElem? hline) c hcpiece hbreak
  · rintro ⟨hlast, hempty⟩
    rw [List.getLast?_eq_getElem?, ← hlast, Nat.add_sub_cancel, hpiece] at hempty
    obtain rfl := Option.some.inj hempty
    exact absurd hcpiece List.not_mem_nil

/-- A text with an empty line inside and another one at its end. -/
theorem linesAgree_of_line_feeds : let text : Text := "a\n\n b\n".toList
    '\r' ∉ text ∧ (∀ c ∈ text, isLineBreak c → c = '\n') ∧
      (({} : SourceState).setSource text).LinesAgree text := by
  have hreturn : '\r' ∉ "a\n\n b\n".toList := by decide +kernel
  have hall : "a\n\n b\n".toList.all fun c => isLineBreak c → c = '\n' := by decide +kernel
  have hbreaks : ∀ c ∈ "a\n\n b\n".toList, isLineBreak c → c = '\n' := fun c hc =>
    of_decide_eq_true (List.all_eq_true.1 hall c hc)
  exact ⟨hreturn, hbreaks, (linesAgree_iff hreturn _).2 hbreaks⟩

/-- A form feed breaks the first line of the index, so its second one is shown as the third. -/
theorem not_linesAgree_of_form_feed : let text : Text := "a\x0cb\nc".toList
    let s : SourceState := ({} : SourceState).setSource text
    '\r' ∉ text ∧ s.line? 1 = some "a".toList ∧ s.line? 2 = some "b".toList ∧
      s.line? 3 = some "c".toList ∧ ¬s.LinesAgree text := by
  intro text s
  refine ⟨by decide +kernel, by decide +kernel, by decide +kernel, by decide +kernel, fun h => ?_⟩
  have hcount : (LineIndex.ofText text).lineCount = 2 := by decide +kernel
  have hline : s.line? 3 = none := h.outside 3 (by rw [hcount]; decide)
  exact absurd hline (by decide +kernel)

end SourceState

end LiveCheck
