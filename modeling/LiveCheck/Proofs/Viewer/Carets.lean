import LiveCheck.Machine
import LiveCheck.Proofs.Text.Piece
import LiveCheck.Proofs.Viewer.Peek
import Mathlib.Data.Finset.Max

/-!
# Carets under the columns

The peek panel of a line has one row for the line, one with the carets, and one for each message
(`Peek.pieces_panel`). In its own part, the row of carets has one at every column and nowhere else
(`Peek.getElem?_caretRow`).

The gutter in front of the line takes eight characters for numbers of up to five digits, and more
for longer ones; the gutter in front of the carets always takes eight. So the carets stand under
their columns exactly if the number of the line has no more than five digits
(`Peek.caretsUnder_iff`). Otherwise they stand too far to the left.
-/

namespace LiveCheck

namespace Text

theorem length_alignRight (width : Nat) (text : Text) :
    (alignRight width text).length = max width text.length := by
  rw [alignRight, List.length_append, List.length_replicate]
  omega

/-- Pieces that each have a line feed behind them, and the empty last one. -/
theorem pieces_flatMap {rows : List Text} (h : ∀ row ∈ rows, '\n' ∉ row) :
    pieces (rows.flatMap (· ++ ['\n'])) = rows ++ [[]] := by
  induction rows with
  | nil => exact pieces_of_last List.not_mem_nil
  | cons row rest ih =>
    obtain ⟨hrow, hrest⟩ := List.forall_mem_cons.1 h
    rw [List.flatMap_cons, List.append_assoc, List.singleton_append, pieces_append hrow, ih hrest,
      List.cons_append]

end Text

namespace Peek

variable {room line : Int} {code : Text} {diagnostics : List Diagnostic} {shown t : StyledText}
  {row next carets : Text} {column : Int} {columns : List Int} {d : Diagnostic}

/-! ## The row of carets -/

/-- A caret is put into a row that is long enough for it. -/
theorem putCaret_eq_ok (hcolumn : 0 ≤ column) (h : putCaret row column = .ok next) :
    column < row.length ∧ next = row.set column.toNat '^' := by
  by_cases hlt : column < row.length
  · rw [putCaret_of_lt hcolumn hlt] at h
    exact ⟨hlt, (Except.ok.inj h).symm⟩
  · simp only [putCaret, if_neg (Int.not_lt.2 hcolumn)] at h
    rw [if_neg fun hplace => hlt hplace.2] at h
    split at h <;> cases h

/-- Carets are put at the columns, and the rest of the row stays as it is. -/
theorem getElem?_putCarets (hcolumns : ∀ c ∈ columns, 0 ≤ c)
    (h : columns.foldlM putCaret row = .ok carets) (i : Nat) :
    carets[i]? = if (i : Int) ∈ columns then some '^' else row[i]? := by
  induction columns generalizing row with
  | nil =>
    obtain rfl := Except.ok.inj h
    rfl
  | cons column rest ih =>
    obtain ⟨hcolumn, hrest⟩ := List.forall_mem_cons.1 hcolumns
    rw [List.foldlM_cons] at h
    cases hput : putCaret row column with
    | error fault => rw [hput] at h; cases h
    | ok next =>
      obtain ⟨hlt, rfl⟩ := putCaret_eq_ok hcolumn hput
      rw [hput] at h
      rw [ih hrest h]
      -- A caret that was put stays: the others are put at places of their own or on it again.
      by_cases hi : (i : Int) = column
      · subst hi
        rw [Int.toNat_natCast, List.getElem?_set_self (by omega), if_pos List.mem_cons_self,
          ite_self]
      · rw [List.getElem?_set_ne (by omega)]
        simp only [List.mem_cons, hi, false_or]

/-- The row of carets is made if the columns leave room for it. It is blank but for the carets. -/
theorem caretRow_eq_ok (hcolumns : ∀ c ∈ columns, 0 ≤ c) (h : caretRow room columns = .ok carets) :
    (∀ c ∈ columns, c + 1 < room ∧ c + 1 < indexLimit) ∧ ∃ width, ∀ i : Nat,
      carets[i]? = if (i : Int) ∈ columns then some '^' else (List.replicate width ' ')[i]? := by
  simp only [caretRow] at h
  split at h
  · cases h
  split at h
  · cases h
  · refine ⟨fun c hc => ?_, (columns.foldl max (columns.headD 0) + 1).toNat, fun i => ?_⟩
    · have : c ≤ columns.foldl max (columns.headD 0) := le_foldl_max (.inr hc)
      omega
    · rw [getElem?_putCarets (fun c hc => hcolumns c (List.mem_mergeSort.1 hc)) h]
      exact if_congr List.mem_mergeSort rfl rfl

/-- The row of carets has one at every column and nowhere else. -/
theorem getElem?_caretRow (hcolumns : ∀ c ∈ columns, 0 ≤ c) (h : caretRow room columns = .ok carets)
    (i : Nat) : carets[i]? = some '^' ↔ (i : Int) ∈ columns := by
  obtain ⟨-, width, hcarets⟩ := caretRow_eq_ok hcolumns h
  rw [hcarets]
  split
  · exact iff_of_true rfl ‹_›
  · refine iff_of_false (fun hblank => ?_) ‹_›
    exact absurd (List.eq_of_mem_replicate (List.mem_of_getElem? hblank)) (by decide)

/-- A row of carets holds blanks and carets. -/
theorem uncontrolled_caretRow (hcolumns : ∀ c ∈ columns, 0 ≤ c)
    (h : caretRow room columns = .ok carets) : carets.Uncontrolled := fun c hc => by
  obtain ⟨-, width, hcarets⟩ := caretRow_eq_ok hcolumns h
  obtain ⟨i, hi⟩ := List.mem_iff_getElem?.1 hc
  rw [hcarets] at hi
  split at hi
  · obtain rfl := Option.some.inj hi
    decide
  · rw [List.eq_of_mem_replicate (List.mem_of_getElem? hi)]
    decide

/-! ## The rows of the panel -/

/-- What stands in front of the message of a column. -/
def place (column : Int) : Text :=
  "  col ".toList ++ Text.alignRight 3 (decimal (column + 1)) ++ [' ', ' ']

/-- The row of a message. -/
def messageRow (d : Diagnostic) : Text := place d.column ++ d.message

theorem uncontrolled_place (column : Int) : (place column).Uncontrolled :=
  Text.uncontrolled_append.2 ⟨Text.uncontrolled_append.2
    ⟨by decide, Text.uncontrolled_alignRight (Text.uncontrolled_decimal _) 3⟩, by decide⟩

theorem uncontrolled_messageRow (h : d.message.Uncontrolled) : (messageRow d).Uncontrolled :=
  Text.uncontrolled_append.2 ⟨uncontrolled_place _, h⟩

theorem plain_appendMessage (h : d.message.Uncontrolled) (hshown : appendMessage t d = .ok shown) :
    shown.plain = t.plain ++ (messageRow d ++ ['\n']) := by
  have hplace : shown = (t.append (place d.column) (some "dim")
      |>.append d.message (some "red") |>.append ['\n']) := by
    rw [appendMessage, writeDecimal] at hshown
    split at hshown
    · cases hshown
    · rename_i hnumeral
      split at hnumeral
      · obtain rfl := Except.ok.inj hnumeral
        exact (Except.ok.inj hshown).symm
      · cases hnumeral
  rw [hplace, StyledText.plain_append _ (by decide), StyledText.plain_append_uncontrolled _ h,
    StyledText.plain_append_uncontrolled _ (uncontrolled_place _), messageRow]
  simp only [List.append_assoc]

/-- The messages stand on rows of their own. -/
theorem plain_messages (h : ∀ d ∈ diagnostics, d.message.Uncontrolled)
    (hshown : diagnostics.foldlM appendMessage t = .ok shown) :
    shown.plain = t.plain ++ (diagnostics.map messageRow).flatMap (· ++ ['\n']) := by
  induction diagnostics generalizing t with
  | nil =>
    obtain rfl := Except.ok.inj hshown
    exact (List.append_nil _).symm
  | cons d rest ih =>
    obtain ⟨hd, hrest⟩ := List.forall_mem_cons.1 h
    rw [List.foldlM_cons] at hshown
    cases hnext : appendMessage t d with
    | error fault => rw [hnext] at hshown; cases hshown
    | ok next =>
      rw [hnext] at hshown
      rw [ih hrest hshown, plain_appendMessage hd hnext, List.map_cons, List.flatMap_cons,
        List.append_assoc]

/-- The context is the line of code with the row of carets under it. -/
theorem plain_context (hcode : code.Uncontrolled) (hcolumns : ∀ d ∈ diagnostics, 0 ≤ d.column)
    (h : context room line code diagnostics = .ok t) :
    ∃ carets, caretRow room (diagnostics.map (·.column)) = .ok carets ∧ carets.Uncontrolled ∧
      t.plain = [gutter line ++ code, emptyGutter ++ carets].flatMap (· ++ ['\n']) := by
  rw [context] at h
  cases hcarets : caretRow room (diagnostics.map (·.column)) with
  | error fault => rw [hcarets] at h; cases h
  | ok carets =>
    rw [hcarets] at h
    obtain rfl := Except.ok.inj h
    have hrow := uncontrolled_caretRow (by simpa using hcolumns) hcarets
    refine ⟨carets, rfl, hrow, ?_⟩
    rw [StyledText.plain_append _ (by decide), StyledText.plain_append_uncontrolled _ hrow,
      StyledText.plain_append _ (by decide), StyledText.plain_append _ (by decide),
      StyledText.plain_append_uncontrolled _ hcode,
      StyledText.plain_append_uncontrolled _ (uncontrolled_gutter line)]
    simp

/-- The panel of a line with diagnostics has a row for the line, one with carets, and one for each
    message. -/
theorem pieces_panel (hcode : code.Uncontrolled) (hsome : diagnostics ≠ [])
    (hcolumns : ∀ d ∈ diagnostics, 0 ≤ d.column)
    (hmessages : ∀ d ∈ diagnostics, d.message.Uncontrolled)
    (h : panel room line (some code) diagnostics = .ok shown) :
    ∃ carets, caretRow room (diagnostics.map (·.column)) = .ok carets ∧ shown.plain.pieces =
      (gutter line ++ code) :: (emptyGutter ++ carets) :: (diagnostics.map messageRow ++ [[]]) := by
  rw [panel, if_neg (by simpa using hsome)] at h
  cases hcontext : context room line code diagnostics with
  | error fault => simp only [hcontext] at h; cases h
  | ok start =>
    simp only [hcontext] at h
    obtain ⟨carets, hcarets, hrow, hplain⟩ := plain_context hcode hcolumns hcontext
    refine ⟨carets, hcarets, ?_⟩
    -- No row holds a line feed, so the pieces of the panel are its rows.
    have hrows : ∀ row ∈ [gutter line ++ code, emptyGutter ++ carets] ++
        diagnostics.map messageRow, row.Uncontrolled := by
      simp only [List.forall_mem_append, List.forall_mem_cons, List.forall_mem_map]
      exact ⟨⟨Text.uncontrolled_append.2 ⟨uncontrolled_gutter line, hcode⟩,
        Text.uncontrolled_append.2 ⟨by decide, hrow⟩, List.forall_mem_nil _⟩,
        fun d hd => uncontrolled_messageRow (hmessages d hd)⟩
    rw [plain_messages hmessages h, hplain, ← List.flatMap_append,
      Text.pieces_flatMap fun row hrow => (hrows row hrow).not_mem]
    rfl

/-! ## Where the carets stand -/

/-- The gutter grows with the number of the line. -/
theorem length_gutter (line : Int) : (gutter line).length = max 5 (decimal line).length + 3 := by
  rw [gutter, List.length_append, Text.length_alignRight]
  rfl

/-- The gutter is as wide as that of the carets up to five digits. -/
theorem length_gutter_eq_iff (h : 1 ≤ line) : (gutter line).length = 8 ↔ line < 100000 := by
  have hdigits : (decimal line).length ≤ 5 ↔ line.natAbs < 10 ^ 5 := by
    rw [decimal, if_neg (by omega)]
    exact Nat.length_toDigits_le_iff (by decide) (by decide)
  rw [length_gutter]
  omega

/-- The panel shows the line, a row with a caret under every column and nowhere else, and the
    messages. -/
def CaretsUnder (line : Int) (code : Text) (diagnostics : List Diagnostic) (shown : StyledText) :
    Prop :=
  ∃ carets : Text, shown.plain.pieces =
      (gutter line ++ code) :: carets :: (diagnostics.map messageRow ++ [[]]) ∧
    ∀ i : Nat, carets[i]? = some '^' ↔
      ∃ d ∈ diagnostics, (i : Int) = (gutter line).length + d.column

/-- The carets stand behind a gutter of eight characters. -/
theorem getElem?_emptyGutter_append (hcolumns : ∀ d ∈ diagnostics, 0 ≤ d.column)
    (h : caretRow room (diagnostics.map (·.column)) = .ok carets) (i : Nat) :
    (emptyGutter ++ carets)[i]? = some '^' ↔ ∃ d ∈ diagnostics, (i : Int) = 8 + d.column := by
  have hlength : emptyGutter.length = 8 := rfl
  by_cases hi : i < 8
  · rw [List.getElem?_append_left (by omega)]
    refine iff_of_false (fun hcaret => ?_) ?_
    · exact absurd (List.mem_of_getElem? hcaret) (by decide)
    · rintro ⟨d, hd, hcolumn⟩
      have := hcolumns d hd
      omega
  · rw [List.getElem?_append_right (by omega), hlength,
      getElem?_caretRow (by simpa using hcolumns) h, List.mem_map]
    exact exists_congr fun d => and_congr_right fun _ => by omega

/-- Carets that are put behind another gutter stand elsewhere: there is none as far to the right as
    the greatest column. -/
theorem length_gutter_of_caretsUnder (hcode : code.Uncontrolled) (hsome : diagnostics ≠ [])
    (hcolumns : ∀ d ∈ diagnostics, 0 ≤ d.column)
    (hmessages : ∀ d ∈ diagnostics, d.message.Uncontrolled)
    (h : panel room line (some code) diagnostics = .ok shown)
    (hunder : CaretsUnder line code diagnostics shown) : (gutter line).length = 8 := by
  obtain ⟨carets, hcarets, hpieces⟩ := pieces_panel hcode hsome hcolumns hmessages h
  obtain ⟨row, hrows, hplaces⟩ := hunder
  obtain rfl : emptyGutter ++ carets = row := by
    rw [hpieces] at hrows
    exact (List.cons.inj (List.cons.inj hrows).2).1
  obtain ⟨d, hd, hgreatest⟩ : ∃ d ∈ diagnostics, ∀ e ∈ diagnostics, e.column ≤ d.column := by
    simpa using Finset.exists_max_image diagnostics.toFinset (·.column)
      (List.toFinset_nonempty_iff _ |>.2 hsome)
  have hcolumn := hcolumns d hd
  have hcaret := (hplaces ((gutter line).length + d.column.toNat)).2 ⟨d, hd, by omega⟩
  obtain ⟨e, he, hplace⟩ := (getElem?_emptyGutter_append hcolumns hcarets _).1 hcaret
  have hle := hgreatest e he
  rw [length_gutter] at hplace ⊢
  omega

/-- **Where the carets stand under their columns.** If a line has diagnostics, its panel can be made
    and shows the line, a row with a caret under every column of a diagnostic and nowhere else, and
    the messages in the order of the diagnostics, exactly if the number of the line has no more than
    five digits and there is room for the row of carets. -/
theorem caretsUnder_iff (hline : 1 ≤ line) (hcode : code.Uncontrolled) (hsome : diagnostics ≠ [])
    (hcolumns : ∀ d ∈ diagnostics, 0 ≤ d.column)
    (hmessages : ∀ d ∈ diagnostics, d.message.Uncontrolled) :
    (∃ shown, panel room line (some code) diagnostics = .ok shown ∧
      CaretsUnder line code diagnostics shown) ↔
    line < 100000 ∧ HasRoom room diagnostics := by
  constructor
  · -- Some diagnostic has a caret, and it is under its column only if both rows begin alike.
    rintro ⟨shown, h, hunder⟩
    refine ⟨(length_gutter_eq_iff hline).1
      (length_gutter_of_caretsUnder hcode hsome hcolumns hmessages h hunder), ?_⟩
    obtain ⟨carets, hcarets, -⟩ := pieces_panel hcode hsome hcolumns hmessages h
    simpa [HasRoom] using (caretRow_eq_ok (by simpa using hcolumns) hcarets).1
  · rintro ⟨hshort, hroom⟩
    obtain ⟨shown, h⟩ := exists_panel line (some code) hcolumns hroom
    obtain ⟨carets, hcarets, hpieces⟩ := pieces_panel hcode hsome hcolumns hmessages h
    refine ⟨shown, h, _, hpieces, fun i => ?_⟩
    rw [(length_gutter_eq_iff hline).2 hshort]
    exact getElem?_emptyGutter_append hcolumns hcarets i

/-- The last line number of five digits, with columns out of order, repeated and past the end of the
    line. -/
theorem caretsUnder_of_five_digits :
    let code : Text := "x = y + z;".toList
    let diagnostics : List Diagnostic := [8, 4, 8, 30].map fun column =>
      ⟨"m.gms".toList, 0, 1, errorSeverity, "Unknown".toList, 99999, column, "140".toList⟩
    code.Uncontrolled ∧ (∀ d ∈ diagnostics, 0 ≤ d.column ∧ d.message.Uncontrolled) ∧
      ∃ shown, panel Machine.usual.width 99999 (some code) diagnostics = .ok shown ∧
        CaretsUnder 99999 code diagnostics shown := by
  intro code diagnostics
  have hcode : code.Uncontrolled := by decide
  have hcolumns : ∀ d ∈ diagnostics, 0 ≤ d.column := by decide
  have hmessages : ∀ d ∈ diagnostics, d.message.Uncontrolled := by decide
  exact ⟨hcode, fun d hd => ⟨hcolumns d hd, hmessages d hd⟩,
    (caretsUnder_iff (by decide) hcode (by decide) hcolumns hmessages).2 ⟨by decide, by decide⟩⟩

/-- From the first line number of six digits on, the only caret stands too far to the left. -/
theorem not_caretsUnder_of_six_digits :
    let code : Text := "x".toList
    let diagnostics : List Diagnostic :=
      [⟨"m.gms".toList, 0, 1, errorSeverity, "m".toList, 100000, 0, "140".toList⟩]
    code.Uncontrolled ∧ (∀ d ∈ diagnostics, 0 ≤ d.column ∧ d.message.Uncontrolled) ∧
      ∃ shown, panel Machine.usual.width 100000 (some code) diagnostics = .ok shown ∧
        shown.plain = "100000 │ x\n      │ ^\n  col   1  m\n".toList ∧
        ¬CaretsUnder 100000 code diagnostics shown := by
  intro code diagnostics
  have hcode : code.Uncontrolled := by decide
  have hcolumns : ∀ d ∈ diagnostics, 0 ≤ d.column := by decide
  have hmessages : ∀ d ∈ diagnostics, d.message.Uncontrolled := by decide
  have hplain : (panel Machine.usual.width 100000 (some code) diagnostics).map (·.plain) =
      .ok "100000 │ x\n      │ ^\n  col   1  m\n".toList := by decide +kernel
  have hroom : HasRoom Machine.usual.width diagnostics := by decide
  obtain ⟨shown, h⟩ := exists_panel 100000 (some code) hcolumns hroom
  rw [h] at hplain
  refine ⟨hcode, fun d hd => ⟨hcolumns d hd, hmessages d hd⟩, shown, h, Except.ok.inj hplain,
    fun hunder => ?_⟩
  exact absurd (length_gutter_of_caretsUnder hcode (by decide) hcolumns hmessages h hunder)
    (by decide)

end Peek

end LiveCheck
