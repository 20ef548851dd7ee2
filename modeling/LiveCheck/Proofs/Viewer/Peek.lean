import LiveCheck.Viewer.Peek
import LiveCheck.Proofs.Source.Placing
import LiveCheck.Proofs.Viewer.StyledText

/-!
# The peek panel of placed diagnostics

A diagnostic that was placed onto a buffer has a column from zero up to the length of its line
(`column_of_placed`). So every caret has a place in its row, and the panel can be made for any line
and any such diagnostics, as long as the machine has room for the row (`Peek.exists_panel`).
-/

namespace LiveCheck

/-- The diagnostics were placed onto some buffer. -/
def Placed (diagnostics : List Diagnostic) : Prop :=
  ∃ records text source, diagnostics = placeRecords records text source

/-- The column of a diagnostic that was placed onto a buffer is at most the length of the buffer. -/
theorem column_of_placed {records : List Record} {text source : Text} {d : Diagnostic}
    (h : d ∈ placeRecords records text source) : 0 ≤ d.column ∧ d.column ≤ text.length := by
  obtain ⟨r, -, hplace⟩ := List.mem_filterMap.1 h
  obtain ⟨piece, hpiece, -, rfl⟩ := Record.place_eq_ok.1 (Except.toOption_eq_some_iff.1 hplace)
  have hle := LineIndex.endAt_le_length hpiece
  rw [LineIndex.endAt_ofText hpiece] at hle
  simp only [Record.on]
  omega

/-- Diagnostics that were placed have a column of their line. -/
theorem Placed.column_nonneg {diagnostics : List Diagnostic} {d : Diagnostic}
    (h : Placed diagnostics) (hd : d ∈ diagnostics) : 0 ≤ d.column := by
  obtain ⟨records, text, source, rfl⟩ := h
  exact (column_of_placed hd).1

theorem placed_nil : Placed [] := ⟨[], [], [], rfl⟩

namespace Peek

variable {room : Int}

/-- There is room for a row of carets up to the greatest column, and its length is one. -/
def HasRoom (room : Int) (diagnostics : List Diagnostic) : Prop :=
  ∀ d ∈ diagnostics, d.column + 1 < room ∧ d.column + 1 < indexLimit

instance (room : Int) (diagnostics : List Diagnostic) : Decidable (HasRoom room diagnostics) :=
  List.decidableBAll _ diagnostics

theorem uncontrolled_gutter (line : Int) : (gutter line).Uncontrolled :=
  Text.uncontrolled_append.2
    ⟨Text.uncontrolled_alignRight (Text.uncontrolled_decimal line) 5, by decide⟩

/-! ## Carets -/

/-- A caret can be put into a row that is long enough for it. -/
theorem putCaret_of_lt {row : Text} {column : Int} (h : 0 ≤ column) (hlt : column < row.length) :
    putCaret row column = .ok (row.set column.toNat '^') := by
  simp only [putCaret, if_neg (Int.not_lt.2 h)]
  exact if_pos ⟨h, hlt⟩

/-- Every caret finds its place in a row that is long enough. -/
theorem exists_putCarets {columns : List Int} {row : Text}
    (h : ∀ column ∈ columns, 0 ≤ column ∧ column < row.length) :
    ∃ carets, columns.foldlM putCaret row = .ok carets := by
  induction columns generalizing row with
  | nil => exact ⟨row, rfl⟩
  | cons column rest ih =>
    obtain ⟨hcolumn, hlt⟩ := h column List.mem_cons_self
    have hrest : ∀ c ∈ rest, 0 ≤ c ∧ c < (row.set column.toNat '^').length := fun c hc => by
      rw [List.length_set]
      exact h c (List.mem_cons_of_mem _ hc)
    obtain ⟨carets, hcarets⟩ := ih hrest
    exact ⟨carets, by rw [List.foldlM_cons, putCaret_of_lt hcolumn hlt]; exact hcarets⟩

theorem le_foldl_max {columns : List Int} {start column : Int}
    (h : column ≤ start ∨ column ∈ columns) : column ≤ columns.foldl max start := by
  induction columns generalizing start with
  | nil => exact h.resolve_right List.not_mem_nil
  | cons first rest ih =>
    rcases h with hle | h
    · exact ih (.inl (hle.trans (Int.le_max_left _ _)))
    · rcases List.mem_cons.1 h with rfl | h
      · exact ih (.inl (Int.le_max_right _ _))
      · exact ih (.inr h)

theorem foldl_max_lt {columns : List Int} {start limit : Int} (hstart : start < limit)
    (h : ∀ column ∈ columns, column < limit) : columns.foldl max start < limit := by
  induction columns generalizing start with
  | nil => exact hstart
  | cons first rest ih =>
    exact ih (max_lt hstart (h first List.mem_cons_self))
      fun column hc => h column (List.mem_cons_of_mem _ hc)

/-- There is a row of carets for columns that are not too large. -/
theorem exists_caretRow {columns : List Int} (hsome : columns ≠ [])
    (h : ∀ column ∈ columns, 0 ≤ column)
    (hroom : ∀ column ∈ columns, column + 1 < room ∧ column + 1 < indexLimit) :
    ∃ carets, caretRow room columns = .ok carets := by
  have hhead : columns.headD 0 ∈ columns := by
    cases columns with
    | nil => exact absurd rfl hsome
    | cons first rest => exact List.mem_cons_self
  -- The row is as long as the greatest column asks for.
  have hle : ∀ column ∈ columns, column ≤ columns.foldl max (columns.headD 0) :=
    fun column hc => le_foldl_max (.inr hc)
  have hlt : ∀ limit, (∀ column ∈ columns, column < limit) →
      columns.foldl max (columns.headD 0) < limit := fun limit hlimit =>
    foldl_max_lt (hlimit _ hhead) hlimit
  have hroomy := hlt (room - 1) fun column hc => by have := (hroom column hc).1; omega
  have hindex := hlt (indexLimit - 1) fun column hc => by have := (hroom column hc).2; omega
  have hnonneg := (h _ hhead).trans (hle _ hhead)
  have hlimit : 0 < indexLimit := by decide
  have hplaces : ∀ column ∈ columns.mergeSort (· ≤ ·), 0 ≤ column ∧ column <
      (List.replicate (columns.foldl max (columns.headD 0) + 1).toNat ' ').length :=
    fun column hc => by
      have hmem := List.mem_mergeSort.1 hc
      rw [List.length_replicate]
      exact ⟨h column hmem, by have := hle column hmem; omega⟩
  obtain ⟨carets, hcarets⟩ := exists_putCarets hplaces
  refine ⟨carets, ?_⟩
  simp only [caretRow]
  rw [if_neg (by omega), if_neg (by omega)]
  exact hcarets

/-! ## The panel -/

/-- Every number that can be a length can be written. -/
theorem exists_writeDecimal {n : Int} (h : 0 ≤ n) (hlt : n < indexLimit) :
    ∃ numeral, writeDecimal n = .ok numeral := by
  have hlength : (Nat.toDigits 10 n.natAbs).length ≤ 20 :=
    Nat.toDigits_length 10 n.natAbs 20 (by decide) (by rw [indexLimit] at hlt; omega)
  exact ⟨decimal n, if_pos (hlength.trans (by decide))⟩

/-- The messages can be shown if the machine can count their columns. -/
theorem exists_messages {diagnostics : List Diagnostic} (t : StyledText)
    (h : ∀ d ∈ diagnostics, 0 ≤ d.column ∧ d.column + 1 < indexLimit) :
    ∃ shown, diagnostics.foldlM appendMessage t = .ok shown := by
  induction diagnostics generalizing t with
  | nil => exact ⟨t, rfl⟩
  | cons d rest ih =>
    obtain ⟨hcolumn, hlt⟩ := h d List.mem_cons_self
    obtain ⟨numeral, hnumeral⟩ := exists_writeDecimal (n := d.column + 1) (by omega) hlt
    obtain ⟨next, hnext⟩ : ∃ next, appendMessage t d = .ok next := by
      rw [appendMessage, hnumeral]
      exact ⟨_, rfl⟩
    obtain ⟨shown, hshown⟩ := ih next fun d hd => h d (List.mem_cons_of_mem _ hd)
    exact ⟨shown, by rw [List.foldlM_cons, hnext]; exact hshown⟩

/-- The panel of a line can be made if no column of its diagnostics is negative and there is room
    for the row of carets. -/
theorem exists_panel (line : Int) (code : Option Text) {diagnostics : List Diagnostic}
    (h : ∀ d ∈ diagnostics, 0 ≤ d.column) (hroom : HasRoom room diagnostics) :
    ∃ shown, panel room line code diagnostics = .ok shown := by
  have hmessages : ∀ d ∈ diagnostics, 0 ≤ d.column ∧ d.column + 1 < indexLimit := fun d hd =>
    ⟨h d hd, (hroom d hd).2⟩
  cases hnone : diagnostics.isEmpty with
  | true => exact ⟨emptyNote line, by rw [panel, hnone]; rfl⟩
  | false =>
    rw [panel, hnone, if_neg Bool.false_ne_true]
    cases code with
    | none => exact exists_messages {} hmessages
    | some code =>
      obtain ⟨carets, hcarets⟩ :
          ∃ carets, caretRow room (diagnostics.map (·.column)) = .ok carets :=
        exists_caretRow (by simpa using hnone) (by simpa using h) (by simpa [HasRoom] using hroom)
      simp only [context, hcarets]
      exact exists_messages _ hmessages

end Peek

end LiveCheck
