import LiveCheck.Viewer.Basic
import LiveCheck.Proofs.Viewer.Peek

/-!
# Rows, cursor and peek panel

Some steps of the viewer make all rows anew, others change the two rows that the cursor leaves and
enters, and the source can lose its lines under the cursor or under diagnostics that were reported
before. Whatever comes, the viewer is as if it was made anew after each step (`Rendered`): one row
for each line, the cursor on one of them, and the peek panel with what belongs to its line
(`Shown.rerendered`).

The row of carets in the peek panel is as long as the greatest column of a diagnostic. Only a
machine that has no room for it (`Viewer.Roomy`) keeps the panel from being made.
-/

namespace LiveCheck

/-- The fault is one of a check. -/
def ViewerFault.OfCheck : ViewerFault → Prop
  | .check _ | .refusal _ => True
  | .watch _ | .peek _ => False

namespace Row

/-- The row as it was before it was brought into view. -/
def unviewed (r : Row) : Row := { r with views := 0 }

/-- The row of a line after the cursor was moved is the one that would have been made then. -/
theorem moveCursor_of_ofLine {s : SourceState} {generation before after index : Nat} {line : Text}
    {r : Row} (h : r.unviewed = ofLine s generation before index line) :
    (r.moveCursor before after).unviewed = ofLine s generation after index line := by
  have hindex : r.index = index := congrArg Row.index h
  have hcursor : r.hasCursor = decide (index = before) := congrArg Row.hasCursor h
  have hunviewed : { r.unviewed with hasCursor := decide (index = after) } =
      ofLine s generation after index line := by rw [h]; rfl
  rw [← hunviewed, moveCursor, hindex]
  by_cases hafter : index = after
  · simp [unviewed, hindex, hafter]
  · by_cases hbefore : index = before
    · simp [unviewed, hindex, hafter, if_pos hbefore]
    · simp [unviewed, hafter, hcursor, hbefore]

/-- What is to be read in the row of a line. -/
theorem plain_lineText (number : Nat) (hasError : Bool) (line : Text) :
    (lineText number hasError line).plain = (if hasError then "✖ ".toList else "  ".toList) ++
      (Peek.gutter number ++ line.filter (!disturbsTerminal ·)) := by
  simp only [lineText]
  rw [StyledText.plain_append_filter,
    StyledText.plain_append_uncontrolled _ (Peek.uncontrolled_gutter number), List.append_assoc]
  cases hasError <;> rfl

end Row

/-- Rows that are made anew were not brought into view yet. -/
theorem SourceState.map_unviewed_rows (s : SourceState) (generation cursor : Nat) :
    (s.rows generation cursor).map Row.unviewed = s.rows generation cursor := by
  refine List.ext_getElem? fun i => ?_
  simp only [rows, List.getElem?_map, List.getElem?_mapIdx, Option.map_map]
  rfl

/-- The rows of a source after the cursor was moved. -/
theorem SourceState.map_moveCursor {s : SourceState} {generation before : Nat} {rows : List Row}
    (h : rows.map Row.unviewed = s.rows generation before) (after : Nat) :
    (rows.map (Row.moveCursor before after)).map Row.unviewed = s.rows generation after := by
  have hlength : rows.length = s.lines.length := by
    simpa [SourceState.rows] using congrArg List.length h
  refine List.ext_getElem? fun i => ?_
  have hi : (rows.map Row.unviewed)[i]? = (s.rows generation before)[i]? := by rw [h]
  simp only [SourceState.rows, List.getElem?_map, List.getElem?_mapIdx] at hi ⊢
  cases hline : s.lines[i]? with
  | none =>
    have hnone : rows[i]? = none := by rw [List.getElem?_eq_none_iff] at hline ⊢; omega
    rw [hnone]
    rfl
  | some line =>
    rw [hline] at hi
    obtain ⟨r, hr, hrow⟩ := Option.map_eq_some_iff.1 hi
    rw [hr]
    exact congrArg some (Row.moveCursor_of_ofLine hrow)

namespace Viewer

/-! ## What is shown -/

/-- What the peek panel is to show. -/
def panel (v : Viewer) : Except Peek.Fault StyledText :=
  Peek.panel v.machine.width (v.cursor + 1) (v.source.line? (v.cursor + 1))
    (v.source.diagnosticsOn (v.cursor + 1))

/-- The machine has room for the row of carets of the line that the cursor is on. -/
def Roomy (v : Viewer) : Prop :=
  Peek.HasRoom v.machine.width (v.source.diagnosticsOn (v.cursor + 1))

/-- The fault is that the machine has no room for the peek panel. -/
def Cramped (v : Viewer) (fault : ViewerFault) : Prop :=
  (∃ reason, fault = .peek reason) ∧ ¬v.Roomy

/-- What the viewer shows is what it would show if it was made anew. -/
structure Rendered (v : Viewer) : Prop where
  cursor : v.cursor ≤ v.source.lines.length - 1
  rows : v.rows.map Row.unviewed = v.source.rows v.generation v.cursor
  peek : ∀ shown, v.panel = .ok shown → v.peek = some shown
  columns : ∀ d ∈ v.source.diagnostics, 0 ≤ d.column

/-- The two viewers show the same. -/
structure Alike (v w : Viewer) : Prop where
  machine : w.machine = v.machine
  path : w.source.path = v.source.path
  lines : w.source.lines = v.source.lines
  diagnostics : w.source.diagnostics = v.source.diagnostics
  cursor : w.cursor = v.cursor
  generation : w.generation = v.generation
  rows : w.rows = v.rows
  peek : w.peek = v.peek

variable {v w x : Viewer} {fault : ViewerFault}

theorem Alike.refl (v : Viewer) : Alike v v := ⟨rfl, rfl, rfl, rfl, rfl, rfl, rfl, rfl⟩

theorem Alike.trans (h : Alike v w) (h' : Alike w x) : Alike v x where
  machine := h'.machine.trans h.machine
  path := h'.path.trans h.path
  lines := h'.lines.trans h.lines
  diagnostics := h'.diagnostics.trans h.diagnostics
  cursor := h'.cursor.trans h.cursor
  generation := h'.generation.trans h.generation
  rows := h'.rows.trans h.rows
  peek := h'.peek.trans h.peek

/-- A viewer that shows the same is as if it was made anew, too. -/
theorem Alike.rendered (h : Alike v w) (hv : v.Rendered) : w.Rendered where
  cursor := by rw [h.cursor, h.lines]; exact hv.cursor
  rows := by
    have hrows : w.source.rows v.generation v.cursor = v.source.rows v.generation v.cursor := by
      have hline : Row.ofLine w.source = Row.ofLine v.source := by
        funext generation cursor index line
        rw [Row.ofLine, Row.ofLine, SourceState.hasDiagnosticOn, SourceState.hasDiagnosticOn,
          h.diagnostics]
      rw [SourceState.rows, SourceState.rows, h.lines, hline]
    rw [h.rows, h.generation, h.cursor, hrows]
    exact hv.rows
  peek shown hshown := by
    rw [h.peek]
    refine hv.peek shown ?_
    rwa [panel, SourceState.line?, SourceState.diagnosticsOn, h.machine, h.lines, h.diagnostics,
      h.cursor] at hshown
  columns := by rw [h.diagnostics]; exact hv.columns

/-- There is room for the carets of diagnostics that were placed onto a text for which there is
    room. -/
theorem roomy_of_placed {records : List Record} {text source : Text}
    (h : v.source.diagnostics = placeRecords records text source)
    (hwidth : (text.length : Int) + 1 < v.machine.width)
    (hindex : (text.length : Int) + 1 < Peek.indexLimit) : v.Roomy := by
  intro d hd
  have hmem := (List.mem_filter.1 hd).1
  rw [h] at hmem
  have := (column_of_placed hmem).2
  omega

/-! ## Rows and cursor -/

theorem showPeek_of_ok {shown : StyledText} (h : v.panel = .ok shown) :
    v.showPeek = ({ v with peek := some shown }, none) := by
  rw [panel] at h
  simp only [showPeek, h]

theorem showPeek_of_error {fault : Peek.Fault} (h : v.panel = .error fault) :
    v.showPeek = (v, some (.peek fault)) := by
  rw [panel] at h
  simp only [showPeek, h]

/-- Whatever the peek panel showed, it shows what it is to show if that can be made. -/
theorem showPeek_rendered (hcursor : v.cursor ≤ v.source.lines.length - 1)
    (hrows : v.rows.map Row.unviewed = v.source.rows v.generation v.cursor)
    (hcolumns : ∀ d ∈ v.source.diagnostics, 0 ≤ d.column) : v.showPeek.1.Rendered := by
  cases hpanel : v.panel with
  | ok shown =>
    rw [showPeek_of_ok hpanel]
    exact { cursor := hcursor, rows := hrows, columns := hcolumns
            peek := fun _ h => congrArg some (Except.ok.inj (hpanel.symm.trans h)) }
  | error fault =>
    rw [showPeek_of_error hpanel]
    exact { cursor := hcursor, rows := hrows, columns := hcolumns
            peek := fun _ h => nomatch hpanel.symm.trans h }

/-- The peek panel can be made if there is room. -/
theorem exists_panel (hcolumns : ∀ d ∈ v.source.diagnostics, 0 ≤ d.column) (hroomy : v.Roomy) :
    ∃ shown, v.panel = .ok shown :=
  Peek.exists_panel _ _ (fun d hd => hcolumns d (List.mem_filter.1 hd).1) hroomy

/-- Nothing but the machine keeps the peek panel from being shown. -/
theorem showPeek_fault (hcolumns : ∀ d ∈ v.source.diagnostics, 0 ≤ d.column)
    (h : v.showPeek.2 = some fault) : v.showPeek.1.Cramped fault := by
  cases hpanel : v.panel with
  | ok shown =>
    rw [showPeek_of_ok hpanel] at h
    cases h
  | error reason =>
    rw [showPeek_of_error hpanel] at h ⊢
    obtain rfl := Option.some.inj h
    refine ⟨⟨reason, rfl⟩, fun hroomy => ?_⟩
    obtain ⟨shown, hshown⟩ := exists_panel hcolumns hroomy
    rw [hshown] at hpanel
    cases hpanel

/-- Making all rows anew makes the viewer as if it was made anew. -/
theorem populate_rendered (h : ∀ d ∈ v.source.diagnostics, 0 ≤ d.column) : v.populate.1.Rendered :=
  showPeek_rendered (Nat.min_le_right _ _) (SourceState.map_unviewed_rows _ _ _) h

/-- Making all rows anew fails only if there is no room for the peek panel. -/
theorem populate_fault (h : ∀ d ∈ v.source.diagnostics, 0 ≤ d.column)
    (hfault : v.populate.2 = some fault) : v.populate.1.Cramped fault := showPeek_fault h hfault

/-- A move of the cursor leaves the viewer as if it was made anew. -/
theorem moveCursor_rendered (h : v.Rendered) (row : Int) : (v.moveCursor row).1.Rendered := by
  rw [moveCursor]
  split
  · rename_i hrow
    refine showPeek_rendered ?_ (SourceState.map_moveCursor h.rows _) h.columns
    dsimp only
    omega
  · exact h

/-- A move of the cursor fails only if there is no room for the peek panel. -/
theorem moveCursor_fault (h : v.Rendered) (row : Int) (hfault : (v.moveCursor row).2 = some fault) :
    (v.moveCursor row).1.Cramped fault := by
  rw [moveCursor] at hfault ⊢
  split
  · rename_i hrow
    rw [if_pos hrow] at hfault
    exact showPeek_fault h.columns hfault
  · rename_i hrow
    rw [if_neg hrow] at hfault
    cases hfault

/-- Moving to another line with diagnostics is moving the cursor, if it is anything. -/
theorem nextError_eq (v : Viewer) :
    v.nextError = (v, none) ∨ ∃ row, v.nextError = v.moveCursor row := by
  rw [nextError]
  split
  · exact .inr ⟨_, rfl⟩
  · exact .inl rfl

theorem previousError_eq (v : Viewer) :
    v.previousError = (v, none) ∨ ∃ row, v.previousError = v.moveCursor row := by
  rw [previousError]
  split
  · exact .inr ⟨_, rfl⟩
  · exact .inl rfl

/-! ## Reports and checks -/

/-- A report of placed diagnostics leaves the viewer as if it was made anew. -/
theorem handleReport_rendered {report : List Diagnostic} (h : Placed report) :
    (v.handleReport report).1.Rendered := populate_rendered fun _ hd => h.column_nonneg hd

theorem handleReport_fault {report : List Diagnostic} (h : Placed report)
    (hfault : (v.handleReport report).2 = some fault) : (v.handleReport report).1.Cramped fault :=
  populate_fault (fun _ hd => h.column_nonneg hd) hfault

/-- The outcome of a check goes to the status bar alone. -/
theorem conclude_alike (v : Viewer) (s : Session) : Alike v (v.conclude s) := by
  rw [conclude]
  split
  · exact .refl v
  · exact ⟨rfl, rfl, rfl, rfl, rfl, rfl, rfl, rfl⟩

theorem concludeTask_alike (v : Viewer) (t : TaskId) : Alike v (v.concludeTask t).1 := by
  unfold concludeTask
  split
  · exact .refl v
  split
  · exact .refl v
  · split
    · exact conclude_alike v _
    · exact .refl v
  · exact .refl v

theorem concludeTasks_alike (v : Viewer) (ended : List TaskId) :
    Alike v (v.concludeTasks ended).1 := by
  induction ended generalizing v with
  | nil => exact .refl v
  | cons t rest ih => exact (concludeTask_alike v t).trans (ih _)

/-- What the engine did does not show in the rows. -/
theorem follow_alike (v : Viewer) (e : Engine) : Alike v (v.follow e).1 := by
  unfold follow
  refine Alike.trans ?_ (concludeTasks_alike _ _)
  exact ⟨rfl, rfl, rfl, rfl, rfl, rfl, rfl, rfl⟩

theorem check_alike (v : Viewer) (b : Behaviour) : Alike v (v.check b).1 := by
  unfold check
  dsimp only
  split
  · exact ⟨rfl, rfl, rfl, rfl, rfl, rfl, rfl, rfl⟩
  · exact ⟨rfl, rfl, rfl, rfl, rfl, rfl, rfl, rfl⟩
  · refine Alike.trans ?_ (follow_alike _ _)
    exact ⟨rfl, rfl, rfl, rfl, rfl, rfl, rfl, rfl⟩

/-- Reading the source makes the viewer anew, or leaves it as it is. -/
theorem readSource_rendered (h : v.Rendered) : v.readSource.1.Rendered := by
  unfold readSource
  dsimp only
  split
  · have hnote : ∀ events, Alike v { v with engine := v.engine.note events } :=
      fun _ => ⟨rfl, rfl, rfl, rfl, rfl, rfl, rfl, rfl⟩
    exact (hnote _).rendered h
  · exact populate_rendered h.columns

/-- The viewer with something else on the disk. -/
def on (v : Viewer) (d : Disk) : Viewer := { v with engine := { v.engine with disk := d } }

theorem on_alike (v : Viewer) (d : Disk) : Alike v (v.on d) :=
    ⟨rfl, rfl, rfl, rfl, rfl, rfl, rfl, rfl⟩

/-- A check changes nothing about what reading the source has shown. -/
theorem recheck_alike (v : Viewer) (b : Behaviour) : Alike v.readSource.1 (v.recheck b).1 := by
  unfold recheck
  split
  · rename_i hread
    rw [hread]
    exact .refl _
  · rename_i hread
    rw [hread]
    exact check_alike _ b

/-! ## Faults -/

theorem concludeTask_fault {t : TaskId} (h : (v.concludeTask t).2 = some fault) :
    fault.OfCheck := by
  unfold concludeTask at h
  split at h
  · cases h
  split at h
  · obtain rfl := Option.some.inj h
    trivial
  · split at h <;> cases h
  · cases h

theorem concludeTasks_fault {ended : List TaskId}
    (h : (v.concludeTasks ended).2 = some fault) : fault.OfCheck := by
  induction ended generalizing v with
  | nil => cases h
  | cons t rest ih =>
    simp only [concludeTasks] at h
    cases hfirst : (v.concludeTask t).2 with
    | some first =>
      rw [hfirst] at h
      obtain rfl := Option.some.inj h
      exact concludeTask_fault hfirst
    | none =>
      rw [hfirst] at h
      exact ih h

/-- What goes wrong while the engine is followed is the fault of a check. -/
theorem follow_fault {e : Engine} (h : (v.follow e).2 = some fault) : fault.OfCheck :=
  concludeTasks_fault h

/-- What goes wrong when a check is asked for is the fault of a check. -/
theorem check_fault {b : Behaviour} (h : (v.check b).2 = some fault) : fault.OfCheck := by
  unfold check at h
  dsimp only at h
  split at h
  · cases h
  · obtain rfl := Option.some.inj h
    trivial
  · exact follow_fault h

/-- Reading the source fails only if there is no room for the peek panel. -/
theorem readSource_fault (h : ∀ d ∈ v.source.diagnostics, 0 ≤ d.column)
    (hfault : v.readSource.2 = some fault) : v.readSource.1.Cramped fault := by
  unfold readSource at hfault ⊢
  dsimp only at hfault ⊢
  split
  · rename_i hread
    simp only [hread] at hfault
    cases hfault
  · rename_i htext
    simp only [htext] at hfault
    exact populate_fault h hfault

/-- A fault of reading the source keeps it from being checked. -/
theorem recheck_fault {b : Behaviour} (h : ∀ d ∈ v.source.diagnostics, 0 ≤ d.column)
    (hfault : (v.recheck b).2 = some fault) : fault.OfCheck ∨ (v.recheck b).1.Cramped fault := by
  unfold recheck at hfault ⊢
  split
  · rename_i hread
    simp only [hread] at hfault
    have hcramped : v.readSource.1.Cramped fault :=
      readSource_fault h (by rw [hread]; exact hfault)
    rw [hread] at hcramped
    exact .inr hcramped
  · rename_i hread
    simp only [hread] at hfault
    exact .inl (check_fault hfault)

/-! ## Runs -/

/-- One step of the viewer. The disk may have changed in any way before the source is read again,
    and any records may have been placed onto any text. -/
inductive Update (v : Viewer) : Stepped → Prop
  | recheck (d : Disk) (b : Behaviour) : Update v ((v.on d).recheck b)
  | report (records : List Record) (text source : Text) :
      Update v (v.handleReport (placeRecords records text source))
  | up : Update v v.cursorUp
  | down : Update v v.cursorDown
  | next : Update v v.nextError
  | previous : Update v v.previousError
  | follow (e : Engine) : Update v (v.follow e)

/-- The viewer has read its source, and has gone on since. -/
inductive Shown : Viewer → Prop
  | read {v : Viewer} {d : Disk} {text : Text} (b : Behaviour) : Placed v.source.diagnostics →
      d.readText (.ofText v.source.path) = .ok text → Shown ((v.on d).recheck b).1
  | update {v : Viewer} {r : Stepped} : Shown v → Update v r → Shown r.1

/-- Every step leaves the viewer as if it was made anew. -/
theorem Update.rendered {r : Stepped} (h : Update v r) (hv : v.Rendered) : r.1.Rendered := by
  cases h with
  -- A recheck reads the source anew; what it does to the engine does not show in the rows.
  | recheck d b =>
    exact (recheck_alike _ b).rendered (readSource_rendered ((on_alike v d).rendered hv))
  | report records text source => exact handleReport_rendered ⟨records, text, source, rfl⟩
  | up => exact moveCursor_rendered hv _
  | down => exact moveCursor_rendered hv _
  | next =>
    rcases nextError_eq v with hnext | ⟨row, hnext⟩ <;> rw [hnext]
    · exact hv
    · exact moveCursor_rendered hv row
  | previous =>
    rcases previousError_eq v with hprevious | ⟨row, hprevious⟩ <;> rw [hprevious]
    · exact hv
    · exact moveCursor_rendered hv row
  | follow e => exact (follow_alike v e).rendered hv

/-- No step has a fault but that of a check, unless the machine has no room for the peek panel. -/
theorem Update.excused {r : Stepped} (h : Update v r) (hv : v.Rendered)
    (hfault : r.2 = some fault) : fault.OfCheck ∨ r.1.Cramped fault := by
  cases h with
  | recheck d b => exact recheck_fault ((on_alike v d).rendered hv).columns hfault
  | report records text source =>
    exact .inr (handleReport_fault ⟨records, text, source, rfl⟩ hfault)
  | up => exact .inr (moveCursor_fault hv _ hfault)
  | down => exact .inr (moveCursor_fault hv _ hfault)
  | next =>
    rcases nextError_eq v with hnext | ⟨row, hnext⟩ <;> rw [hnext] at hfault ⊢
    · cases hfault
    · exact .inr (moveCursor_fault hv row hfault)
  | previous =>
    rcases previousError_eq v with hprevious | ⟨row, hprevious⟩ <;> rw [hprevious] at hfault ⊢
    · cases hfault
    · exact .inr (moveCursor_fault hv row hfault)
  | follow e => exact .inl (follow_fault hfault)

/-- A viewer that was shown is as if it was made anew. -/
theorem Shown.rendered (h : v.Shown) : v.Rendered := by
  induction h with
  | @read v d text b hplaced htext =>
    refine (recheck_alike _ b).rendered ?_
    have hread : (v.on d).readSource =
        { v.on d with source := v.source.setSource text }.populate := by
      have htext' : (v.on d).engine.disk.readText (.ofText (v.on d).source.path) = .ok text := htext
      simp only [readSource, htext']
      rfl
    rw [hread]
    exact populate_rendered fun _ hd => hplaced.column_nonneg hd
  | update _ hupdate ih => exact hupdate.rendered ih

/-- A line has a diagnostic if some are on it. -/
theorem diagnosticsOn_ne_nil_iff (s : SourceState) (line : Int) :
    s.hasDiagnosticOn line ↔ s.diagnosticsOn line ≠ [] := by
  simp [SourceState.hasDiagnosticOn, SourceState.diagnosticsOn, List.filter_eq_nil_iff]

/-- The row of a line. -/
theorem Rendered.row (h : v.Rendered) {i : Nat} {line : Text}
    (hline : v.source.lines[i]? = some line) :
    ∃ r, v.rows[i]? = some r ∧ r.unviewed = Row.ofLine v.source v.generation v.cursor i line := by
  have hi : (v.rows.map Row.unviewed)[i]? = (v.source.rows v.generation v.cursor)[i]? := by
    rw [h.rows]
  simpa [SourceState.rows, List.getElem?_mapIdx, hline, Option.map_eq_some_iff] using hi

/-- **The viewer is as if it was made anew.** Whatever happens after the source was read for the
    first time, the cursor is on a line, and there is one row for each line, in order. What is to be
    read in a row is the cross exactly if its line has diagnostics, then the number of the line,
    then the line. The row is marked as one with an error exactly if its line has diagnostics, and
    as that of the cursor exactly if the cursor is there. The peek panel shows what belongs to the
    line of the cursor. And no step has a fault but that of a check that it started.

    The peek panel takes a row of carets as long as the greatest column of its line. A machine that
    has no room for it is the only thing that keeps the panel from being made. -/
theorem Shown.rerendered (h : v.Shown) :
    v.cursor ≤ v.source.lines.length - 1 ∧
    v.rows.length = v.source.lines.length ∧
    (∀ (i : Nat) (line : Text), v.source.lines[i]? = some line → ∃ r, v.rows[i]? = some r ∧
      r.index = i ∧ r.generation = v.generation ∧
      r.text = Row.lineText (i + 1) (v.source.diagnosticsOn (i + 1) ≠ []) line ∧
      r.text.plain =
        (if v.source.diagnosticsOn (i + 1) ≠ [] then "✖ ".toList else "  ".toList) ++
          (Peek.gutter (i + 1) ++ line.filter (!disturbsTerminal ·)) ∧
      (.error ∈ r.marks ↔ v.source.diagnosticsOn (i + 1) ≠ []) ∧
      (.cursor ∈ r.marks ↔ i = v.cursor)) ∧
    (v.Roomy → ∃ shown, Peek.panel v.machine.width (v.cursor + 1) (v.source.line? (v.cursor + 1))
      (v.source.diagnosticsOn (v.cursor + 1)) = .ok shown ∧ v.peek = some shown) ∧
    ∀ r, Update v r → ∀ fault, r.2 = some fault → fault.OfCheck ∨ r.1.Cramped fault := by
  have hv := h.rendered
  refine ⟨hv.cursor, ?_, fun i line hline => ?_, fun hroomy => ?_,
    fun r hr fault hfault => hr.excused hv hfault⟩
  · simpa [SourceState.rows] using congrArg List.length hv.rows
  · obtain ⟨r, hr, hrow⟩ := hv.row hline
    have herror : r.hasError = v.source.hasDiagnosticOn (i + 1) := congrArg Row.hasError hrow
    have hcursor : r.hasCursor = decide (i = v.cursor) := congrArg Row.hasCursor hrow
    have hiff := diagnosticsOn_ne_nil_iff v.source (i + 1)
    -- Rows ask whether the line has a diagnostic; the statement, whether there are any.
    have hsome : v.source.hasDiagnosticOn (i + 1) =
        decide (v.source.diagnosticsOn (i + 1) ≠ []) := by
      simpa using Bool.eq_iff_iff.2 (hiff.trans decide_eq_true_iff.symm)
    have htext : r.text = Row.lineText (i + 1) (v.source.diagnosticsOn (i + 1) ≠ []) line :=
      (congrArg Row.text hrow).trans (congrArg (Row.lineText (i + 1) · line) hsome)
    refine ⟨r, hr, congrArg Row.index hrow, congrArg Row.generation hrow, htext, ?_, ?_, ?_⟩
    · rw [htext, Row.plain_lineText]
      simp
    · simp [Row.marks, herror, hiff]
    · simp [Row.marks, hcursor]
  · obtain ⟨shown, hshown⟩ := exists_panel hv.columns hroomy
    exact ⟨shown, hshown, hv.peek shown hshown⟩

/-- A viewer of a source, before it is opened. -/
def unopened : Viewer :=
  { machine := .usual
    engine := { disk := {}, settings := ⟨.ofText "/".toList, ∅⟩
                compiler := ⟨.text "gams".toList, none⟩ }
    watcher := { window := .null }, source := { path := "/m.gms".toList } }

/-- A disk with a source on it. -/
def sourceDisk (text : Text) : Disk :=
  { nodes := ⟨[(["m.gms".toList], .file (Utf8.encode text) false)]⟩ }

/-- A source loses the line that the cursor is on, and the diagnostic of that line stays. -/
theorem rerendered_of_lost_line : ∃ v : Viewer, v.Shown ∧
    v.source.lines = ["a".toList] ∧ v.source.diagnostics.map (·.line) = [3] ∧
    v.cursor = 0 ∧ v.rows.length = 1 ∧ ∃ shown, Peek.panel v.machine.width (v.cursor + 1)
      (v.source.line? (v.cursor + 1)) (v.source.diagnosticsOn (v.cursor + 1)) = .ok shown ∧
        v.peek = some shown := by
  let records : List Record := [⟨"140".toList, 1, 3, "Unknown symbol".toList⟩]
  let text : Text := "a\nb\nc\n".toList
  let v₁ := ((unopened.on (sourceDisk text)).recheck {}).1
  let v₂ := (v₁.handleReport (placeRecords records text "/m.gms".toList)).1
  let v₃ := ((v₂.nextError.1.on (sourceDisk "a\n".toList)).recheck {}).1
  have hread : (sourceDisk text).readText (.ofText unopened.source.path) = .ok text := by
    decide +kernel
  have h : v₃.Shown :=
    (((Shown.read {} placed_nil hread).update (.report records text _)).update .next).update
      (.recheck (sourceDisk "a\n".toList) {})
  have hdiagnostics : v₃.source.diagnostics = placeRecords records text "/m.gms".toList := by
    decide +kernel
  obtain ⟨hcursor, hrows, -, hpeek, -⟩ := h.rerendered
  have hlines : v₃.source.lines = ["a".toList] := by decide +kernel
  rw [hlines] at hcursor hrows
  exact ⟨v₃, h, hlines, by rw [hdiagnostics]; decide +kernel, by simpa using hcursor, hrows,
    hpeek (roomy_of_placed hdiagnostics (by decide +kernel) (by decide))⟩

end Viewer

end LiveCheck
