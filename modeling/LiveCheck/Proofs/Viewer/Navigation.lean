import LiveCheck.Viewer.Key
import LiveCheck.Proofs.Viewer.Rows
import Mathlib.Data.Finset.Sort
import Mathlib.Data.Int.ConditionallyCompleteOrder

/-!
# Going from error to error

The cursor stops at the lines that have a diagnostic and are displayed (`Viewer.stops`). Diagnostics
may lie on other lines too, behind the last one, and come in any order and more than once on a line.

Whatever has happened before, the cursor is on a line, if there is one (`Viewer.Reached.inView`). So
it goes to the stop that is next ahead of it, or behind it (`Viewer.nextError_of_isLeast`,
`Viewer.previousError_of_isGreatest`), and stays if there is none. Going on, it visits the stops
ahead of it one after the other (`Viewer.line_nextErrors`).
-/

namespace LiveCheck

/-- A search in an ordered list finds the first of the entries that have a property, if there are
    any. -/
theorem find?_cases {α : Type} {r : α → α → Prop} {l : List α} (hl : l.Pairwise r)
    (hrefl : ∀ a, r a a) (p : α → Bool) :
    (l.find? p = none ∧ ∀ b ∈ l, p b = false) ∨
      ∃ a ∈ l, l.find? p = some a ∧ p a ∧ ∀ b ∈ l, p b → r a b := by
  cases hfind : l.find? p with
  | none => exact .inl ⟨rfl, fun b hb => by simpa using List.find?_eq_none.1 hfind b hb⟩
  | some a =>
    obtain ⟨hp, before, after, rfl, hbefore⟩ := List.find?_eq_some_iff_append.1 hfind
    refine .inr ⟨a, List.mem_append_right _ List.mem_cons_self, rfl, hp, fun b hb hpb => ?_⟩
    rcases List.mem_append.1 hb with hb | hb
    · have hnot := hbefore b hb
      rw [hpb] at hnot
      cases hnot
    · rcases List.mem_cons.1 hb with rfl | hb
      · exact hrefl b
      · exact (List.pairwise_cons.1 (List.pairwise_append.1 hl).2.1).1 b hb

namespace Viewer

variable {v w : Viewer} {n : Int}

/-- The number of the line that the cursor is on. -/
def line (v : Viewer) : Int := v.cursor + 1

/-- The lines that have a diagnostic and are displayed. -/
def stops (v : Viewer) : Finset Int :=
  {n ∈ (v.source.diagnostics.map (·.line)).toFinset | n ≤ v.source.lines.length}

/-- The stops ahead of the cursor. -/
def stopsAhead (v : Viewer) : Finset Int := {n ∈ v.stops | v.line < n}

/-- The stops behind the cursor. -/
def stopsBehind (v : Viewer) : Finset Int := {n ∈ v.stops | n < v.line}

/-- The viewer after it was told so often to go to the next error. -/
def nextErrors : Nat → Viewer → Viewer
  | 0, v => v
  | k + 1, v => nextErrors k v.nextError.1

/-- The cursor is on a line, if there is one. -/
def InView (v : Viewer) : Prop := v.cursor ≤ v.source.lines.length - 1

/-! ## The cursor stays on the lines -/

theorem showPeek_same (v : Viewer) :
    v.showPeek.1.cursor = v.cursor ∧ v.showPeek.1.source = v.source := by
  cases hpanel : v.panel with
  | ok shown => rw [showPeek_of_ok hpanel]; exact ⟨rfl, rfl⟩
  | error fault => rw [showPeek_of_error hpanel]; exact ⟨rfl, rfl⟩

theorem Alike.inView (h : Alike v w) (hv : v.InView) : w.InView := by
  rw [InView, h.cursor, h.lines]
  exact hv

theorem showPeek_inView (h : v.InView) : v.showPeek.1.InView := by
  rw [InView, (showPeek_same v).1, (showPeek_same v).2]
  exact h

/-- Making all rows anew brings the cursor into view. -/
theorem populate_inView (v : Viewer) : v.populate.1.InView :=
  showPeek_inView (Nat.min_le_right _ _)

/-- A move keeps the cursor in view. -/
theorem moveCursor_inView (h : v.InView) (row : Int) : (v.moveCursor row).1.InView := by
  rw [moveCursor]
  split
  · refine showPeek_inView ?_
    rw [InView]
    dsimp only
    omega
  · exact h

theorem nextError_inView (h : v.InView) : v.nextError.1.InView := by
  rcases nextError_eq v with hnext | ⟨row, hnext⟩
  · rw [hnext]; exact h
  · rw [hnext]; exact moveCursor_inView h row

theorem previousError_inView (h : v.InView) : v.previousError.1.InView := by
  rcases previousError_eq v with hprevious | ⟨row, hprevious⟩
  · rw [hprevious]; exact h
  · rw [hprevious]; exact moveCursor_inView h row

theorem recheck_inView (h : v.InView) (b : Behaviour) : (v.recheck b).1.InView := by
  refine (recheck_alike v b).inView ?_
  unfold readSource
  dsimp only
  split
  · exact h
  · exact populate_inView _

theorem mount_inView (h : v.InView) (b : Behaviour) : (v.mount b).1.InView := by
  unfold mount
  dsimp only
  split
  · exact h
  · exact recheck_inView (v := { v.tellBar _ with watcher := _, engine := _ }) h b

/-- Whatever key is pressed, the cursor stays in view. -/
theorem press_inView (h : v.InView) (b : Behaviour) (key : Key) : (v.press b key).1.InView := by
  cases key with
  | quit => exact (follow_alike { v with watcher := v.watcher.stop } _).inView h
  | recheck => exact recheck_inView h b
  | nextError => exact nextError_inView h
  | previousError => exact previousError_inView h
  | up | down => exact moveCursor_inView h _

/-- The viewers that come about, whatever is reported, whatever its engine does or becomes, and
    whichever keys are pressed. -/
inductive Reached : Viewer → Prop
  | create {machine : Machine} {e : Engine} {path : Text} {v : Viewer} :
      create machine e path = .ok v → Reached v
  | mount {v : Viewer} (b : Behaviour) : Reached v → Reached (v.mount b).1
  | press {v : Viewer} (b : Behaviour) (key : Key) : Reached v → Reached (v.press b key).1
  | engine {v : Viewer} (e : Engine) : Reached v → Reached { v with engine := e }
  | follow {v : Viewer} (e : Engine) : Reached v → Reached (v.follow e).1
  | posted {v : Viewer} (reports : List (List Diagnostic)) :
      Reached v → Reached { v with posted := reports }
  | report {v : Viewer} (report : List Diagnostic) : Reached v → Reached (v.handleReport report).1

/-- The cursor of a viewer is always on a line, or in front of the first one where there are
    none. -/
theorem Reached.inView (h : Reached v) : v.InView := by
  induction h with
  | @create machine e path _ hv =>
    rw [Viewer.create] at hv
    cases hpath : e.disk.resolved path with
    | error => rw [hpath] at hv; cases hv
    | ok target =>
      rw [hpath] at hv
      obtain rfl := Except.ok.inj hv
      exact Nat.zero_le _
  | mount b _ ih => exact mount_inView ih b
  | press b key _ ih => exact press_inView ih b key
  | engine e _ ih => exact ih
  | follow e _ ih => exact (follow_alike _ e).inView ih
  | posted reports _ ih => exact ih
  | report report _ _ => exact populate_inView _

/-! ## One step -/

/-- A line has an error if a diagnostic is on it. -/
theorem mem_errorLines : n ∈ v.errorLines ↔ ∃ d ∈ v.source.diagnostics, d.line = n := by
  simp [errorLines]

/-- The lines that the cursor can stop at are those with errors that the source has. -/
theorem mem_stops : n ∈ v.stops ↔ n ∈ v.errorLines ∧ n ≤ v.source.lines.length := by
  simp [stops, errorLines]

theorem stops_congr (h : w.source = v.source) : w.stops = v.stops := by
  rw [stops, h, stops]

theorem errorLines_pairwise (v : Viewer) : v.errorLines.Pairwise (· ≤ ·) := by
  rw [errorLines]
  exact List.pairwise_mergeSort' (fun a b : Int => a ≤ b) _

theorem moveCursor_source (v : Viewer) (row : Int) : (v.moveCursor row).1.source = v.source := by
  rw [moveCursor]
  split
  · exact (showPeek_same _).2
  · rfl

theorem nextError_source (v : Viewer) : v.nextError.1.source = v.source := by
  rcases nextError_eq v with hnext | ⟨row, hnext⟩
  · rw [hnext]
  · rw [hnext]; exact moveCursor_source v row

/-- The cursor moves to a line that is displayed. -/
theorem line_moveCursor (hpos : 1 ≤ n) (hle : n ≤ v.source.lines.length) :
    (v.moveCursor (n - 1)).1.line = n := by
  rw [moveCursor, if_pos ⟨by omega, by omega⟩, line, (showPeek_same _).1]
  dsimp only
  omega

/-- Moving past the last line does nothing. -/
theorem moveCursor_of_gt (h : v.source.lines.length < n) : v.moveCursor (n - 1) = (v, none) := by
  rw [moveCursor, if_neg (by omega)]

/-- The next error is the first one ahead, even if it is not displayed. -/
theorem nextError_cases (v : Viewer) :
    (v.nextError = (v, none) ∧ ∀ n ∈ v.errorLines, n ≤ v.line) ∨
      ∃ m ∈ v.errorLines, v.line < m ∧ (∀ n ∈ v.errorLines, v.line < n → m ≤ n) ∧
        v.nextError = v.moveCursor (m - 1) := by
  rw [nextError, line]
  rcases find?_cases v.errorLines_pairwise Int.le_refl
    (fun n => decide ((v.cursor : Int) < n - 1)) with
    ⟨hfind, hnone⟩ | ⟨m, hm, hfind, hahead, hfirst⟩
  · simp only [decide_eq_false_iff_not] at hnone
    rw [hfind]
    exact .inl ⟨rfl, fun n hn => by have := hnone n hn; omega⟩
  · simp only [decide_eq_true_eq] at hahead hfirst
    rw [hfind]
    exact .inr ⟨m, hm, by omega, fun n hn hlt => hfirst n hn (by omega), rfl⟩

/-- The previous error is the last one behind. -/
theorem previousError_cases (v : Viewer) :
    (v.previousError = (v, none) ∧ ∀ n ∈ v.errorLines, v.line ≤ n) ∨
      ∃ m ∈ v.errorLines, m < v.line ∧ (∀ n ∈ v.errorLines, n < v.line → n ≤ m) ∧
        v.previousError = v.moveCursor (m - 1) := by
  rw [previousError, line]
  rcases find?_cases (List.pairwise_reverse.2 v.errorLines_pairwise) Int.le_refl
    (fun n => decide (n - 1 < (v.cursor : Int))) with
    ⟨hfind, hnone⟩ | ⟨m, hm, hfind, hbehind, hlast⟩
  · simp only [decide_eq_false_iff_not, List.mem_reverse] at hnone
    rw [hfind]
    exact .inl ⟨rfl, fun n hn => by have := hnone n hn; omega⟩
  · simp only [decide_eq_true_eq, List.mem_reverse] at hm hbehind hlast
    rw [hfind]
    exact .inr ⟨m, hm, by omega, fun n hn hlt => hlast n hn (by omega), rfl⟩

/-- The stops ahead are those behind the line of the cursor. -/
theorem mem_stopsAhead :
    n ∈ v.stopsAhead ↔ n ∈ v.errorLines ∧ n ≤ v.source.lines.length ∧ v.line < n := by
  rw [stopsAhead, Finset.mem_filter, mem_stops, and_assoc]

/-- The stops behind are those in front of the line of the cursor. -/
theorem mem_stopsBehind :
    n ∈ v.stopsBehind ↔ n ∈ v.errorLines ∧ n ≤ v.source.lines.length ∧ n < v.line := by
  rw [stopsBehind, Finset.mem_filter, mem_stops, and_assoc]

theorem line_pos (v : Viewer) : 1 ≤ v.line := by
  rw [line]
  omega

/-- Going to the next error leads to the nearest stop ahead. -/
theorem nextError_of_isLeast (h : IsLeast (v.stopsAhead : Set Int) n) : v.nextError.1.line = n := by
  obtain ⟨hn, hle, hlt⟩ := mem_stopsAhead.1 h.1
  have hpos := v.line_pos
  rcases nextError_cases v with ⟨-, hnone⟩ | ⟨m, hm, hahead, hfirst, hnext⟩
  · exact absurd (hnone n hn) (by omega)
  · -- The first error ahead is not behind the stop, so it is displayed and a stop itself.
    have hmn := hfirst n hn hlt
    have hnm := h.2 (mem_stopsAhead.2 ⟨hm, by omega, hahead⟩)
    obtain rfl := Int.le_antisymm hmn hnm
    rw [hnext]
    exact line_moveCursor (by omega) hle

/-- Going to the next error does nothing where there is no stop ahead. -/
theorem nextError_of_empty (h : v.stopsAhead = ∅) : v.nextError = (v, none) := by
  rcases nextError_cases v with ⟨hnext, -⟩ | ⟨m, hm, hahead, -, hnext⟩
  · exact hnext
  · rw [hnext]
    refine moveCursor_of_gt (by_contra fun hle => ?_)
    exact Finset.notMem_empty m (h ▸ mem_stopsAhead.2 ⟨hm, by omega, hahead⟩)

/-- Going to the previous error leads to the nearest stop behind. -/
theorem previousError_of_isGreatest (hv : v.InView)
    (hlines : ∀ d ∈ v.source.diagnostics, 1 ≤ d.line)
    (h : IsGreatest (v.stopsBehind : Set Int) n) : v.previousError.1.line = n := by
  obtain ⟨hn, hle, hlt⟩ := mem_stopsBehind.1 h.1
  rcases previousError_cases v with ⟨-, hnone⟩ | ⟨m, hm, hbehind, hlast, hprevious⟩
  · exact absurd (hnone n hn) (by omega)
  · -- A line behind the cursor is displayed.
    have hpos : 1 ≤ n := by
      obtain ⟨d, hd, rfl⟩ := mem_errorLines.1 hn
      exact hlines d hd
    have hnm := hlast n hn hlt
    have hview : m ≤ v.source.lines.length := by
      rw [InView] at hv
      rw [line] at hbehind
      omega
    obtain rfl := Int.le_antisymm (h.2 (mem_stopsBehind.2 ⟨hm, hview, hbehind⟩)) hnm
    rw [hprevious]
    exact line_moveCursor hpos hle

/-- Going to the previous error does nothing where there is no stop behind. -/
theorem previousError_of_empty (hv : v.InView)
    (hlines : ∀ d ∈ v.source.diagnostics, 1 ≤ d.line) (h : v.stopsBehind = ∅) :
    v.previousError = (v, none) := by
  rcases previousError_cases v with ⟨hprevious, -⟩ | ⟨m, hm, hbehind, -, hprevious⟩
  · exact hprevious
  · refine absurd (mem_stopsBehind.2 ⟨hm, ?_, hbehind⟩) (h ▸ Finset.notMem_empty m)
    obtain ⟨d, hd, rfl⟩ := mem_errorLines.1 hm
    have := hlines d hd
    rw [InView] at hv
    rw [line] at hbehind
    omega

/-! ## Going on -/

theorem exists_isLeast {s : Finset Int} (h : s ≠ ∅) : ∃ n, IsLeast (s : Set Int) n :=
  ⟨_, Finset.isLeast_min' s (Finset.nonempty_iff_ne_empty.2 h)⟩

/-- The stop that the cursor has come to is the first of those that were ahead of it. -/
theorem stopsAhead_eq_insert (h : v.stopsAhead ≠ ∅) :
    v.stopsAhead = insert v.nextError.1.line v.nextError.1.stopsAhead := by
  obtain ⟨n, hn⟩ := exists_isLeast h
  have hline := nextError_of_isLeast hn
  have hlt := (mem_stopsAhead.1 hn.1).2.2
  ext m
  rw [Finset.mem_insert, stopsAhead, stopsAhead, Finset.mem_filter, Finset.mem_filter,
    stops_congr (nextError_source v), hline]
  constructor
  · rintro ⟨hm, hahead⟩
    have := hn.2 (Finset.mem_filter.2 ⟨hm, hahead⟩)
    -- A stop ahead is the first one, or lies ahead of that.
    rcases Int.lt_or_eq_of_le this with hmore | rfl
    · exact .inr ⟨hm, hmore⟩
    · exact .inl rfl
  · rintro (rfl | ⟨hm, hmore⟩)
    · exact Finset.mem_filter.1 hn.1
    · exact ⟨hm, hlt.trans hmore⟩

/-- The first stop ahead is the one that the next error leads to, and the others are ahead of it. -/
theorem sort_stopsAhead (h : v.stopsAhead ≠ ∅) :
    v.stopsAhead.sort = v.nextError.1.line :: v.nextError.1.stopsAhead.sort := by
  have hnot : v.nextError.1.line ∉ v.nextError.1.stopsAhead := fun hmem =>
    absurd (mem_stopsAhead.1 hmem).2.2 (Int.lt_irrefl _)
  rw [stopsAhead_eq_insert h]
  exact Finset.sort_insert _ (fun m hm => (mem_stopsAhead.1 hm).2.2.le) hnot

/-- The cursor visits the stops ahead of it in their order, and stays on the last one. -/
theorem line_nextErrors (v : Viewer) (k : Nat) :
    (v.line :: v.stopsAhead.sort)[min k v.stopsAhead.card]? = some (v.nextErrors k).line := by
  induction k generalizing v with
  | zero => simp [nextErrors]
  | succ k ih =>
    rw [nextErrors, ← ih]
    -- Without a stop ahead the cursor stays; else the first one is reached, and the rest is ahead
    -- of it.
    by_cases h : v.stopsAhead = ∅
    · rw [nextError_of_empty h, h, Finset.card_empty, Nat.min_zero, Nat.min_zero]
    · have hcard : v.stopsAhead.card = v.nextError.1.stopsAhead.card + 1 := by
        rw [← Finset.length_sort (· ≤ ·), sort_stopsAhead h, List.length_cons, Finset.length_sort]
      rw [sort_stopsAhead h, hcard, Nat.add_min_add_right, List.getElem?_cons_succ]

/-- Going to the next error and back leads to the stop that one came from. -/
theorem previousError_nextError (hv : v.InView)
    (hlines : ∀ d ∈ v.source.diagnostics, 1 ≤ d.line) (hstop : v.line ∈ v.stops)
    (hmoved : v.nextError.1.line ≠ v.line) : v.nextError.1.previousError.1.line = v.line := by
  have hahead : v.stopsAhead ≠ ∅ := fun h => hmoved (by rw [nextError_of_empty h])
  obtain ⟨n, hn⟩ := exists_isLeast hahead
  have hline := nextError_of_isLeast hn
  have hsource := nextError_source v
  refine previousError_of_isGreatest (nextError_inView hv) (by rw [hsource]; exact hlines)
    ⟨?_, fun m hm => ?_⟩
  · refine Finset.mem_filter.2 ⟨by rwa [stops_congr hsource], ?_⟩
    rw [hline]
    exact (mem_stopsAhead.1 hn.1).2.2
  · -- A stop behind the new line that was ahead of the old one would have been the next one.
    obtain ⟨hmstop, hbehind⟩ := Finset.mem_filter.1 hm
    rw [stops_congr hsource] at hmstop
    rw [hline] at hbehind
    refine Int.not_lt.1 fun hlt => ?_
    exact absurd (hn.2 (Finset.mem_filter.2 ⟨hmstop, hlt⟩)) (Int.not_le.2 hbehind)

/-- **Going from error to error misses none.** Whatever has happened before, if the diagnostics are
    on lines from the first on, the next error is the first stop ahead of the cursor and the
    previous one the last stop behind it; where there is none, nothing changes. So going on, the
    cursor visits each stop ahead of it once, in their order, and then stays, and from a stop the
    way on and back leads to it. -/
theorem Reached.navigates (h : Reached v) (hlines : ∀ d ∈ v.source.diagnostics, 1 ≤ d.line) :
    (∀ n, IsLeast (v.stopsAhead : Set Int) n → v.nextError.1.line = n) ∧
    (v.stopsAhead = ∅ → v.nextError = (v, none)) ∧
    (∀ n, IsGreatest (v.stopsBehind : Set Int) n → v.previousError.1.line = n) ∧
    (v.stopsBehind = ∅ → v.previousError = (v, none)) ∧
    (∀ k, (v.line :: v.stopsAhead.sort)[min k v.stopsAhead.card]? = some (v.nextErrors k).line) ∧
    (v.line ∈ v.stops → v.nextError.1.line ≠ v.line →
      v.nextError.1.previousError.1.line = v.line) :=
  ⟨fun _ => nextError_of_isLeast, nextError_of_empty,
    fun _ => previousError_of_isGreatest h.inView hlines, previousError_of_empty h.inView hlines,
    line_nextErrors v, previousError_nextError h.inView hlines⟩

/-- The diagnostics are out of order, one line has two of them, and another one is not displayed. -/
theorem navigates_past_the_end : ∃ v : Viewer, Reached v ∧ v.line = 1 ∧
    v.source.diagnostics.map (·.line) = [5, 3, 2, 3] ∧ v.stopsAhead = {2, 3} ∧
    v.nextError.1.line = 2 ∧ (v.nextErrors 2).line = 3 ∧
    ∀ k, 2 ≤ k → (v.nextErrors k).line = 3 := by
  let records : List Record := [5, 3, 2, 3].map fun line => ⟨"140".toList, 1, line, "m".toList⟩
  let report := placeRecords records "a\nb\nc\nd\ne\n".toList "/m.gms".toList
  have hrun : ∃ v₀ v₁ v₂, Viewer.create .usual unopened.engine "/m.gms".toList = .ok v₀ ∧
      ({ v₀ with engine := { v₀.engine with disk := sourceDisk "a\nb\nc\n".toList } }.recheck
        {}).1 = v₁ ∧
      (v₁.handleReport report).1 = v₂ ∧ v₂.line = 1 ∧
      v₂.source.diagnostics.map (·.line) = [5, 3, 2, 3] ∧ v₂.source.lines.length = 3 :=
    ⟨_, _, _, rfl, rfl, rfl, by decide +kernel, by decide +kernel, by decide +kernel⟩
  obtain ⟨v₀, v₁, v, hcreate, hread, hreport, hline, hdiagnostics, hlength⟩ := hrun
  have h : Reached v :=
    hreport ▸ (hread ▸ ((Reached.create hcreate).engine _).press {} .recheck).report _
  -- The diagnostic on line 5 is beyond the text, so it is no stop.
  have hstops : v.stopsAhead = {2, 3} := by
    rw [stopsAhead, stops, hdiagnostics, hlength, hline]
    decide
  have hsort : v.stopsAhead.sort = [2, 3] := by
    rw [hstops, Finset.sort_insert _ (by simp) (by simp), Finset.sort_singleton]
  have hlines : ∀ d ∈ v.source.diagnostics, 1 ≤ d.line := by
    have : ∀ n ∈ v.source.diagnostics.map (·.line), 1 ≤ n := by rw [hdiagnostics]; decide
    simpa using this
  obtain ⟨hnext, -, -, -, hvisits, -⟩ := h.navigates hlines
  rw [hsort, hline, hstops] at hvisits
  have hcard : ({2, 3} : Finset Int).card = 2 := rfl
  rw [hcard] at hvisits
  refine ⟨v, h, hline, hdiagnostics, hstops, hnext 2 ?_, ?_, fun k hk => ?_⟩
  · rw [hstops]
    constructor
    · simp
    · simp [lowerBounds]
  · exact (Option.some.inj (hvisits 2)).symm
  · have := hvisits k
    rw [Nat.min_eq_right hk] at this
    exact (Option.some.inj this).symm

end Viewer

end LiveCheck
