import LiveCheck.Proofs.Text.Character
import LiveCheck.Proofs.Text.Line
import LiveCheck.Proofs.Text.Piece
import Mathlib.Logic.Relation

/-!
# The visible lines of a text

The *visible lines* of a text are its lines without the blanks at their ends, as far as anything is
left of them (`Text.visibleLines`). They do not depend on the layout of the text: lines of white
space may be put in or taken out, lines may go on with white space, and it does not matter which of
the customary line ends they have (`Text.Relaid`, `Text.visibleLines_of_relaid`).

Since empty lines are not visible, a carriage return and its line feed may be taken for two line
breaks as well as for one, and the visible lines are what stands between any two line breaks
(`Text.visibleLines_eq`).
-/

namespace LiveCheck.Text

/-- The parts without the blanks at their ends, as far as anything is left of them. -/
def visible (parts : List Text) : List Text := (parts.map stripRight).filter (· ≠ [])

/-- The visible lines of a text. -/
def visibleLines (text : Text) : List Text := visible text.lines

/-! ## Blanks at the end -/

theorem stripRight_append {blanks : Text} (h : ∀ c ∈ blanks, isBlank c) (line : Text) :
    stripRight (line ++ blanks) = stripRight line := by
  rw [stripRight, List.reverse_append,
    List.dropWhile_append_of_pos fun c hc => h c (List.mem_reverse.1 hc), stripRight]

/-- A text is what is left without the blanks at its end, and these blanks. -/
theorem exists_stripRight_append (line : Text) :
    ∃ blanks : Text, (∀ c ∈ blanks, isBlank c) ∧ line = line.stripRight ++ blanks := by
  refine ⟨(line.reverse.takeWhile isBlank).reverse, fun c hc => ?_, ?_⟩
  · exact List.mem_takeWhile_imp (List.mem_reverse.1 hc)
  · rw [stripRight, ← List.reverse_append, List.takeWhile_append_dropWhile, List.reverse_reverse]

theorem stripRight_eq_nil {line : Text} : line.stripRight = [] ↔ ∀ c ∈ line, isBlank c := by
  rw [stripRight, List.reverse_eq_nil_iff, List.dropWhile_eq_nil_iff]
  simp

theorem strip_eq_nil {text : Text} : text.strip = [] ↔ ∀ c ∈ text, isBlank c := by
  rw [strip, stripRight_eq_nil]
  refine ⟨fun h => ?_, fun h c hc => h c ((List.dropWhile_sublist isBlank).subset hc)⟩
  -- What is left without the blanks at the front would begin with a blank.
  have hnone : text.stripLeft = [] := by
    cases hleft : text.stripLeft with
    | nil => rfl
    | cons c rest =>
      have hhead : text.stripLeft.head?.any isBlank = false := head_dropWhile isBlank text
      rw [hleft] at hhead h
      simp [h c List.mem_cons_self] at hhead
  exact List.dropWhile_eq_nil_iff.1 hnone

/-! ## Visible lines -/

@[simp] theorem visible_append (a b : List Text) : visible (a ++ b) = visible a ++ visible b := by
  rw [visible, List.map_append, List.filter_append, visible, visible]

theorem visible_cons (line : Text) (later : List Text) :
    visible (line :: later) = visible [line] ++ visible later :=
  visible_append [line] later

@[simp] theorem visible_singleton_nil : visible [[]] = [] := rfl

theorem visible_singleton_append {blanks : Text} (h : ∀ c ∈ blanks, isBlank c) (line : Text) :
    visible [line ++ blanks] = visible [line] := by
  rw [visible, List.map_singleton, stripRight_append h, visible, List.map_singleton]

/-- The visible lines are what stands between line breaks. -/
theorem visibleLines_eq (text : Text) :
    text.visibleLines = visible (List.splitOnP isLineBreak text) := by
  induction text using @induction_on_breaks (isLineBreak · = true) with
  | last line h =>
    rw [List.splitOnP_eq_singleton fun c hc => Bool.eq_false_iff.2 (h c hc), visibleLines]
    by_cases hne : line = []
    · subst hne
      rfl
    · rw [lines_of_unbroken h hne]
  | more line c rest h hc ih =>
    rw [List.splitOnP_append_cons_of_forall_mem (fun d hd => Bool.eq_false_iff.2 (h d hd)) c hc,
      visible_cons, ← ih, visibleLines]
    by_cases hpair : c = '\r' → rest.head? ≠ some '\n'
    · rw [lines_unbroken_append h (lines_cons_break hc hpair), visible_cons]
      rfl
    · -- The line feed of the pair ends an empty line, which is not visible.
      push Not at hpair
      obtain ⟨rfl, hhead⟩ := hpair
      obtain ⟨later, rfl⟩ := List.head?_eq_some_iff.1 hhead
      have hlater : lines ('\n' :: later) = [] :: lines later :=
        lines_cons_break rfl fun h => absurd h (by decide)
      rw [lines_unbroken_append h (show lines ('\r' :: '\n' :: later) = [] :: lines later from rfl),
        visible_cons, visibleLines, hlater, visible_cons [], visible_singleton_nil, List.nil_append]

/-- An unbroken text is one line, which is visible unless it is blank. -/
theorem visibleLines_of_unbroken {line : Text} (h : line.Unbroken) :
    line.visibleLines = visible [line] := by
  rw [visibleLines_eq, List.splitOnP_eq_singleton fun c hc => Bool.eq_false_iff.2 (h c hc)]

/-- A line break parts the visible lines. -/
theorem visibleLines_append_break (before : Text) {c : Char} (hc : isLineBreak c) (rest : Text) :
    visibleLines (before ++ c :: rest) = before.visibleLines ++ rest.visibleLines := by
  rw [visibleLines_eq, List.splitOnP_append_cons before rest hc, visible_append, ← visibleLines_eq,
    ← visibleLines_eq]

theorem visibleLines_of_blank {blanks : Text} (h : ∀ c ∈ blanks, isBlank c) :
    blanks.visibleLines = [] := by
  induction blanks using @induction_on_breaks (isLineBreak · = true) with
  | last line hline =>
    rw [visibleLines_of_unbroken hline]
    exact visible_singleton_append h []
  | more line c rest hline hc ih =>
    have hblank : visible [line] = [] :=
      visible_singleton_append (fun d hd => h d (List.mem_append_left _ hd)) []
    rw [visibleLines_append_break line hc, visibleLines_of_unbroken hline, hblank,
      ih fun d hd => h d (List.mem_append_right _ (List.mem_cons_of_mem _ hd)), List.nil_append]

/-- Blanks at the end of a text are not visible. -/
theorem visibleLines_append_blanks {blanks : Text} (h : ∀ c ∈ blanks, isBlank c) (text : Text) :
    visibleLines (text ++ blanks) = text.visibleLines := by
  induction text using @induction_on_breaks (isLineBreak · = true) with
  | last line hline =>
    -- Blanks up to the next line break go to the line, and those behind it make further lines.
    induction blanks using @induction_on_breaks (isLineBreak · = true) with
    | last part hpart =>
      rw [visibleLines_of_unbroken (Unbroken.append hline hpart), visible_singleton_append h,
        visibleLines_of_unbroken hline]
    | more part c rest hpart hc _ =>
      have hfront : ∀ d ∈ part, isBlank d := fun d hd => h d (List.mem_append_left _ hd)
      have hrest : ∀ d ∈ rest, isBlank d := fun d hd =>
        h d (List.mem_append_right _ (List.mem_cons_of_mem _ hd))
      rw [← List.append_assoc, visibleLines_append_break _ hc, visibleLines_of_blank hrest,
        List.append_nil, visibleLines_of_unbroken (Unbroken.append hline hpart),
        visible_singleton_append hfront, visibleLines_of_unbroken hline]
  | more line c rest _ hc ih =>
    rw [List.append_assoc, List.cons_append, visibleLines_append_break line hc, ih,
      visibleLines_append_break line hc]

/-- A text that ends a line parts the visible lines. -/
theorem visibleLines_append {before : Text} (h : before.EndsLine) (rest : Text) :
    visibleLines (before ++ rest) = before.visibleLines ++ rest.visibleLines := by
  rcases List.eq_nil_or_concat before with rfl | ⟨front, c, rfl⟩
  · rfl
  · rw [List.concat_eq_append] at h ⊢
    have hc : isLineBreak c := h c (by simp)
    rw [List.append_assoc, List.singleton_append, visibleLines_append_break front hc,
      visibleLines_append_break front hc,
      visibleLines_of_blank fun _ hd => absurd hd List.not_mem_nil, List.append_nil]

/-! ## Layouts -/

/-- One change of the layout of a text. -/
inductive Relaid : Text → Text → Prop
  /-- Lines of white space are put in front of a line, or behind the last one. -/
  | blankLines (before blanks after : Text) (hbefore : before.EndsLine)
      (hblank : ∀ c ∈ blanks, isBlank c) (hblanks : blanks.EndsLine) :
      Relaid (before ++ after) (before ++ blanks ++ after)
  /-- White space is put at the end of a line. Line breaks in it put further lines behind it. -/
  | padding (before blanks after : Text) (hblank : ∀ c ∈ blanks, isBlank c)
      (hafter : after.head?.all isLineBreak) :
      Relaid (before ++ after) (before ++ blanks ++ after)
  /-- All lines are ended in one of the customary ways. -/
  | lineEnds (text stop : Text)
      (hstop : stop ∈ ["\n".toList, "\r\n".toList, "\r".toList]) :
      Relaid text (text.lines.flatMap (· ++ stop))

/-- Lines of any texts are visible whichever breaks end them. -/
theorem visibleLines_flatMap {stop : Text} (hne : stop ≠ []) (hstop : ∀ c ∈ stop, isLineBreak c)
    {parts : List Text} (h : ∀ line ∈ parts, line.Unbroken) :
    visibleLines (parts.flatMap (· ++ stop)) = visible parts := by
  induction parts with
  | nil => rfl
  | cons line parts ih =>
    have hline := h line List.mem_cons_self
    have hends : EndsLine (line ++ stop) := by
      intro c hc
      rw [List.getLast?_append_of_ne_nil _ hne] at hc
      exact hstop c (List.mem_of_getLast? hc)
    rw [List.flatMap_cons, visibleLines_append hends,
      ih fun l hl => h l (List.mem_cons_of_mem _ hl),
      visibleLines_append_blanks fun c hc => isBlank_of_isLineBreak (hstop c hc),
      visibleLines_of_unbroken hline, ← visible_cons]

/-- A text that was laid out anew has the same visible lines. -/
theorem Relaid.visibleLines {a b : Text} (h : Relaid a b) : b.visibleLines = a.visibleLines := by
  cases h with
  | blankLines before blanks after hbefore hblank hblanks =>
    rw [List.append_assoc, visibleLines_append hbefore, visibleLines_append hblanks,
      visibleLines_of_blank hblank, List.nil_append, visibleLines_append hbefore]
  | padding before blanks after hblank hafter =>
    cases after with
    | nil => rw [List.append_nil, List.append_nil, visibleLines_append_blanks hblank]
    | cons c rest =>
      have hc : isLineBreak c := hafter
      rw [visibleLines_append_break _ hc, visibleLines_append_blanks hblank,
        visibleLines_append_break _ hc]
  | lineEnds text stop hstop =>
    refine visibleLines_flatMap ?_ ?_ fun line => unbroken_of_mem_lines
    · rintro rfl
      exact absurd hstop (by decide)
    · have hall : ["\n".toList, "\r\n".toList, "\r".toList].all (·.all isLineBreak) := by decide
      exact List.all_eq_true.1 (List.all_eq_true.1 hall _ hstop)

/-- The visible lines do not depend on the layout. -/
theorem visibleLines_of_relaid {a b : Text} (h : Relation.EqvGen Relaid a b) :
    a.visibleLines = b.visibleLines := by
  induction h with
  | rel a b h => exact h.visibleLines.symm
  | refl a => rfl
  | symm a b _ ih => exact ih.symm
  | trans a b c _ _ hab hbc => exact hab.trans hbc

end LiveCheck.Text
