import LiveCheck.Text.Line

/-!
# Lines of a text put together

Putting two texts together puts their lines together, if the first one ends a line
(`Text.EndsLine`) and the second one does not go on with the line break (`lines_append`). A text
that is put together from lines has these lines (`lines_flatMap`).
-/

namespace LiveCheck.Text

/-- The text is empty or ends with a line break. -/
def EndsLine (text : Text) : Prop := ∀ c, text.getLast? = some c → isLineBreak c

instance (text : Text) : Decidable text.EndsLine :=
  decidable_of_iff (text.getLast?.all isLineBreak) (Option.all_eq_true _ _)

theorem EndsLine.tail {c : Char} {rest : Text} (h : EndsLine (c :: rest)) : EndsLine rest := by
  intro d hd
  refine h d ?_
  cases rest with
  | nil => simp at hd
  | cons _ _ => rwa [List.getLast?_cons_cons]

/-- A text that ends a line goes on after a character that does not. -/
theorem EndsLine.rest_ne_nil {c : Char} {rest : Text} (h : EndsLine (c :: rest))
    (hc : isLineBreak c = false) : rest ≠ [] := by
  rintro rfl
  have := h c rfl
  simp [hc] at this

theorem lines_ne_nil {text : Text} (h : text ≠ []) : lines text ≠ [] := by
  unfold lines
  split
  · exact absurd rfl h
  · simp
  · split
    · simp
    · split <;> simp

theorem lines_cons_break {c : Char} {rest : Text} (hc : isLineBreak c)
    (h : c = '\r' → rest.head? ≠ some '\n') : lines (c :: rest) = [] :: lines rest := by
  rw [lines.eq_3 _ _ fun later hr hrest => h hr (by rw [hrest]; rfl), if_pos hc]

theorem lines_cons_of_not_break {c : Char} {rest line : Text} {later : List Text}
    (hc : isLineBreak c = false) (h : lines rest = line :: later) :
    lines (c :: rest) = (c :: line) :: later := by
  rw [lines.eq_3, if_neg (by simp [hc]), h]
  rintro later' rfl
  simp [isLineBreak] at hc

/-- The lines of two texts together. -/
theorem lines_append {a b : Text} (ha : EndsLine a) (hb : b.head? ≠ some '\n') :
    lines (a ++ b) = lines a ++ lines b := by
  induction a using lines.induct with
  | case1 => rfl
  | case2 rest ih =>
    change [] :: lines (rest ++ b) = [] :: (lines rest ++ lines b)
    rw [ih ha.tail.tail]
  | case3 c rest hr hc ih =>
    rw [List.cons_append, lines_cons_break hc, lines_cons_break hc, ih ha.tail, List.cons_append]
    · rintro rfl hrest
      obtain ⟨later, rfl⟩ := List.head?_eq_some_iff.1 hrest
      exact hr later rfl rfl
    · rintro rfl hrest
      cases rest with
      | nil => exact hb hrest
      | cons d later =>
        obtain rfl := Option.some.inj hrest
        exact hr later rfl rfl
  | case4 c rest hr hc hnil =>
    exact absurd hnil (lines_ne_nil (ha.rest_ne_nil (by simpa using hc)))
  | case5 c rest hr hc line later hlines ih =>
    have hc : isLineBreak c = false := by simpa using hc
    rw [List.cons_append, lines_cons_of_not_break hc hlines,
      lines_cons_of_not_break hc (by rw [ih ha.tail, hlines, List.cons_append]), List.cons_append]

/-! ## Texts put together from lines -/

/-- The text fits on one line. -/
def Unbroken (text : Text) : Prop := ∀ c ∈ text, ¬isLineBreak c

instance (text : Text) : Decidable text.Unbroken :=
  List.decidableBAll (fun c => ¬isLineBreak c) text

theorem Unbroken.append {a b : Text} (ha : a.Unbroken) (hb : b.Unbroken) : (a ++ b).Unbroken :=
  fun c hc => (List.mem_append.1 hc).elim (ha c) (hb c)

/-- The lines of a text have no line breaks. -/
theorem unbroken_of_mem_lines {text line : Text} (h : line ∈ text.lines) : line.Unbroken := by
  have hempty : Unbroken [] := fun _ hc => absurd hc List.not_mem_nil
  induction text using lines.induct generalizing line with
  | case1 => exact absurd h List.not_mem_nil
  | case2 rest ih =>
    rcases List.mem_cons.1 h with rfl | h
    · exact hempty
    · exact ih h
  | case3 c rest hr hc ih =>
    rw [lines.eq_3 _ _ hr, if_pos hc] at h
    rcases List.mem_cons.1 h with rfl | h
    · exact hempty
    · exact ih h
  | case4 c rest hr hc hnil =>
    rw [lines.eq_3 _ _ hr, if_neg hc, hnil, List.mem_singleton] at h
    subst h
    exact fun d hd => List.mem_singleton.1 hd ▸ hc
  | case5 c rest hr hc first later hlines ih =>
    rw [lines.eq_3 _ _ hr, if_neg hc, hlines] at h
    rcases List.mem_cons.1 h with rfl | h
    · have hfirst : first.Unbroken := ih (hlines ▸ List.mem_cons_self)
      exact fun d hd => (List.mem_cons.1 hd).elim (fun hd => hd ▸ hc) (hfirst d)
    · exact ih (hlines ▸ List.mem_cons_of_mem _ h)

theorem lines_of_unbroken {line : Text} (h : line.Unbroken) (hne : line ≠ []) :
    line.lines = [line] := by
  induction line with
  | nil => exact absurd rfl hne
  | cons c rest ih =>
    have hc : isLineBreak c = false := Bool.eq_false_iff.2 (h c List.mem_cons_self)
    by_cases hrest : rest = []
    · rw [hrest, lines.eq_3 c [] (by simp), if_neg (Bool.eq_false_iff.1 hc)]
      rfl
    · exact lines_cons_of_not_break hc (ih (fun d hd => h d (List.mem_cons_of_mem _ hd)) hrest)

/-- Where a line ends, its text makes it longer at the front. -/
theorem lines_unbroken_append {line rest : Text} {later : List Text} (h : line.Unbroken)
    (hrest : lines rest = [] :: later) : lines (line ++ rest) = line :: later := by
  induction line with
  | nil => exact hrest
  | cons c line ih =>
    exact lines_cons_of_not_break (Bool.eq_false_iff.2 (h c List.mem_cons_self))
      (ih fun d hd => h d (List.mem_cons_of_mem _ hd))

theorem lines_line {line : Text} (h : line.Unbroken) (rest : Text) :
    lines (line ++ '\n' :: rest) = line :: lines rest :=
  lines_unbroken_append h (lines_cons_break rfl fun h => absurd h (by decide))

/-- The lines that a text was put together from. -/
theorem lines_flatMap {parts : List Text} (h : ∀ line ∈ parts, line.Unbroken) :
    lines (parts.flatMap (· ++ ['\n'])) = parts := by
  induction parts with
  | nil => rfl
  | cons line parts ih =>
    rw [List.flatMap_cons, List.append_assoc, List.singleton_append,
      lines_line (h line List.mem_cons_self), ih fun d hd => h d (List.mem_cons_of_mem _ hd)]

end LiveCheck.Text
