import LiveCheck.Listing.Marker
import LiveCheck.Proofs.Text.Character
import LiveCheck.Proofs.Text.Join

/-!
# Finding markers

What `findMarkers` makes of text without dollar signs (`markersFrom_append`), and of a group of
codes (`leadingCodes_join`). A line has no markers if no dollar sign of it has a digit after it
(`markersFrom_eq_nil`).

Whatever the line, its codes are runs of digits (`digits_of_mem_findMarkers`), and no marker points
to the left of where the search began (`le_column_of_mem_markersFrom`).
-/

namespace LiveCheck

/-- Does the text hold a dollar sign with a digit after it? -/
def namesCode : Text → Bool
  | [] => false
  | c :: rest => c == '$' && rest.head?.any isDecimalDigit || namesCode rest

/-! ## Text between groups -/

/-- What is in front of the first dollar sign is passed over. -/
theorem markersFrom_append {between : Text} (h : '$' ∉ between) (offset : Nat) (rest : Text) :
    markersFrom offset (between ++ rest) = markersFrom (offset + between.length) rest := by
  induction between generalizing offset with
  | nil => rfl
  | cons c between ih =>
    rw [List.mem_cons, not_or] at h
    obtain ⟨hc, h⟩ := h
    rw [List.cons_append, markersFrom, if_neg (Ne.symm hc), List.nil_append, ih h,
      List.length_cons, Nat.add_right_comm, Nat.add_assoc]

/-- A line that names no code has no markers. -/
theorem markersFrom_eq_nil {text : Text} (h : namesCode text = false) (offset : Nat) :
    markersFrom offset text = [] := by
  induction text generalizing offset with
  | nil => rfl
  | cons c rest ih =>
    obtain ⟨hc, hrest⟩ := Bool.or_eq_false_iff.1 h
    rw [markersFrom, ih hrest, List.append_nil]
    split
    · next hdollar =>
      rw [leadingCodes, if_neg (by simpa [hdollar] using hc), List.map_nil]
    · rfl

/-- A text without dollar signs names no code. -/
theorem namesCode_append {text : Text} (h : '$' ∉ text) (rest : Text) :
    namesCode (text ++ rest) = namesCode rest := by
  induction text with
  | nil => rfl
  | cons c text ih =>
    rw [List.mem_cons, not_or] at h
    obtain ⟨hc, h⟩ := h
    rw [List.cons_append, namesCode, ih h, beq_false_of_ne (Ne.symm hc), Bool.false_and,
      Bool.false_or]

/-! ## Groups -/

theorem codesFrom_append {digits : Text} (h : ∀ c ∈ digits, isDecimalDigit c) (code rest : Text) :
    codesFrom code (digits ++ rest) = codesFrom (code ++ digits) rest := by
  induction digits generalizing code with
  | nil => rw [List.nil_append, List.append_nil]
  | cons c digits ih =>
    rw [List.cons_append, codesFrom, if_pos (h c List.mem_cons_self),
      ih fun d hd => h d (List.mem_cons_of_mem _ hd), List.append_assoc, List.singleton_append]

/-- The text does not go on with a list of codes. -/
def EndsCodes (rest : Text) : Prop := ∀ c, rest.head? = some c → isDecimalDigit c = false ∧ c ≠ ','

/-- A list of codes ends where neither a digit nor another code follows. -/
theorem codesFrom_of_ends {rest : Text} (h : EndsCodes rest) (code : Text) :
    codesFrom code rest = [code] := by
  cases rest with
  | nil => rfl
  | cons c rest =>
    obtain ⟨hdigit, hcomma⟩ := h c rfl
    rw [codesFrom, if_neg (by simp [hdigit]), if_neg (by simp [hcomma])]

theorem head_join {code : Text} (hne : code ≠ []) (h : ∀ c ∈ code, isDecimalDigit c)
    (codes : List Text) (rest : Text) :
    (Text.join [','] (code :: codes) ++ rest).head?.any isDecimalDigit = true := by
  obtain ⟨c, digits, rfl⟩ := List.exists_cons_of_ne_nil hne
  cases codes <;> simp [Text.join, h c List.mem_cons_self]

/-- Codes are read back from their list. -/
theorem codesFrom_join {codes : List Text} {code rest : Text}
    (hcode : ∀ c ∈ code, isDecimalDigit c)
    (h : ∀ code ∈ codes, code ≠ [] ∧ ∀ c ∈ code, isDecimalDigit c) (hrest : EndsCodes rest) :
    codesFrom [] (Text.join [','] (code :: codes) ++ rest) = code :: codes := by
  induction codes generalizing code with
  | nil =>
    rw [Text.join, List.intersperse_singleton, List.flatten_singleton, codesFrom_append hcode,
      List.nil_append, codesFrom_of_ends hrest]
  | cons next codes ih =>
    obtain ⟨hne, hnext⟩ := h next List.mem_cons_self
    rw [Text.join_cons_cons, List.append_assoc, List.append_assoc, codesFrom_append hcode,
      List.nil_append, List.singleton_append, codesFrom, if_neg (by decide), head_join hne hnext,
      if_pos (by decide), ih hnext fun d hd => h d (List.mem_cons_of_mem _ hd)]

/-- A list of codes is read back, if it does not go on after its end. -/
theorem leadingCodes_join {codes : List Text} {rest : Text}
    (h : ∀ code ∈ codes, code ≠ [] ∧ ∀ c ∈ code, isDecimalDigit c) (hne : codes ≠ [])
    (hrest : EndsCodes rest) : leadingCodes (Text.join [','] codes ++ rest) = codes := by
  obtain ⟨code, codes, rfl⟩ := List.exists_cons_of_ne_nil hne
  obtain ⟨hcode, hdigits⟩ := h code List.mem_cons_self
  rw [leadingCodes, if_pos (head_join hcode hdigits codes rest),
    codesFrom_join hdigits (fun d hd => h d (List.mem_cons_of_mem _ hd)) hrest]

/-! ## Any text -/

/-- The codes of a list are runs of digits. -/
theorem digits_of_mem_codesFrom {code text : Text} (hcode : ∀ c ∈ code, isDecimalDigit c)
    (hne : code ≠ [] ∨ text.head?.any isDecimalDigit) {found : Text}
    (h : found ∈ codesFrom code text) : found ≠ [] ∧ ∀ c ∈ found, isDecimalDigit c := by
  induction text generalizing code with
  | nil =>
    obtain rfl : found = code := by simpa [codesFrom] using h
    exact ⟨by simpa using hne, hcode⟩
  | cons c rest ih =>
    rw [codesFrom] at h
    split at h
    · rename_i hc
      -- The digit goes on with the code that is read.
      refine ih (fun d hd => ?_) (.inl (by simp)) h
      rcases List.mem_append.1 hd with hd | hd
      · exact hcode d hd
      · exact List.mem_singleton.1 hd ▸ hc
    · -- The code that was read ends here, so it has a digit.
      rename_i hc
      have hne : code ≠ [] := hne.resolve_right (by simpa using hc)
      split at h
      · rename_i hcomma
        rcases List.mem_cons.1 h with rfl | h
        · exact ⟨hne, hcode⟩
        · exact ih (fun _ hd => absurd hd List.not_mem_nil)
            (.inr (Bool.and_eq_true_iff.1 hcomma).2) h
      · exact List.mem_singleton.1 h ▸ ⟨hne, hcode⟩

theorem mem_markersFrom_cons {offset : Nat} {c : Char} {rest : Text} {m : Marker} :
    m ∈ markersFrom offset (c :: rest) ↔
      (c = '$' ∧ m.code ∈ leadingCodes rest ∧ m.column = offset - markerShift) ∨
        m ∈ markersFrom (offset + 1) rest := by
  rw [markersFrom, List.mem_append]
  refine or_congr_left ?_
  split
  · rename_i hc
    simp only [hc, List.mem_map, true_and]
    constructor
    · rintro ⟨code, hcode, rfl⟩
      exact ⟨hcode, rfl⟩
    · rintro ⟨hcode, hcolumn⟩
      exact ⟨m.code, hcode, by rw [← hcolumn]⟩
  · rename_i hc
    simp [hc]

/-- The codes of a line are runs of digits. -/
theorem digits_of_mem_findMarkers {line : Text} {m : Marker} (h : m ∈ findMarkers line) :
    m.code ≠ [] ∧ ∀ c ∈ m.code, isDecimalDigit c := by
  rw [findMarkers] at h
  generalize 0 = offset at h
  induction line generalizing offset with
  | nil => simp [markersFrom] at h
  | cons c rest ih =>
    rcases mem_markersFrom_cons.1 h with ⟨-, hcode, -⟩ | h
    · rw [leadingCodes] at hcode
      split at hcode
      · exact digits_of_mem_codesFrom (fun _ hd => absurd hd List.not_mem_nil) (.inr ‹_›) hcode
      · exact absurd hcode List.not_mem_nil
    · exact ih _ h

/-- No marker stands in front of where the scan began. -/
theorem le_column_of_mem_markersFrom {offset : Nat} {text : Text} {m : Marker}
    (h : m ∈ markersFrom offset text) : (offset : Int) - markerShift ≤ m.column := by
  induction text generalizing offset with
  | nil => simp [markersFrom] at h
  | cons c rest ih =>
    rcases mem_markersFrom_cons.1 h with ⟨-, -, hcolumn⟩ | h
    · exact Int.le_of_eq hcolumn.symm
    · have := ih h
      omega

end LiveCheck
