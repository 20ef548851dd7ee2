import LiveCheck.Proofs.Listing.Stepwise

/-!
# Where reading a listing stops

There is one kind of line at which reading stops: a line directive in an open block whose numeral is
too long (`ListingLine.StopsAt`). Whether a block is open at a line is told by the lines before it
(`ListingLine.LeaveOpen`).

If there are such lines, reading fails with the numeral of the first of them, and if there is none
it gives records. Nothing else fails, not even if every look-up could (`readListing_fails_iff`).
-/

namespace LiveCheck

namespace ListingLine

/-! ## Open blocks -/

/-- A block is open after the lines: one of them opens it, and none of those behind closes it. -/
def LeaveOpen (lines : List Text) : Prop :=
  ∃ before line after, lines = before ++ line :: after ∧ Opens line ∧ ∀ l ∈ after, ¬Closes l

theorem not_leaveOpen_nil : ¬LeaveOpen [] := by
  rintro ⟨before, line, after, h, -⟩
  simp at h

/-- The last line opens a block, or leaves the one open that was. -/
theorem leaveOpen_concat {lines : List Text} {line : Text} :
    LeaveOpen (lines ++ [line]) ↔ Opens line ∨ (LeaveOpen lines ∧ ¬Closes line) := by
  constructor
  · rintro ⟨before, opening, after, heq, hopens, hafter⟩
    rcases List.eq_nil_or_concat after with rfl | ⟨between, last, rfl⟩
    · obtain ⟨-, hline⟩ := List.append_inj' heq rfl
      obtain rfl := List.singleton_inj.1 hline
      exact .inl hopens
    · rw [List.concat_eq_append] at heq hafter
      rw [← List.cons_append, ← List.append_assoc] at heq
      obtain ⟨hlines, hline⟩ := List.append_inj' heq rfl
      obtain rfl := List.singleton_inj.1 hline
      exact .inr ⟨⟨before, opening, between, hlines, hopens,
        fun l hl => hafter l (List.mem_append_left _ hl)⟩,
        hafter line (List.mem_append_right _ List.mem_cons_self)⟩
  · rintro (hopens | ⟨⟨before, opening, after, rfl, hopens, hafter⟩, hcloses⟩)
    · exact ⟨lines, line, [], rfl, hopens, fun _ h => absurd h List.not_mem_nil⟩
    · refine ⟨before, opening, after ++ [line], by simp, hopens, fun l hl => ?_⟩
      rcases List.mem_append.1 hl with hl | hl
      · exact hafter l hl
      · rwa [List.mem_singleton.1 hl]

theorem leaveOpen_of_continues {lines : List Text} {line : Text}
    (h : (read line).endsBlock = false) : LeaveOpen (lines ++ [line]) ↔ LeaveOpen lines := by
  have hnone : ¬(Opens line ∨ Closes line) := by
    rw [← boundary_iff_opens_or_closes, boundary_iff, h]
    decide
  rw [leaveOpen_concat]
  exact ⟨fun hopen => (hopen.resolve_left fun h => hnone (.inl h)).1,
    fun hopen => .inr ⟨hopen, fun h => hnone (.inr h)⟩⟩

theorem not_leaveOpen_of_closing {lines : List Text} {line : Text} (h : read line = closing) :
    ¬LeaveOpen (lines ++ [line]) := by
  have hopens : ¬Opens line := fun hopens => by simp [read_of_markers hopens.1 hopens.2] at h
  have hends : Opens line ∨ Closes line := by
    rw [← boundary_iff_opens_or_closes, boundary_iff, h]
    rfl
  rw [leaveOpen_concat]
  rintro (hopens' | ⟨-, hcloses⟩)
  · exact hopens hopens'
  · exact hcloses (hends.resolve_left hopens)

/-! ## Numerals that are too long -/

/-- The line is a line directive whose numeral is too long. -/
def Overlong (line numeral : Text) : Prop :=
  ¬Opens line ∧ directive? (body line) = some numeral ∧ digitLimit < numeral.length

theorem overlong_iff {line numeral : Text} :
    Overlong line numeral ↔ read line = directive numeral ∧ digitLimit < numeral.length := by
  constructor
  · rintro ⟨hopens, hdirective, hlong⟩
    exact ⟨(read_eq_directive_iff hopens).2 hdirective, hlong⟩
  · rintro ⟨hread, hlong⟩
    have hopens : ¬Opens line := fun h => by simp [read_of_markers h.1 h.2] at hread
    exact ⟨hopens, (read_eq_directive_iff hopens).1 hread, hlong⟩

/-- Line `k` of the lines, counted from `0`, is a line directive in an open block, and its numeral
    is too long. -/
def StopsAt (lines : List Text) (k : Nat) (numeral : Text) : Prop :=
  ∃ line, lines[k]? = some line ∧ LeaveOpen (lines.take k) ∧ Overlong line numeral

theorem StopsAt.lt_length {lines : List Text} {k : Nat} {numeral : Text}
    (h : StopsAt lines k numeral) : k < lines.length := by
  obtain ⟨line, hline, -⟩ := h
  exact (List.getElem?_eq_some_iff.1 hline).1

/-- A line has one numeral. -/
theorem StopsAt.unique {lines : List Text} {k : Nat} {numeral other : Text}
    (h : StopsAt lines k numeral) (h' : StopsAt lines k other) : numeral = other := by
  obtain ⟨line, hline, -, -, hnumeral, -⟩ := h
  obtain ⟨line', hline', -, -, hother, -⟩ := h'
  obtain rfl := Option.some.inj (hline.symm.trans hline')
  exact Option.some.inj (hnumeral.symm.trans hother)

theorem stopsAt_concat {lines : List Text} {line : Text} {k : Nat} {numeral : Text} :
    StopsAt (lines ++ [line]) k numeral ↔
      StopsAt lines k numeral ∨ (k = lines.length ∧ LeaveOpen lines ∧ Overlong line numeral) := by
  rcases Nat.lt_trichotomy k lines.length with hk | rfl | hk
  · rw [StopsAt, List.getElem?_append_left hk, List.take_append_of_le_length hk.le]
    exact ⟨.inl, fun h => h.resolve_right fun h => absurd h.1 hk.ne⟩
  · rw [StopsAt, List.getElem?_concat_length, List.take_left]
    refine ⟨?_, ?_⟩
    · rintro ⟨_, ⟨⟩, hopen, hlong⟩
      exact .inr ⟨rfl, hopen, hlong⟩
    · rintro (h | ⟨-, hopen, hlong⟩)
      · exact absurd h.lt_length (Nat.lt_irrefl _)
      · exact ⟨line, rfl, hopen, hlong⟩
  · refine iff_of_false (fun h => ?_) ?_
    · have := h.lt_length
      rw [List.length_append, List.length_singleton] at this
      omega
    · rintro (h | ⟨rfl, -⟩)
      · exact absurd h.lt_length (by omega)
      · omega

end ListingLine

/-! ## Reading -/

namespace Reading

open ListingLine

variable {lines : List Text} {s : Reading}

/-- What holds of the state after lines at none of which reading stopped. -/
structure Behind (lines : List Text) (s : Reading) : Prop where
  knowing : s.Knowing
  leaveOpen : s.current.isSome ↔ LeaveOpen lines
  goesOn : ∀ k numeral, ¬StopsAt lines k numeral

theorem behind_nil : Behind [] {} where
  knowing := by rintro b ⟨⟩
  leaveOpen := iff_of_false (by decide) not_leaveOpen_nil
  goesOn _ _ h := absurd h.lt_length (Nat.not_lt_zero _)

/-- The state after one more line, if reading does not stop at it. -/
theorem Behind.concat {line : Text} (h : Behind lines s) {t : Reading} (hknowing : t.Knowing)
    (hopen : t.current.isSome ↔ LeaveOpen (lines ++ [line]))
    (hgoes : ∀ numeral, LeaveOpen lines → ¬Overlong line numeral) :
    Behind (lines ++ [line]) t where
  knowing := hknowing
  leaveOpen := hopen
  goesOn k numeral hstops := by
    rcases stopsAt_concat.1 hstops with hstops | ⟨-, hopen, hlong⟩
    · exact h.goesOn k numeral hstops
    · exact hgoes numeral hopen hlong

/-- With most lines an open block stays open, and none is opened. -/
theorem Behind.keep {line : Text} (h : Behind lines s) {t : Reading}
    (hends : (read line).endsBlock = false) (hknowing : t.Knowing)
    (hcurrent : t.current.isSome = s.current.isSome)
    (hgoes : ∀ numeral, LeaveOpen lines → ¬Overlong line numeral) :
    Behind (lines ++ [line]) t := by
  refine h.concat hknowing ?_ hgoes
  rw [hcurrent, leaveOpen_of_continues hends]
  exact h.leaveOpen

/-- Reading a directive stops in an open block, if its numeral is too long. -/
theorem Behind.step_directive {line numeral : Text} (h : Behind lines s)
    (hread : read line = .directive numeral) :
    (∃ t, s.follow (.directive numeral) = .ok t ∧ Behind (lines ++ [line]) t) ∨
      ∃ numeral', LeaveOpen lines ∧ Overlong line numeral' ∧
        s.follow (.directive numeral) = .error (.overlong ⟨numeral'.length⟩) := by
  have hends : (read line).endsBlock = false := by rw [hread]; rfl
  cases hcurrent : s.current with
  | none =>
    refine .inl ⟨s, by rw [follow, hcurrent], h.keep hends h.knowing rfl ?_⟩
    intro _ hopen
    have hsome := h.leaveOpen.2 hopen
    simp [hcurrent] at hsome
  | some b =>
    by_cases hlong : digitLimit < numeral.length
    · have hrefused : readNumeral numeral = .error ⟨numeral.length⟩ := by
        rw [readNumeral, if_neg (by omega)]
      refine .inr ⟨numeral, h.leaveOpen.1 (by rw [hcurrent]; rfl),
        overlong_iff.2 ⟨hread, hlong⟩, ?_⟩
      simp only [follow, hcurrent, hrefused]
    · have hvalue : readNumeral numeral = .ok (numeralValue numeral) := by
        rw [readNumeral, if_pos (by omega)]
      have hcall := h.knowing.call (.setLine (numeralValue numeral))
      rw [hcurrent] at hcall
      refine .inl ⟨_, by simp only [follow, hcurrent, hvalue]; rfl,
        h.keep hends hcall (by rw [hcurrent]; rfl) fun other _ hother => ?_⟩
      obtain ⟨hread', hlong'⟩ := overlong_iff.1 hother
      obtain rfl := directive.inj (hread.symm.trans hread')
      exact hlong hlong'

/-- Reading a line stops at a numeral that is too long, or it goes on. -/
theorem Behind.step (h : Behind lines s) (line : Text) :
    (∃ t, s.step line = .ok t ∧ Behind (lines ++ [line]) t) ∨
      ∃ numeral, LeaveOpen lines ∧ Overlong line numeral ∧
        s.step line = .error (.overlong ⟨numeral.length⟩) := by
  have hother (hread : ∀ numeral, read line ≠ directive numeral) (numeral : Text)
      (_ : LeaveOpen lines) : ¬Overlong line numeral :=
    fun hlong => hread numeral (overlong_iff.1 hlong).1
  rw [step_eq h.knowing]
  cases hread : read line with
  | markers found =>
    refine .inl ⟨_, by rw [follow, h.knowing.close]; rfl, h.concat ?_ ?_ (hother (by simp [hread]))⟩
    · rintro b ⟨⟩
      exact Block.knows_ofMarkers found
    · exact iff_of_true rfl (leaveOpen_concat.2 (.inl (read_eq_markers_iff.1 hread).1))
  | closing =>
    refine .inl ⟨_, by rw [follow, h.knowing.close], h.concat ?_ ?_ (hother (by simp [hread]))⟩
    · rintro b ⟨⟩
    · exact iff_of_false (by simp) (not_leaveOpen_of_closing hread)
  | blank =>
    exact .inl ⟨s, rfl, h.keep (by rw [hread]; rfl) h.knowing rfl (hother (by simp [hread]))⟩
  | codeMessage code text =>
    exact .inl ⟨_, rfl, h.keep (by rw [hread]; rfl) (h.knowing.call (.switchCode code text))
      Option.isSome_map (hother (by simp [hread]))⟩
  | continuation text =>
    exact .inl ⟨_, rfl, h.keep (by rw [hread]; rfl) (h.knowing.call (.addContinuation text))
      Option.isSome_map (hother (by simp [hread]))⟩
  | directive numeral => exact h.step_directive hread

/-- Reading lines stops at the first line at which it can. -/
theorem steps_cases (lines : List Text) :
    (∃ s, steps {} lines = .ok s ∧ Behind lines s) ∨
      ∃ k numeral, StopsAt lines k numeral ∧ (∀ j < k, ∀ other, ¬StopsAt lines j other) ∧
        steps {} lines = .error (.overlong ⟨numeral.length⟩) := by
  induction lines using List.reverseRecOn with
  | nil => exact .inl ⟨{}, rfl, behind_nil⟩
  | append_singleton lines line ih =>
    have hconcat : steps {} (lines ++ [line]) = steps {} lines >>= fun s => s.step line := by
      rw [steps, List.foldlM_append]
      simp only [List.foldlM_cons, List.foldlM_nil, bind_pure]
      rfl
    rw [hconcat]
    rcases ih with ⟨s, hs, hbehind⟩ | ⟨k, numeral, hstops, hfirst, herror⟩
    · rw [hs]
      rcases hbehind.step line with ⟨t, ht, hbehind'⟩ | ⟨numeral, hopen, hlong, herror⟩
      · exact .inl ⟨t, ht, hbehind'⟩
      · refine .inr ⟨lines.length, numeral, stopsAt_concat.2 (.inr ⟨rfl, hopen, hlong⟩), ?_, herror⟩
        intro j hj other hearlier
        rcases stopsAt_concat.1 hearlier with hearlier | ⟨rfl, -⟩
        · exact hbehind.goesOn j other hearlier
        · exact absurd hj (Nat.lt_irrefl _)
    · rw [herror]
      refine .inr ⟨k, numeral, stopsAt_concat.2 (.inl hstops), fun j hj other hearlier => ?_, rfl⟩
      rcases stopsAt_concat.1 hearlier with hearlier | ⟨rfl, -⟩
      · exact hfirst j hj other hearlier
      · exact absurd hstops.lt_length (by omega)

end Reading

/-! ## Listings -/

open ListingLine in
/-- Reading a listing gives records if it stops at no line, and else it stops at the first line at
    which it can. -/
theorem readListing_cases (text : Text) :
    (∃ records, readListing text = .ok records ∧ ∀ k numeral, ¬StopsAt text.lines k numeral) ∨
      ∃ k numeral, StopsAt text.lines k numeral ∧ (∀ j < k, ∀ other, ¬StopsAt text.lines j other) ∧
        readListing text = .error ⟨numeral.length⟩ := by
  have hstepwise := Reading.ofText_eq text
  rcases Reading.steps_cases text.lines with ⟨s, hs, hbehind⟩ | ⟨k, numeral, hstops, hfirst, herror⟩
  · have hclose : (Reading.steps {} text.lines >>= Reading.close) = s.close := by
      rw [hs]
      rfl
    rw [Reading.ofText, hclose, hbehind.knowing.close] at hstepwise
    cases hread : readListing text with
    | ok records => exact .inl ⟨records, rfl, hbehind.goesOn⟩
    | error e => simp [hread, Except.map, Except.mapError] at hstepwise
  · have hclose : (Reading.steps {} text.lines >>= Reading.close) =
        .error (.overlong ⟨numeral.length⟩) := by
      rw [herror]
      rfl
    rw [Reading.ofText, hclose] at hstepwise
    cases hread : readListing text with
    | ok records => simp [hread, Except.map, Except.mapError] at hstepwise
    | error e =>
      have he : (⟨numeral.length⟩ : OverlongNumeral) = e := by
        simpa [hread, Except.map, Except.mapError] using hstepwise
      exact .inr ⟨k, numeral, hstops, hfirst, by rw [he]⟩

open ListingLine in
/-- Reading a listing fails if and only if one of its lines is a line directive in an open block
    with a numeral that is too long, and then it fails with the numeral of the first such line. With
    every look-up one that can fail, it fails no more than that. -/
theorem readListing_fails_iff (text : Text) :
    ((∃ e, readListing text = .error e) ↔ ∃ k numeral, StopsAt text.lines k numeral) ∧
      (∀ k numeral, StopsAt text.lines k numeral →
        (∀ j < k, ∀ other, ¬StopsAt text.lines j other) →
        readListing text = .error ⟨numeral.length⟩) ∧
      ((∀ k numeral, ¬StopsAt text.lines k numeral) → ∃ records, readListing text = .ok records) ∧
      Reading.ofText text = (readListing text).mapError .overlong := by
  refine ⟨?_, ?_, ?_, Reading.ofText_eq text⟩
  · rcases readListing_cases text with ⟨records, hread, hnone⟩ | ⟨k, numeral, hstops, -, hread⟩
    · refine iff_of_false ?_ ?_
      · rintro ⟨e, he⟩
        simp [hread] at he
      · rintro ⟨k, numeral, hstops⟩
        exact hnone k numeral hstops
    · exact iff_of_true ⟨_, hread⟩ ⟨k, numeral, hstops⟩
  · intro k numeral hstops hfirst
    rcases readListing_cases text with ⟨records, -, hnone⟩ | ⟨j, other, hstops', hfirst', hread⟩
    · exact absurd hstops (hnone k numeral)
    · -- There is one first line, and it has one numeral.
      obtain hlt | rfl | hlt := Nat.lt_trichotomy j k
      · exact absurd hstops' (hfirst j hlt other)
      · rw [hread, hstops.unique hstops']
      · exact absurd hstops (hfirst' k hlt numeral)
  · intro hnone
    rcases readListing_cases text with ⟨records, hread, -⟩ | ⟨k, numeral, hstops, -⟩
    · exact ⟨records, hread⟩
    · exact absurd hstops (hnone k numeral)

/-- A block with an empty body, a code that was not announced, and a block that is not finished. -/
example : readListing "****  $7\n****\n9 other\n LINE 3\n****  $7,7\n****".toList =
    .ok [⟨"7".toList, 4, 3, []⟩] := by
  decide +kernel

end LiveCheck
