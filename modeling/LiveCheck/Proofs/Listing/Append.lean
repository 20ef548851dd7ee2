import LiveCheck.Proofs.Listing.Sort
import LiveCheck.Proofs.Text.Line

/-!
# Listings put together

A line that opens a block, and a line that closes one, leaves nothing of the block that was open but
its records (`ListingLine.Boundary`). So a listing can be cut in front of such a line: the two parts
are read on their own, and what they hold is sorted together (`readListing_append`).
-/

namespace LiveCheck

/-! ## Boundaries -/

namespace ListingLine

/-- A line with which no block goes on: a marked line with markers, or a line that is not marked and
    neither blank, nor a line directive, nor a code message, and that is not indented or is the echo
    of a source line. -/
def Boundary (line : Text) : Prop :=
  (isMarked line ∧ findMarkers line ≠ []) ∨
    (¬isMarked line ∧ ¬line.all isBlank ∧ directive? line = none ∧ codeMessage? line = none ∧
      (¬line.head?.any isBlank ∨ isSourceEcho line))

/-- A kind of line with which no block goes on. -/
def endsBlock : ListingLine → Bool
  | markers _ | closing => true
  | _ => false

/-- A marked line without markers is one that a block goes on with. -/
theorem ofBody_true_not_endsBlock (body : Text) : (ofBody true body).endsBlock = false := by
  rw [ofBody]
  split
  · rfl
  split
  · rfl
  split
  · rfl
  · rfl

/-- A line that is not marked ends a block if nothing else can be made of it. -/
theorem ofBody_false_endsBlock (line : Text) : (ofBody false line).endsBlock = true ↔
    ¬line.all isBlank ∧ directive? line = none ∧ codeMessage? line = none ∧
      (¬line.head?.any isBlank ∨ isSourceEcho line) := by
  rw [ofBody]
  cases directive? line with
  | some numeral => simp [endsBlock]
  | none =>
    cases hcode : codeMessage? line with
    | some m => simp [hcode, endsBlock]
    | none =>
      by_cases hblank : line.all isBlank
      · simp [hcode, hblank, endsBlock]
      · by_cases hindent : line.head?.any isBlank <;> by_cases hecho : isSourceEcho line <;>
          simp [hcode, hblank, hindent, hecho, endsBlock]

/-- The boundaries are the lines that are read as such. -/
theorem boundary_iff (line : Text) : Boundary line ↔ (read line).endsBlock = true := by
  rw [Boundary, read]
  by_cases hmarked : isMarked line
  · by_cases hfound : findMarkers line = []
    · simp [hmarked, hfound, ofBody_true_not_endsBlock]
    · simp [hmarked, hfound, endsBlock]
  · simp [hmarked, body, ofBody_false_endsBlock]

end ListingLine

/-! ## Scanning -/

namespace Scan

/-- The scan of lines with the scan of those that follow, which is not reached if the first one
    stops. -/
def followedBy (s t : Scan) : Scan :=
  match s.stoppedAt with
  | some _ => s
  | none => t.after s.blocks

theorem after_followedBy (earlier : List Block) (s t : Scan) :
    (s.after earlier).followedBy t = (s.followedBy t).after earlier := by
  unfold Scan.followedBy
  cases h : s.stoppedAt with
  | none => simp [after, h]
  | some e => simp [after, h]

/-- What is scanned from a boundary on does not depend on the block that is open. -/
theorem ofLines_of_endsBlock {line : ListingLine} (h : line.endsBlock = true)
    (current : Option Block) (rest : List ListingLine) :
    ofLines current (line :: rest) = (ofLines none (line :: rest)).after current.toList := by
  cases line with
  | markers found => simp [ofLines, after]
  | closing => simp [ofLines, after]
  | _ => simp [ListingLine.endsBlock] at h

/-- Lines may be scanned in two parts, the second of which begins with a boundary. -/
theorem ofLines_append {first : ListingLine} (h : first.endsBlock = true) (current : Option Block)
    (lines rest : List ListingLine) : ofLines current (lines ++ first :: rest) =
      (ofLines current lines).followedBy (ofLines none (first :: rest)) := by
  induction lines generalizing current with
  | nil => exact ofLines_of_endsBlock h current rest
  | cons line lines ih =>
    rw [List.cons_append]
    cases line with
    | markers found => simp only [ofLines, ih, after_followedBy]
    | closing => simp only [ofLines, ih, after_followedBy]
    -- A number that cannot be read stops the scan, and the second part is not reached.
    | directive numeral =>
      cases current with
      | none => simp only [ofLines, ih]
      | some block =>
        simp only [ofLines]
        cases readNumeral numeral with
        | ok line => exact ih _
        | error e => rfl
    | _ => simp only [ofLines, ih]

end Scan

/-! ## Listings -/

/-- Reading a listing goes by its scan. -/
theorem readListing_eq (text : Text) : readListing text =
    match (Scan.ofText text).stoppedAt with
    | some e => .error e
    | none => .ok (sortRecords (Scan.ofText text).records) := rfl

/-- A scan that does not stop and is sorted already is what a listing holds. -/
theorem readListing_of_sorted {text : Text} {records : List Record}
    (hstop : (Scan.ofText text).stoppedAt = none) (hrecords : (Scan.ofText text).records = records)
    (hsorted : Sorted records) : readListing text = .ok records := by
  rw [readListing_eq, hstop, hrecords, sortRecords_of_sorted hsorted]

/-- A scan of two texts is one of the first and one of the second, if no block goes on between
    them. -/
theorem Scan.ofText_append {a b first : Text} {rest : List Text} (ha : a.EndsLine)
    (hb : b.lines = first :: rest) (hfirst : ListingLine.Boundary first) :
    ofText (a ++ b) = (ofText a).followedBy (ofText b) := by
  -- A boundary is not empty, so the second text does not go on with the line break of the first.
  have hhead : b.head? ≠ some '\n' := by
    intro hhead
    obtain ⟨later, rfl⟩ := List.head?_eq_some_iff.1 hhead
    rw [Text.lines_cons_break (by decide) fun h => absurd h (by decide)] at hb
    obtain ⟨rfl, -⟩ := List.cons.inj hb
    exact absurd ((ListingLine.boundary_iff []).1 hfirst) (by decide)
  unfold ofText
  rw [Text.lines_append ha hhead, List.map_append, hb, List.map_cons]
  exact ofLines_append ((ListingLine.boundary_iff first).1 hfirst) none _ _

/-- The records of both scans come one after the other, if the first one does not stop. -/
theorem Scan.records_followedBy {s t : Scan} (h : s.stoppedAt = none) :
    (s.followedBy t).records = s.records ++ t.records := by
  simp [followedBy, h, records, after]

/-- What is read is sorted. -/
theorem sorted_of_readListing {text : Text} {records : List Record}
    (h : readListing text = .ok records) : Sorted records := by
  rw [readListing_eq] at h
  split at h
  · simp at h
  · exact Except.ok.inj h ▸ sorted_sortRecords _

/-- Two scans, one after the other, are read as the sorted records of both. -/
theorem readListing_of_followedBy {a b text : Text}
    (h : Scan.ofText text = (Scan.ofText a).followedBy (Scan.ofText b)) :
    readListing text = (do
      let before ← readListing a
      let after ← readListing b
      return sortRecords (before ++ after)) := by
  rw [readListing_eq, readListing_eq a, readListing_eq b, h]
  cases ha : (Scan.ofText a).stoppedAt with
  | some e => simp [Scan.followedBy, ha, bind, Except.bind]
  | none =>
    have hstopped : ((Scan.ofText a).followedBy (Scan.ofText b)).stoppedAt =
        (Scan.ofText b).stoppedAt := by
      simp [Scan.followedBy, ha, Scan.after]
    rw [hstopped]
    cases hb : (Scan.ofText b).stoppedAt with
    | some e => rfl
    | none => simp [bind, Except.bind, pure, Except.pure, sortRecords_append,
        Scan.records_followedBy ha]

/-- The parts of a listing are read on their own, and what they hold is sorted together. The first
    part that cannot be read is what stops reading. A part without records changes nothing. -/
theorem readListing_append {a b first : Text} {rest : List Text} (ha : a.EndsLine)
    (hb : b.lines = first :: rest) (hfirst : ListingLine.Boundary first) :
    readListing (a ++ b) = (do
      let before ← readListing a
      let after ← readListing b
      return sortRecords (before ++ after)) ∧
    (readListing a = .ok [] → readListing (a ++ b) = readListing b) ∧
    (readListing b = .ok [] → readListing (a ++ b) = readListing a) := by
  have hmain := readListing_of_followedBy (Scan.ofText_append ha hb hfirst)
  -- An empty side adds nothing, and what the other side gives is sorted already.
  refine ⟨hmain, fun hnone => ?_, fun hnone => ?_⟩
  · rw [hmain, hnone]
    cases hread : readListing b with
    | error e => rfl
    | ok records =>
      simp [bind, Except.bind, pure, Except.pure,
        sortRecords_of_sorted (sorted_of_readListing hread)]
  · rw [hmain, hnone]
    cases hread : readListing a with
    | error e => rfl
    | ok records =>
      simp [bind, Except.bind, pure, Except.pure,
        sortRecords_of_sorted (sorted_of_readListing hread)]

/-- Two blocks, the second of which is cut off after its code. -/
theorem readListing_append_two_blocks :
    let a : Text := "****  $140\n****  LINE 2\n140 unknown symbol\n".toList
    let b : Text := "**** $36,8\n**** LINE 1\n36".toList
    a.EndsLine ∧ b.lines = ["**** $36,8".toList, "**** LINE 1".toList, "36".toList] ∧
      ListingLine.Boundary "**** $36,8".toList ∧
      readListing (a ++ b) = (do
        let before ← readListing a
        let after ← readListing b
        return sortRecords (before ++ after)) := by
  intro a b
  have ha : a.EndsLine := by
    intro c hc
    obtain rfl : '\n' = c := by simpa [a] using hc
    rfl
  have hlines : b.lines = ["**** $36,8".toList, "**** LINE 1".toList, "36".toList] := by
    decide +kernel
  have hfirst : ListingLine.Boundary "**** $36,8".toList :=
    (ListingLine.boundary_iff _).2 (by decide +kernel)
  exact ⟨ha, hlines, hfirst, (readListing_append ha hlines hfirst).1⟩

end LiveCheck
