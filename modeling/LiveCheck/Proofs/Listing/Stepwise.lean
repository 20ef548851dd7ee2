import LiveCheck.Proofs.Listing.Passage
import LiveCheck.Proofs.Text.Visible

/-!
# Listings read line by line

A listing may also be read line by line, with the records so far and the open block as the state
(`Reading`). Here every look-up is one that can fail: a block may have no records, it may not know a
code, and an empty line has no first character.

None of these look-ups ever fails, or its failure goes no further than the block. A block knows the
codes of its markers from the beginning (`Block.Knows`), and only lines with some text in them are
asked for their first character. Reading line by line therefore comes to the same as `readListing`,
which makes no such look-up (`Reading.ofText_eq`).
-/

namespace LiveCheck

/-! ## Look-ups -/

/-- What has been read of a listing. -/
structure Reading where
  /-- The records of the blocks that were closed. -/
  records : List Record := []
  /-- The block that is open. -/
  current : Option Block := none

/-- What can go wrong while a listing is read. -/
inductive Reading.Fault
  /-- The numeral of a line directive is too long. -/
  | overlong (e : OverlongNumeral)
  /-- A block has no records. -/
  | malformed (fault : BlockFault)
  /-- A block does not know the code. -/
  | unknownCode (code : Text)
  /-- An empty line was asked for its first character. -/
  | emptyLine
  deriving DecidableEq

namespace Block

/-- The texts that a block has for a code. -/
def lookUp (b : Block) (code : Text) : Except Reading.Fault (List Text) :=
  match b.fragments.get? code with
  | some texts => .ok texts
  | none => .error (.unknownCode code)

/-- Adds a text for a code to those that were looked up. Only codes of the block have texts. -/
def addFor (b : Block) (code text : Text) : Except Reading.Fault Block :=
  if text ≠ [] ∧ b.fragments.contains code then
    (b.lookUp code).map fun texts => { b with fragments := b.fragments.put code (texts ++ [text]) }
  else .ok b

/-- Adds a text for the code named last, or for every code if none was named yet. -/
def addOn (b : Block) (text : Text) : Except Reading.Fault Block :=
  match b.current with
  | none => .ok (b.addContinuation text)
  | some code => b.addFor code text

/-- The records of a block, with the texts of each code looked up. -/
def lookUpRecords (b : Block) : Except Reading.Fault (List Record) :=
  match b.line with
  | none => .error (.malformed (.withoutLine b.codes))
  | some line =>
    if line < 1 then .error (.malformed (.belowFirstLine b.codes line))
    else b.markers.mapM fun m => (b.lookUp m.code).map fun texts =>
      { code := m.code, column := m.column, line, message := joinMessage texts }

end Block

namespace Reading

open ListingLine

/-- Closes the open block. A block without records is passed over. -/
def close (s : Reading) : Except Fault Reading :=
  match s.current with
  | none => .ok s
  | some b =>
    match b.lookUpRecords with
    | .ok records => .ok { records := s.records ++ records }
    | .error (.malformed _) => .ok { records := s.records }
    | .error fault => .error fault

/-- Reads a line that opens no block while a block is open. -/
def stepIn (s : Reading) (b : Block) (line : Text) : Except Fault Reading :=
  match directive? (body line) with
  | some numeral =>
    match readNumeral numeral with
    | .ok n => .ok { s with current := some (b.setLine n) }
    | .error e => .error (.overlong e)
  | none =>
    match codeMessage? (if isMarked line then (body line).stripLeft else body line) with
    | some (code, text) => do
      let b ← Block.addFor { b with current := some code } code text
      return { s with current := some b }
    | none =>
      if (body line).strip = [] then .ok s
      else if !isMarked line && isSourceEcho (body line) then s.close
      else if isMarked line then do
        let b ← b.addOn (body line).strip
        return { s with current := some b }
      else
        match (body line).head? with
        | none => .error .emptyLine
        | some c =>
          if isBlank c then do
            let b ← b.addOn (body line).strip
            return { s with current := some b }
          else s.close

/-- Reads a line. -/
def step (s : Reading) (line : Text) : Except Fault Reading :=
  if Opens line then
    s.close.map fun s => { s with current := some (.ofMarkers (findMarkers line)) }
  else
    match s.current with
    | none => .ok s
    | some b => s.stepIn b line

/-- Reads lines one after the other. -/
def steps (s : Reading) (lines : List Text) : Except Fault Reading := lines.foldlM step s

/-- Reads the text of a listing, and closes the last block. -/
def ofText (text : Text) : Except Fault (List Record) :=
  (steps {} text.lines >>= close).map fun s => sortRecords s.records

end Reading

/-! ## Blocks know their codes -/

/-- A block has texts, if only none at all, for every code of its markers, and no code twice. -/
structure Block.Knows (b : Block) : Prop where
  texts : ∀ m ∈ b.markers, ∃ texts, b.fragments.get? m.code = some texts
  nodup : b.fragments.keys.Nodup

namespace Block

/-- A new block has texts for each of its codes. -/
theorem knows_ofMarkers (markers : List Marker) : (ofMarkers markers).Knows where
  texts m hm := ⟨[], fragments_ofMarkers hm⟩
  nodup := by
    have hfold : ∀ (markers : List Marker) (t : Table Text (List Text)), t.keys.Nodup →
        (markers.foldl (fun t m => t.put m.code []) t).keys.Nodup := by
      intro markers
      induction markers with
      | nil => exact fun t ht => ht
      | cons m rest ih => exact fun t ht => ih _ (Table.nodup_put ht m.code [])
    exact hfold markers ∅ List.nodup_nil

theorem keys_call (b : Block) (c : Call) : (b.call c).fragments.keys = b.fragments.keys := by
  cases c with
  | setLine line => rfl
  | switchCode code text =>
    simp only [call, switchCode]
    split
    · rfl
    · exact Table.keys_modify _ _ _
  | addContinuation text =>
    simp only [call, addContinuation]
    split
    · rfl
    split
    · simp [Table.keys]
    · exact Table.keys_modify _ _ _

namespace Knows

variable {b : Block}

/-- No call takes a code away from a block. -/
theorem call (h : b.Knows) (c : Call) : (b.call c).Knows where
  texts m hm := by
    rw [markers_call] at hm
    obtain ⟨texts, htexts⟩ := h.texts m hm
    exact ⟨_, fragments_call htexts c⟩
  nodup := by
    rw [keys_call]
    exact h.nodup

/-- No look-up fails where a text is added for a code, even for one that the block does not know. -/
theorem addFor (h : b.Knows) (code text : Text) : b.addFor code text = .ok { b with
    fragments := if text.isEmpty then b.fragments else b.fragments.modify code (· ++ [text]) } := by
  rw [Block.addFor]
  by_cases htext : text = []
  · simp [htext]
  · have hempty : text.isEmpty = false := by simpa using htext
    rw [hempty]
    cases hget : b.fragments.get? code with
    | some texts =>
      have hput := Table.put_eq_modify h.nodup hget (· ++ [text])
      simp [htext, Table.contains, hget, Block.lookUp, Except.map, hput]
    | none =>
      have hnot : code ∉ b.fragments.keys := fun hmem => by
        obtain ⟨texts, htexts⟩ := (Table.mem_keys_iff _ _).1 hmem
        simp [hget] at htexts
      simp [Table.contains, hget, Table.modify_of_not_mem hnot]

/-- In a block that knows its codes no look-up fails, and a text goes on as in the plain scan. -/
theorem addOn (h : b.Knows) (text : Text) : b.addOn text = .ok (b.addContinuation text) := by
  rw [Block.addOn]
  cases hcurrent : b.current with
  | none => rfl
  | some code =>
    obtain ⟨markers, line, fragments, current⟩ := b
    obtain rfl : current = some code := hcurrent
    refine (h.addFor code text).trans (congrArg Except.ok ?_)
    rw [addContinuation]
    split <;> rfl

/-- In a block that knows its codes, a text of a code that a line names is added as in the plain
    scan. -/
theorem nameCode (h : b.Knows) (code text : Text) :
    Block.addFor { b with current := some code } code text = .ok (b.switchCode code text) :=
  addFor (b := { b with current := some code }) ⟨h.texts, h.nodup⟩ code text

/-- The records of a block that knows its codes are found by looking them up. -/
theorem lookUpRecords (h : b.Knows) : b.lookUpRecords = b.records.mapError .malformed := by
  rw [Block.lookUpRecords, records]
  cases b.line with
  | none => rfl
  | some line =>
    dsimp only
    split
    · rfl
    · have hfound : ∀ markers ⊆ b.markers, (markers.mapM fun m => (b.lookUp m.code).map fun texts =>
          ({ code := m.code, column := m.column, line, message := joinMessage texts } : Record)) =
          .ok (markers.map (b.recordOf line)) := by
        intro markers hsub
        induction markers with
        | nil => rfl
        | cons m rest ih =>
          obtain ⟨hm, hrest⟩ := List.cons_subset.1 hsub
          obtain ⟨texts, htexts⟩ := h.texts m hm
          rw [List.mapM_cons, ih hrest, lookUp, htexts, List.map_cons, recordOf, htexts]
          rfl
      exact hfound b.markers (List.Subset.refl _)

end Knows

end Block

namespace Reading

open ListingLine

variable {s : Reading}

/-- The open block knows its codes. -/
def Knowing (s : Reading) : Prop := ∀ b ∈ s.current, b.Knows

/-- Closing the block adds its records. -/
theorem Knowing.close (h : s.Knowing) :
    s.close = .ok { records := s.records ++ (Scan.mk s.current.toList none).records } := by
  obtain ⟨records, current⟩ := s
  cases current with
  | none => simp [Reading.close, Scan.records]
  | some b =>
    have hrecords := (h b rfl).lookUpRecords
    cases hb : b.records with
    | ok found => simp [Reading.close, Scan.records, hrecords, hb, Except.mapError, Except.toOption]
    | error fault =>
      simp [Reading.close, Scan.records, hrecords, hb, Except.mapError, Except.toOption]

theorem Knowing.call (h : s.Knowing) (c : Block.Call) :
    Knowing { s with current := s.current.map (·.call c) } := by
  intro b hb
  obtain ⟨earlier, hearlier, rfl⟩ := Option.map_eq_some_iff.1 hb
  exact (h earlier hearlier).call c

/-! ## One line -/

/-- What a line of a kind does. -/
def follow (s : Reading) : ListingLine → Except Fault Reading
  | .markers found => s.close.map fun s => { s with current := some (.ofMarkers found) }
  | .closing => s.close
  | .blank => .ok s
  | .directive numeral =>
    match s.current with
    | none => .ok s
    | some b =>
      match readNumeral numeral with
      | .ok n => .ok { s with current := some (b.setLine n) }
      | .error e => .error (.overlong e)
  | .codeMessage code text => .ok { s with current := s.current.map (·.switchCode code text) }
  | .continuation text => .ok { s with current := s.current.map (·.addContinuation text) }

/-- In an open block, the kind of a line is found without asking for a character that it does not
    have. -/
theorem stepIn_eq (h : s.Knowing) {b : Block} (hcurrent : s.current = some b) (line : Text) :
    s.stepIn b line = s.follow (ofBody (isMarked line) (body line)) := by
  have hknows : b.Knows := h b hcurrent
  rw [stepIn, ofBody]
  cases directive? (body line) with
  | some numeral => simp only [follow, hcurrent]
  | none =>
    cases codeMessage? (if isMarked line then (body line).stripLeft else body line) with
    | some message =>
      obtain ⟨code, text⟩ := message
      simp only [follow, hcurrent, Option.map_some, hknows.nameCode]
      rfl
    | none =>
      dsimp only
      by_cases hblank : (body line).all isBlank
      · rw [if_pos (Text.strip_eq_nil.2 (by simpa using hblank)), if_pos hblank, follow]
      · rw [if_neg (by simpa [Text.strip_eq_nil] using hblank), if_neg hblank]
        cases hmarked : isMarked line with
        | true => simp [follow, hcurrent, hknows.addOn]
        | false =>
          cases hbody : body line with
          | nil => simp [hbody] at hblank
          | cons c rest =>
            by_cases hecho : isSourceEcho (c :: rest)
            · simp [follow, hecho]
            · by_cases hc : isBlank c <;> simp [follow, hecho, hc, hcurrent, hknows.addOn]

/-- A line is read by its kind. -/
theorem step_eq (h : s.Knowing) (line : Text) : s.step line = s.follow (read line) := by
  rw [step]
  by_cases hopens : Opens line
  · rw [if_pos hopens, read_of_markers hopens.1 hopens.2, follow]
  · rw [if_neg hopens, read_of_not_opens hopens]
    cases hcurrent : s.current with
    | some b => exact stepIn_eq h hcurrent line
    | none =>
      -- Without an open block, no line that opens none does anything.
      obtain ⟨records, current⟩ := s
      obtain rfl : current = none := hcurrent
      cases hread : ofBody (isMarked line) (body line) with
      | markers found => exact absurd hread (ofBody_ne_markers _ _ _)
      | _ => rfl

/-! ## All lines -/

/-- What a scan comes to behind the records of earlier blocks. -/
def finish (records : List Record) (scan : Scan) : Except Fault Reading :=
  match scan.stoppedAt with
  | some e => .error (.overlong e)
  | none => .ok { records := records ++ scan.records }

theorem finish_after (records : List Record) (scan : Scan) (blocks : List Block) :
    finish records (scan.after blocks) =
      finish (records ++ (Scan.mk blocks none).records) scan := by
  simp only [finish, Scan.after, Scan.records, List.flatMap_append, List.append_assoc]

/-- Reading lines one after the other and closing the last block comes to the same as scanning the
    kinds of the lines. -/
theorem close_steps (h : s.Knowing) (lines : List Text) :
    (s.steps lines >>= close) = finish s.records (Scan.ofLines s.current (lines.map read)) := by
  induction lines generalizing s with
  | nil => exact h.close
  | cons line rest ih =>
    have hstep : (s.steps (line :: rest) >>= close) =
        s.follow (read line) >>= fun s => s.steps rest >>= close := by
      rw [steps, List.foldlM_cons, bind_assoc, step_eq h]
      rfl
    rw [hstep, List.map_cons]
    cases read line with
    | markers found =>
      rw [follow, h.close, Scan.ofLines, finish_after]
      refine ih ?_
      rintro b ⟨⟩
      exact Block.knows_ofMarkers found
    | closing =>
      rw [follow, h.close, Scan.ofLines, finish_after]
      refine ih ?_
      rintro b ⟨⟩
    | blank => exact ih h
    | directive numeral =>
      obtain ⟨records, current⟩ := s
      cases current with
      | none => exact ih h
      | some b =>
        cases hread : readNumeral numeral with
        | error e =>
          simp only [follow, hread, Scan.ofLines]
          rfl
        | ok n =>
          simp only [follow, hread, Scan.ofLines]
          exact ih (h.call (.setLine n))
    | codeMessage code text => exact ih (h.call (.switchCode code text))
    | continuation text => exact ih (h.call (.addContinuation text))

/-- Reading a listing line by line fails for nothing but a numeral that is too long. -/
theorem ofText_eq (text : Text) : ofText text = (readListing text).mapError .overlong := by
  have hknows : Knowing {} := by rintro b ⟨⟩
  have hsteps : (steps {} text.lines >>= close) = finish [] (Scan.ofText text) :=
    close_steps hknows text.lines
  rw [ofText, hsteps, readListing_eq, finish]
  cases (Scan.ofText text).stoppedAt with
  | some e => rfl
  | none => rfl

end Reading

end LiveCheck
