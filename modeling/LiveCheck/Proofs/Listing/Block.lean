import LiveCheck.Listing.Basic
import LiveCheck.Proofs.Table

/-!
# What a block collects

The lines of an open block call for three things to be done to it (`Block.Call`): giving it a line
number, naming a code, and adding text. The texts that a block holds for one of its codes after such
calls (`Block.textsFor`) can be told from the calls alone (`Block.fragments_calls`), and so can its
records (`Block.records_calls`).

Scanning lines with which a block goes on is to make their calls (`Scan.ofLines_goesOn`).
-/

namespace LiveCheck

namespace Block

/-- What is done to an open block. -/
inductive Call
  /-- Gives the block a line number. -/
  | setLine (line : Int)
  /-- Names a code, with a text. -/
  | switchCode (code text : Text)
  /-- Adds a text. -/
  | addContinuation (text : Text)
  deriving DecidableEq, Repr

/-- The block after a call. -/
def call (b : Block) : Call → Block
  | .setLine line => b.setLine line
  | .switchCode code text => b.switchCode code text
  | .addContinuation text => b.addContinuation text

/-- The block after calls. -/
def calls (b : Block) (cs : List Call) : Block := cs.foldl call b

/-- The line number that calls give, if they give one. -/
def lineGiven : List Call → Option Int
  | [] => none
  | .setLine line :: _ => some line
  | _ :: rest => lineGiven rest

/-- The texts that calls add for a code, if `current` is the code named before them. -/
def textsFor (code : Text) (current : Option Text) : List Call → List Text
  | [] => []
  | .setLine _ :: rest => textsFor code current rest
  | .switchCode named text :: rest =>
    (if named = code ∧ text ≠ [] then [text] else []) ++ textsFor code (some named) rest
  | .addContinuation text :: rest =>
    (if text ≠ [] ∧ (current = none ∨ current = some code) then [text] else []) ++
      textsFor code current rest

/-- The texts for a code are among those of the calls, and none of them is empty. -/
theorem mem_of_mem_textsFor {code text : Text} {current : Option Text} {cs : List Call}
    (h : text ∈ textsFor code current cs) :
    text ≠ [] ∧ ((∃ named, .switchCode named text ∈ cs) ∨ .addContinuation text ∈ cs) := by
  induction cs generalizing current with
  | nil => exact absurd h List.not_mem_nil
  | cons c cs ih =>
    -- What comes of the calls after the first one.
    have hlater : ∀ {current}, text ∈ textsFor code current cs →
        text ≠ [] ∧
          ((∃ named, .switchCode named text ∈ c :: cs) ∨ .addContinuation text ∈ c :: cs) :=
      fun h => (ih h).imp_right (Or.imp (fun ⟨named, hmem⟩ => ⟨named, List.mem_cons_of_mem _ hmem⟩)
        (List.mem_cons_of_mem _))
    cases c with
    | setLine line => exact hlater h
    | switchCode named added =>
      rcases List.mem_append.1 h with h | h
      · split at h
        · obtain rfl := List.mem_singleton.1 h
          exact ⟨(‹_ ∧ _› : _ ∧ _).2, .inl ⟨named, List.mem_cons_self⟩⟩
        · exact absurd h List.not_mem_nil
      · exact hlater h
    | addContinuation added =>
      rcases List.mem_append.1 h with h | h
      · split at h
        · obtain rfl := List.mem_singleton.1 h
          exact ⟨(‹_ ∧ _› : _ ∧ _).1, .inr List.mem_cons_self⟩
        · exact absurd h List.not_mem_nil
      · exact hlater h

/-! ## One call -/

@[simp] theorem markers_call (b : Block) (c : Call) : (b.call c).markers = b.markers := by
  cases c with
  | setLine line => rfl
  | switchCode code text => rfl
  | addContinuation text =>
    simp only [call, addContinuation]
    split
    · rfl
    split <;> rfl

/-- The line that is given first stays. -/
theorem line_call (b : Block) (c : Call) : (b.call c).line = (b.line <|> lineGiven [c]) := by
  cases c with
  | setLine line => rfl
  | switchCode code text => simp [call, switchCode, lineGiven]
  | addContinuation text =>
    simp only [call, addContinuation, lineGiven]
    split
    · simp
    split <;> simp

/-- The code named last after a call. -/
theorem current_call (b : Block) (c : Call) : (b.call c).current =
    match c with
    | .switchCode code _ => some code
    | _ => b.current := by
  cases c with
  | setLine line => rfl
  | switchCode code text => rfl
  | addContinuation text =>
    simp only [call, addContinuation]
    split
    · rfl
    split
    · rfl
    · rfl

/-- The texts for a code of the block after a call. -/
theorem fragments_call {b : Block} {code : Text} {texts : List Text}
    (h : b.fragments.get? code = some texts) (c : Call) :
    (b.call c).fragments.get? code = some (texts ++ textsFor code b.current [c]) := by
  cases c with
  | setLine line => simp [call, setLine, h, textsFor]
  | switchCode named text =>
    simp only [call, switchCode, textsFor, List.append_nil]
    -- An empty text is not noted down.
    by_cases htext : text = []
    · simp [htext, h]
    · have : text.isEmpty = false := by simpa using htext
      rw [this, if_neg (by simp), Table.get?_modify]
      by_cases hcode : code = named
      · subst hcode
        simp [h, htext]
      · simp [h, hcode, Ne.symm hcode]
  | addContinuation text =>
    simp only [call, addContinuation, textsFor, List.append_nil]
    by_cases htext : text = []
    · simp [htext, h]
    · have : text.isEmpty = false := by simpa using htext
      rw [this, if_neg (by simp)]
      cases hcurrent : b.current with
      | none =>
        rw [Table.get?_mapValues b.fragments (· ++ [text]), h]
        simp [htext]
      | some named =>
        simp only [Table.get?_modify]
        by_cases hcode : code = named
        · subst hcode
          simp [h, htext]
        · simp [h, hcode, Ne.symm hcode]

/-! ## All calls -/

@[simp] theorem markers_calls (b : Block) (cs : List Call) : (b.calls cs).markers = b.markers := by
  induction cs generalizing b with
  | nil => rfl
  | cons c cs ih => exact (ih (b.call c)).trans (b.markers_call c)

/-- The first line number counts. -/
theorem line_calls (b : Block) (cs : List Call) :
    (b.calls cs).line = (b.line <|> lineGiven cs) := by
  induction cs generalizing b with
  | nil => simp [calls, lineGiven]
  | cons c cs ih =>
    refine (ih (b.call c)).trans ?_
    rw [line_call]
    cases c <;> cases b.line <;> simp [lineGiven]

/-- The texts for a code of the block are those that the calls add. -/
theorem fragments_calls {b : Block} {code : Text} {texts : List Text}
    (h : b.fragments.get? code = some texts) (cs : List Call) :
    (b.calls cs).fragments.get? code = some (texts ++ textsFor code b.current cs) := by
  induction cs generalizing b texts with
  | nil => simpa [calls, textsFor] using h
  | cons c cs ih =>
    have hstep := ih (fragments_call h c)
    rw [current_call] at hstep
    refine hstep.trans ?_
    cases c <;> simp [textsFor]

/-- A new block has no text for its codes. -/
theorem fragments_ofMarkers {markers : List Marker} {m : Marker} (h : m ∈ markers) :
    (ofMarkers markers).fragments.get? m.code = some [] := by
  -- A code that comes again empties its own entry only, which was empty.
  have hfold : ∀ (markers : List Marker) (t : Table Text (List Text)),
      (t.get? m.code = some [] ∨ m ∈ markers) →
      (markers.foldl (fun t m => t.put m.code []) t).get? m.code = some [] := by
    intro markers
    induction markers with
    | nil => exact fun t h => h.resolve_right List.not_mem_nil
    | cons n rest ih =>
      intro t h
      refine ih _ ?_
      rw [Table.get?_put]
      by_cases hcode : m.code = n.code
      · exact .inl (if_pos hcode)
      · rw [if_neg hcode]
        refine h.imp_right fun h => (List.mem_cons.1 h).resolve_left ?_
        rintro rfl
        exact hcode rfl
  exact hfold markers ∅ (.inr h)

/-- The records of a block after calls that give it a line number. -/
theorem records_calls {markers : List Marker} {cs : List Call} {line : Int}
    (h : lineGiven cs = some line) (hline : 1 ≤ line) :
    ((ofMarkers markers).calls cs).records = .ok (markers.map fun m =>
      { code := m.code, column := m.column, line
        message := joinMessage (textsFor m.code none cs) }) := by
  have hgiven : ((ofMarkers markers).calls cs).line = some line := by
    rw [line_calls, h]
    rfl
  rw [records, hgiven]
  simp only [if_neg (show ¬line < 1 by omega), markers_calls]
  refine congrArg _ (List.map_congr_left fun m hm => ?_)
  have hm : m ∈ markers := hm
  rw [recordOf, fragments_calls (fragments_ofMarkers hm)]
  rfl

end Block

/-! ## Scanning -/

/-- What a line calls for while a block is open. -/
def ListingLine.call? : ListingLine → Option Block.Call
  | directive numeral => (readNumeral numeral).toOption.map fun n => .setLine n
  | codeMessage code text => some (.switchCode code text)
  | continuation text => some (.addContinuation text)
  | _ => none

/-- A line with which an open block goes on. -/
def ListingLine.GoesOn (line : ListingLine) : Prop := line = .blank ∨ line.call?.isSome

/-- Scanning the lines of an open block makes their calls. -/
theorem Scan.ofLines_goesOn {lines : List ListingLine} (h : ∀ line ∈ lines, line.GoesOn) (b : Block)
    (rest : List ListingLine) :
    ofLines (some b) (lines ++ rest) =
      ofLines (some (b.calls (lines.filterMap ListingLine.call?))) rest := by
  induction lines generalizing b with
  | nil => rfl
  | cons line lines ih =>
    have ih := ih fun l hl => h l (List.mem_cons_of_mem _ hl)
    have hline := h line List.mem_cons_self
    rw [List.cons_append]
    cases line with
    | blank => exact ih b
    | directive numeral =>
      cases hread : readNumeral numeral with
      -- A line whose number cannot be read calls for nothing.
      | error e => simp [ListingLine.GoesOn, ListingLine.call?, hread, Except.toOption] at hline
      | ok n =>
        simp only [ofLines, hread, List.filterMap_cons, ListingLine.call?, Except.toOption]
        exact ih _
    | codeMessage code text => exact ih (b.switchCode code text)
    | continuation text => exact ih (b.addContinuation text)
    | markers found => simp [ListingLine.GoesOn, ListingLine.call?] at hline
    | closing => simp [ListingLine.GoesOn, ListingLine.call?] at hline

/-- Lines that a block goes on with are made of calls. -/
theorem Scan.ofLines_calls {lines : List ListingLine} {cs : List Block.Call}
    (h : lines.map ListingLine.call? = cs.map some) (b : Block) (rest : List ListingLine) :
    ofLines (some b) (lines ++ rest) = ofLines (some (b.calls cs)) rest := by
  have hcalls : lines.filterMap ListingLine.call? = cs := by
    calc lines.filterMap ListingLine.call?
        = (lines.map ListingLine.call?).filterMap id := by rw [List.filterMap_map, Function.id_comp]
      _ = (cs.map some).filterMap id := by rw [h]
      _ = cs := by rw [List.filterMap_map, Function.id_comp, List.filterMap_some]
  have hgoes : ∀ line ∈ lines, line.GoesOn := by
    intro line hline
    have hmem : line.call? ∈ cs.map some := h ▸ List.mem_map_of_mem hline
    obtain ⟨c, -, hc⟩ := List.mem_map.1 hmem
    exact .inr (by rw [← hc]; rfl)
  rw [ofLines_goesOn hgoes, hcalls]

end LiveCheck
