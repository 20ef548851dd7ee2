import LiveCheck.Proofs.Listing.Block
import Mathlib.Data.List.Induction

/-!
# Whose text a call adds

Which codes a text of a call goes to is told by the calls before it: a text that comes with a code
goes to that code, and any other text to the code named last, or to all codes if none was named yet.
So `Block.Call.textFor` says of one call, given those before it, what it adds for a code, and the
texts that a block holds for a code are what its calls add for it, one after the other
(`Block.collected`).

* `Block.current_calls`, `Block.fragments_collected`: what a block holds after any calls, by taking
  one more call at the end;
* `Block.collects`: the texts of each code, and the records that they make.
-/

namespace LiveCheck.Block

/-- The code that a call names. -/
def Call.named? : Call → Option Text
  | .switchCode code _ => some code
  | _ => none

/-- The code that calls name last. -/
def namedLast (cs : List Call) : Option Text := (cs.filterMap Call.named?).getLast?

/-- The text that a call adds for a code, after earlier calls. -/
def Call.textFor (code : Text) (earlier : List Call) : Call → Option Text
  | .setLine _ => none
  | .switchCode named text => if named = code ∧ text ≠ [] then some text else none
  | .addContinuation text =>
    if text ≠ [] ∧ (namedLast earlier = none ∨ namedLast earlier = some code) then some text
    else none

/-- The texts that calls add for a code, in the order of the calls. -/
def collected (code : Text) (cs : List Call) : List Text :=
  cs.zipIdx.filterMap fun (c, i) => c.textFor code (cs.take i)

/-! ## One more call -/

theorem namedLast_concat (cs : List Call) (c : Call) :
    namedLast (cs ++ [c]) = c.named?.or (namedLast cs) := by
  rw [namedLast, List.filterMap_append, List.getLast?_append, namedLast]
  cases c <;> rfl

/-- A call adds its text after those that were collected before. -/
theorem collected_concat (code : Text) (cs : List Call) (c : Call) :
    collected code (cs ++ [c]) = collected code cs ++ (c.textFor code cs).toList := by
  have hbefore : cs.zipIdx.filterMap (fun (d, i) => d.textFor code ((cs ++ [c]).take i)) =
      collected code cs := by
    refine List.filterMap_congr fun (d, i) hd => ?_
    have hi : i < cs.length := by simpa using List.snd_lt_of_mem_zipIdx hd
    dsimp only
    rw [List.take_append_of_le_length (Nat.le_of_lt hi)]
  have hlast : [(c, cs.length)].filterMap (fun (d, i) => d.textFor code ((cs ++ [c]).take i)) =
      (c.textFor code cs).toList := by
    rw [List.filterMap_cons]
    dsimp only
    rw [List.take_left]
    cases c.textFor code cs <;> rfl
  rw [collected, List.zipIdx_append, List.filterMap_append, hbefore, List.zipIdx_singleton,
    Nat.zero_add, hlast]

theorem calls_concat (b : Block) (cs : List Call) (c : Call) :
    b.calls (cs ++ [c]) = (b.calls cs).call c := List.foldl_concat ..

/-- A text that was collected for a code is not empty, and was added by a call. -/
theorem mem_collected {code text : Text} {cs : List Call} (h : text ∈ collected code cs) :
    text ≠ [] ∧ (.switchCode code text ∈ cs ∨ .addContinuation text ∈ cs) := by
  obtain ⟨⟨c, i⟩, hmem, htext⟩ := List.mem_filterMap.1 h
  have hc : c ∈ cs := List.fst_mem_of_mem_zipIdx hmem
  cases c with
  | setLine line => cases htext
  | switchCode named added =>
    obtain ⟨⟨rfl, hne⟩, hadded⟩ := Option.ite_none_right_eq_some.1 htext
    obtain rfl := Option.some.inj hadded
    exact ⟨hne, .inl hc⟩
  | addContinuation added =>
    obtain ⟨⟨hne, -⟩, hadded⟩ := Option.ite_none_right_eq_some.1 htext
    obtain rfl := Option.some.inj hadded
    exact ⟨hne, .inr hc⟩

/-! ## All calls -/

variable {markers : List Marker} {m : Marker}

/-- A block goes on with the code that its calls named last. -/
theorem current_calls (markers : List Marker) (cs : List Call) :
    ((ofMarkers markers).calls cs).current = namedLast cs := by
  induction cs using List.reverseRecOn with
  | nil => rfl
  | append_singleton cs c ih =>
    rw [calls_concat, current_call, namedLast_concat, ih]
    cases c <;> rfl

/-- A call adds a text for the code that was named last. -/
theorem textsFor_namedLast (code : Text) (cs : List Call) (c : Call) :
    textsFor code (namedLast cs) [c] = (c.textFor code cs).toList := by
  cases c with
  | setLine line => rfl
  | switchCode named text =>
    rw [textsFor, textsFor, List.append_nil, Call.textFor]
    split <;> rfl
  | addContinuation text =>
    rw [textsFor, textsFor, List.append_nil, Call.textFor]
    split <;> rfl

/-- A block holds the texts that its calls add for a code. -/
theorem fragments_collected (h : m ∈ markers) (cs : List Call) :
    ((ofMarkers markers).calls cs).fragments.get? m.code = some (collected m.code cs) := by
  induction cs using List.reverseRecOn with
  | nil => exact fragments_ofMarkers h
  | append_singleton cs c ih =>
    rw [calls_concat, fragments_call ih c, current_calls, textsFor_namedLast, collected_concat]

/-- The texts that a scan finds for a code are those of its calls. -/
theorem textsFor_eq_collected (code : Text) (cs : List Call) :
    textsFor code none cs = collected code cs := by
  -- A block that announces just this code holds the one and the other.
  have hmem : (⟨code, 0⟩ : Marker) ∈ [(⟨code, 0⟩ : Marker)] := List.mem_singleton_self _
  exact Option.some.inj
    ((fragments_calls (fragments_ofMarkers hmem) cs).symm.trans (fragments_collected hmem cs))

/-- A block without a line has no records. -/
theorem records_of_none {cs : List Call} (h : lineGiven cs = none) :
    ((ofMarkers markers).calls cs).records =
      .error (.withoutLine (markers.map (·.code))) := by
  have hline : ((ofMarkers markers).calls cs).line = none := by
    rw [line_calls, h]
    rfl
  rw [records, hline, codes, markers_calls]
  rfl

/-- A block with a line in front of the first one has no records. -/
theorem records_of_lt {cs : List Call} {line : Int} (h : lineGiven cs = some line)
    (hline : line < 1) : ((ofMarkers markers).calls cs).records =
      .error (.belowFirstLine (markers.map (·.code)) line) := by
  have hgiven : ((ofMarkers markers).calls cs).line = some line := by
    rw [line_calls, h]
    rfl
  rw [records, hgiven, codes, markers_calls]
  exact if_pos hline

end LiveCheck.Block
