import LiveCheck.Proofs.Disk.Directory
import LiveCheck.Proofs.Text.Join
import Mathlib.Logic.Function.Iterate

/-!
# How directories are made

Making a directory with those above it is a chain of attempts to make one: those above it come first
where one of them is missing, and the directory itself comes last (`Disk.Making`). So for every
outcome, all that is done is to put directories at places where there was nothing (`Making.grows`),
and the path leads to a directory if the attempt succeeds (`Making.hasDirectory`).

The faults that do not come from the system are told by the path and the disk alone: a null
character in the path (`Making.nullCharacter_iff`), and more missing directories than there are
levels (`makeDirectories_eq_tooDeep_iff`).
-/

namespace LiveCheck

namespace Disk

variable {d d' d'' : Disk} {p : Path} {place : Place} {fault : DiskFault}
  {result : Except DiskFault Unit} {name : Text} {levels : Nat} {error : SystemError}

/-! ## What is missing above a path -/

theorem acceptable_of_child (h : Acceptable (p.child name)) : Acceptable p := by
  rcases p.text_prefix_child name with hdot | ⟨more, hmore⟩
  · rw [Acceptable, hdot]
    decide
  · rw [Acceptable, ← hmore, List.mem_append, not_or, Utf8.encode, List.flatMap_append,
      List.length_append] at h
    exact ⟨h.1.1, Nat.le_trans (Nat.le_add_right _ _) h.2⟩

/-- The system looks at the path above one that it looks at. -/
theorem acceptable_parent (h : Acceptable p) (hnames : p.names ≠ []) : Acceptable p.parent := by
  obtain ⟨name, hchild⟩ := Path.exists_child hnames
  exact acceptable_of_child (hchild ▸ h)

/-- A walk that stops goes no further for more names. -/
theorem walkFrom_append_error {start : Place} {names more : List Text}
    (h : d.walkFrom start names = .error error) :
    d.walkFrom start (names ++ more) = .error error := by
  induction names generalizing start with
  | nil => simp [walkFrom] at h
  | cons name rest ih =>
    rw [List.cons_append, walkFrom]
    rcases walkFrom_cons_eq_error h with ⟨hnode, rfl⟩ | ⟨⟨bytes, executable, hnode⟩, rfl⟩ |
      ⟨hnode, ⟨denial, hdenial, rfl⟩ | hrest⟩
    · rw [hnode]
    · rw [hnode]
    · rw [hnode]
      simp [grant_eq_error.2 ⟨denial, hdenial, rfl⟩, bind, Except.bind]
    · cases hgrant : d.grant .pass start with
      | error refusal =>
        rw [walkFrom, hnode] at h
        rw [hnode]
        simpa [hgrant, bind, Except.bind] using h
      | ok granted =>
        -- The walk goes on as before, up or down, to where it fails.
        rcases hrest with ⟨hdown, hlong, rfl⟩ | ⟨hup, hrest⟩ | ⟨hdown, hshort, hrest⟩
        · simp [hnode, bind, Except.bind, hdown, hlong]
        · simpa [hnode, hgrant, bind, Except.bind, hup] using ih hrest
        · simpa [hnode, hgrant, bind, Except.bind, hdown, Nat.not_lt_of_le hshort] using ih hrest

/-- Where the path above leads nowhere, so does the path. -/
theorem walk_of_parent (hnames : p.names ≠ []) (h : d.walk p.parent = .error error) :
    d.walk p = .error error := by
  obtain ⟨name, hchild⟩ := Path.exists_child hnames
  rw [hchild, walk, fullNames_child]
  exact walkFrom_append_error h

theorem length_parent (p : Path) : p.parent.names.length = p.names.length - 1 :=
  List.length_dropLast

/-- Where a path some levels above leads nowhere, so does the path. -/
theorem walk_of_iterate_parent (hlevels : levels < p.names.length)
    (h : d.walk (Path.parent^[levels] p) = .error error) : d.walk p = .error error := by
  induction levels generalizing p with
  | zero => exact h
  | succ levels ih =>
    have hparent := length_parent p
    exact walk_of_parent (List.length_pos_iff.1 (Nat.zero_lt_of_lt hlevels)) (ih (by omega) h)

/-- The path leads through a directory that is missing. -/
def Astray (d : Disk) (p : Path) : Prop := Acceptable p ∧ d.walk p = .error .notFound

/-- A directory whose making fails for one that is missing is astray. -/
theorem makeDirectory_eq_notFound {path : Text}
    (h : d.makeDirectory p = .error (.system .notFound path)) : d.Astray p := by
  obtain ⟨-, ⟨hlong, -⟩ | ⟨hacceptable, hwalk | ⟨place, -, hend⟩⟩⟩ := atPath_eq_system h
  · cases hlong
  · exact ⟨hacceptable, hwalk⟩
  · split at hend
    · cases hend
    · cases hgrant : d.grant .make place with
      | error refusal =>
        obtain ⟨denial, -, rfl⟩ := grant_eq_error.1 hgrant
        rw [hgrant] at hend
        cases hend
      | ok granted =>
        rw [hgrant] at hend
        cases hend

/-- A directory is missing above a path if the path has a name and is astray. -/
theorem lacksAbove_iff : d.lacksAbove p = true ↔ p.names ≠ [] ∧ d.Astray p := by
  unfold lacksAbove
  constructor
  · intro h
    split at h
    · exact ⟨by simpa using h, makeDirectory_eq_notFound ‹_›⟩
    · simp at h
  · rintro ⟨hnames, hacceptable, hwalk⟩
    have hmake : d.makeDirectory p = .error (.system .notFound p.text) := by
      rw [makeDirectory, atPath, if_neg (by simpa using hacceptable.1),
        if_neg (Nat.not_lt_of_le hacceptable.2), hwalk]
      rfl
    rw [hmake]
    simpa using hnames

/-! ## The chain of attempts -/

/-- The attempt to make one directory, which may be there already. -/
inductive Settling (d : Disk) (p : Path) : Disk → Except DiskFault Unit → Prop
  /-- The directory was made. -/
  | made {d' : Disk} (h : d.makeDirectory p = .ok d') : Settling d p d' (.ok ())
  /-- The directory is there. -/
  | there (h : d.isDirectory p) : Settling d p d (.ok ())
  /-- The directory is not there and cannot be made. -/
  | refused {fault : DiskFault} (h : d.makeDirectory p = .error fault) :
    Settling d p d (.error fault)
  /-- The directory cannot be made, and whether it is there cannot be told. -/
  | unseen {fault : DiskFault} (h : d.lookup p = .error fault)
      (hfault : fault.meansAbsent = false) : Settling d p d (.error fault)

/-- How a directory is made with those above it: what becomes of the disk, and what the outcome
    is. -/
inductive Making (d : Disk) : Path → Disk → Except DiskFault Unit → Prop
  /-- Nothing is missing above the directory. -/
  | last {p : Path} {d' : Disk} {result : Except DiskFault Unit} (h : Settling d p d' result) :
    Making d p d' result
  /-- The directories above come first. -/
  | above {p : Path} {d' d'' : Disk} {result : Except DiskFault Unit} (hnames : p.names ≠ [])
    (hastray : d.Astray p) (habove : Making d p.parent d' (.ok ())) (h : Settling d' p d'' result) :
    Making d p d'' result
  /-- The directories above cannot be made. -/
  | stuck {p : Path} {d' : Disk} {fault : DiskFault} (hnames : p.names ≠ []) (hastray : d.Astray p)
    (habove : Making d p.parent d' (.error fault)) : Making d p d' (.error fault)
  /-- There are no more levels. -/
  | exhausted {p : Path} (hastray : d.Astray p) : Making d p d (.error .tooDeep)

/-- Making a directory that may be there already is one attempt. -/
theorem settling_of_makeIfMissing (h : d.makeIfMissing p = (d', result)) :
    Settling d p d' result := by
  rw [makeIfMissing] at h
  split at h
  · cases h
    exact .made ‹_›
  · split at h
    · cases h
      rcases asks_eq_ok.1 ‹d.asks p _ = .ok true› with ⟨node, hnode, htrue⟩ | ⟨_, _, _, hfalse⟩
      · obtain rfl := of_decide_eq_true htrue.symm
        exact .there (isDirectory_iff.2 hnode)
      · cases hfalse
    · cases h
      exact .refused ‹_›
    · cases h
      obtain ⟨hlookup, hfault⟩ := asks_eq_error.1 ‹_›
      exact .unseen hlookup hfault

/-- Making a directory with those above it is a chain of attempts. -/
theorem making_of_makeDirectories (h : d.makeDirectories levels p = (d', result)) :
    Making d p d' result := by
  induction levels generalizing p d' result with
  | zero =>
    rw [makeDirectories] at h
    split at h
    · cases h
      exact .exhausted (lacksAbove_iff.1 ‹_›).2
    · exact .last (settling_of_makeIfMissing h)
  | succ levels ih =>
    rw [makeDirectories] at h
    split at h
    · obtain ⟨hnames, hastray⟩ := lacksAbove_iff.1 ‹_›
      split at h
      · cases h
        exact .stuck hnames hastray (ih ‹_›)
      · exact .above hnames hastray (ih ‹_›) (settling_of_makeIfMissing h)
    · exact .last (settling_of_makeIfMissing h)

/-! ## What making directories does -/

/-- An attempt that comes off leaves a directory. -/
theorem Settling.hasDirectory (h : Settling d p d' (.ok ())) : d'.HasDirectory p := by
  cases h with
  | made h => exact hasDirectory_of_makeDirectory h
  | there h => exact hasDirectory_of_isDirectory h

/-- When a directory was made with those above it, the path leads to it. -/
theorem Making.hasDirectory (h : Making d p d' (.ok ())) : d'.HasDirectory p := by
  cases h with
  | last h => exact h.hasDirectory
  | above _ _ _ h => exact h.hasDirectory

/-- There are directories at places where there was nothing, and all else is as it was. -/
def Grows (d d' : Disk) : Prop :=
  Frame d d' ∧ ∀ place, d'.node? place = d.node? place ∨
    d.node? place = none ∧ d'.node? place = some .directory

theorem Grows.refl (d : Disk) : Grows d d := ⟨.refl d, fun _ => .inl rfl⟩

theorem Grows.trans (h : Grows d d') (h' : Grows d' d'') : Grows d d'' := by
  refine ⟨h.1.trans h'.1, fun place => ?_⟩
  rcases h.2 place with hsame | ⟨hnone, hnew⟩
  · rw [← hsame]
    exact h'.2 place
  · rcases h'.2 place with hsame | ⟨hnone', -⟩
    · exact .inr ⟨hnone, hsame.trans hnew⟩
    · rw [hnew] at hnone'
      cases hnone'

/-- An attempt adds a directory at most. -/
theorem Settling.grows (h : Settling d p d' result) : Grows d d' := by
  cases h with
  | made h =>
    obtain ⟨-, place, -, hnode, rfl⟩ := makeDirectory_eq_ok h
    refine ⟨⟨rfl, rfl⟩, fun q => ?_⟩
    rw [node?_setNode (ne_nil_of_node? (d := d) (by simp [hnode]))]
    split
    · subst q
      exact .inr ⟨hnode, rfl⟩
    · exact .inl rfl
  | there _ => exact .refl d
  | refused _ => exact .refl d
  | unseen _ _ => exact .refl d

/-- A chain of attempts adds directories at most. -/
theorem Making.grows (h : Making d p d' result) : Grows d d' := by
  induction h with
  | last h => exact h.grows
  | above _ _ _ h ih => exact ih.trans h.grows
  | stuck _ _ _ ih => exact ih
  | exhausted _ => exact .refl d

/-! ## The faults that do not come from the system -/

/-- Making a directory fails for a null character exactly if its path holds one. -/
theorem makeDirectory_eq_null_iff : d.makeDirectory p = .error .nullCharacter ↔ '\x00' ∈ p.text :=
  atPath_eq_null_iff

/-- An attempt fails for a null character exactly if the path holds one. -/
theorem Settling.nullCharacter_iff (h : Settling d p d' result) :
    result = .error .nullCharacter ↔ '\x00' ∈ p.text := by
  cases h with
  | made h =>
    obtain ⟨⟨hnull, -⟩, -⟩ := makeDirectory_eq_ok h
    simp [hnull]
  | there h =>
    obtain ⟨⟨hnull, -⟩, -⟩ := hasDirectory_of_isDirectory h
    simp [hnull]
  | refused h => rw [← @makeDirectory_eq_null_iff d, h, Except.error.injEq, Except.error.injEq]
  | unseen h _ =>
    rw [← @atPath_eq_null_iff d p, Except.error.injEq]
    exact ⟨fun hnull => hnull ▸ h, fun hnull => Except.error.inj (h.symm.trans hnull)⟩

/-- Making directories fails for a null character exactly if the path holds one. -/
theorem Making.nullCharacter_iff (h : Making d p d' result) :
    result = .error .nullCharacter ↔ '\x00' ∈ p.text := by
  induction h with
  | last h => exact h.nullCharacter_iff
  | above _ _ _ h => exact h.nullCharacter_iff
  | stuck hnames hastray _ ih =>
    rw [ih]
    exact iff_of_false (acceptable_parent hastray.1 hnames).1 hastray.1.1
  | exhausted hastray => exact iff_of_false (by simp) hastray.1.1

/-- A single attempt needs no levels. -/
theorem Settling.ne_tooDeep (h : Settling d p d' result) : result ≠ .error .tooDeep := by
  rintro rfl
  cases h with
  | refused h => exact atPath_ne_tooDeep h
  | unseen h _ => exact atPath_ne_tooDeep h

/-- Too many directories are missing exactly if the path that lies all the levels higher still
    leads through one that is missing. -/
theorem makeDirectories_eq_tooDeep_iff : (d.makeDirectories levels p).2 = .error .tooDeep ↔
    Acceptable p ∧ levels < p.names.length ∧
      d.walk (Path.parent^[levels] p) = .error .notFound := by
  -- The induction is on the levels that may still be made, upwards from the path.
  induction levels generalizing p with
  | zero =>
    rw [makeDirectories, List.length_pos_iff]
    split
    · obtain ⟨hnames, hastray⟩ := lacksAbove_iff.1 ‹_›
      exact iff_of_true rfl ⟨hastray.1, hnames, hastray.2⟩
    · refine iff_of_false (settling_of_makeIfMissing rfl).ne_tooDeep ?_
      rintro ⟨hacceptable, hnames, h⟩
      exact ‹¬_› (lacksAbove_iff.2 ⟨hnames, hacceptable, h⟩)
  | succ levels ih =>
    have hlength := length_parent p
    have hparent := @ih p.parent
    rw [makeDirectories, Function.iterate_succ_apply]
    split
    · -- The path goes astray, and its fault is the one of the path above.
      obtain ⟨hnames, hastray⟩ := lacksAbove_iff.1 ‹_›
      have hpos := List.length_pos_iff.2 hnames
      have hiff : (Acceptable p ∧ levels + 1 < p.names.length ∧
          d.walk (Path.parent^[levels] p.parent) = .error .notFound) ↔
          (d.makeDirectories levels p.parent).2 = .error .tooDeep := by
        rw [hparent]
        exact ⟨fun h => ⟨acceptable_parent hastray.1 hnames, by omega, h.2.2⟩,
          fun h => ⟨hastray.1, by omega, h.2.2⟩⟩
      rw [hiff]
      split
      · rw [‹d.makeDirectories levels p.parent = _›]
      · rw [‹d.makeDirectories levels p.parent = _›]
        exact iff_of_false (settling_of_makeIfMissing rfl).ne_tooDeep (by simp)
    · -- Nothing is missing above the path, and so nothing is missing higher up.
      refine iff_of_false (settling_of_makeIfMissing rfl).ne_tooDeep ?_
      rintro ⟨hacceptable, hlevels, h⟩
      have hnames : p.names ≠ [] := List.length_pos_iff.1 (Nat.zero_lt_of_lt hlevels)
      have hwalk := walk_of_parent hnames (walk_of_iterate_parent (by omega) h)
      exact ‹¬_› (lacksAbove_iff.2 ⟨hnames, hacceptable, hwalk⟩)

end Disk

end LiveCheck
