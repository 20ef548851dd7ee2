import LiveCheck.Proofs.Disk.Change

/-!
# Directories that are there

Where there is a directory that may be looked at, none is made (`makeDirectories_of_isDirectory`).
From a directory every name that is short enough leads on, unless the system denies it
(`walk_child`). So a file in it is written if the path is not too long, no directory stands in its
place and the system lets it be written (`writeText_of_writable`), and writing the same text again
changes nothing (`writeText_again`).
-/

namespace LiveCheck.Disk

variable {d d' : Disk} {p : Path} {place : Place} {name text : Text}

/-! ## Directories -/

/-- The path leads to a directory, whether or not the system lets it be looked at. -/
def HasDirectory (d : Disk) (p : Path) : Prop :=
  Acceptable p ∧ ∃ place, d.walk p = .ok place ∧ d.node? place = some .directory

/-- A path is seen as a directory if a look shows one. -/
theorem isDirectory_iff : d.isDirectory p ↔ d.lookup p = .ok .directory := by
  unfold isDirectory
  split <;> simp_all

/-- What is seen as a directory is one. -/
theorem hasDirectory_of_isDirectory (h : d.isDirectory p) : d.HasDirectory p := by
  obtain ⟨hacceptable, place, hwalk, -, hnode⟩ := lookup_eq_ok.1 (isDirectory_iff.1 h)
  exact ⟨hacceptable, place, hwalk, hnode⟩

/-- A directory stays one where directories do. -/
theorem isDirectory_of_directoriesIn (h : DirectoriesIn d d') (hframe : Frame d d')
    (hp : d.isDirectory p) : d'.isDirectory p := by
  rw [isDirectory_iff, lookup_eq_ok] at hp ⊢
  obtain ⟨hacceptable, place, hwalk, hgranted, hnode⟩ := hp
  exact ⟨hacceptable, place, walk_of_directoriesIn h hframe hwalk, hframe.denials ▸ hgranted,
    h place hnode⟩

/-- A directory is made at the place that the path leads to, where nothing was. -/
theorem makeDirectory_eq_ok (h : d.makeDirectory p = .ok d') : Acceptable p ∧
    ∃ place, d.walk p = .ok place ∧ d.node? place = none ∧ d' = d.setNode place .directory := by
  rw [makeDirectory, atPath_eq_ok] at h
  obtain ⟨hacceptable, place, hwalk, hset⟩ := h
  refine ⟨hacceptable, place, hwalk, ?_⟩
  split at hset
  · cases hset
  · cases hgrant : d.grant .make place with
    | error error =>
      rw [hgrant] at hset
      cases hset
    | ok granted =>
      rw [hgrant] at hset
      exact ⟨‹_›, (Except.ok.inj hset).symm⟩

/-- There is a directory where one was made. -/
theorem hasDirectory_of_makeDirectory (h : d.makeDirectory p = .ok d') : d'.HasDirectory p := by
  obtain ⟨hacceptable, place, hwalk, hnode, rfl⟩ := makeDirectory_eq_ok h
  have hnot : d.node? place ≠ some .directory := by simp [hnode]
  refine ⟨hacceptable, place, ?_, ?_⟩
  · exact walk_of_directoriesIn (directoriesIn_of_setNode hnot _) ⟨rfl, rfl⟩ hwalk
  · rw [node?_setNode (ne_nil_of_node? hnot), if_pos rfl]

/-- Where there is a directory that may be looked at, nothing is made. -/
theorem makeDirectories_of_isDirectory (h : d.isDirectory p) (levels : Nat) :
    d.makeDirectories levels p = (d, .ok ()) := by
  obtain ⟨hacceptable, place, hwalk, -, hnode⟩ := lookup_eq_ok.1 (isDirectory_iff.1 h)
  have hmake : d.makeDirectory p = .error (.system .exists p.text) := by
    rw [makeDirectory, atPath_of_walk hacceptable hwalk, hnode]
    rfl
  have hasks : d.asks p (· = .directory) = .ok true :=
    asks_eq_ok.2 (.inl ⟨_, isDirectory_iff.1 h, rfl⟩)
  have hlacks : d.lacksAbove p = false := by rw [lacksAbove, hmake, Bool.and_false]
  have hhere : d.makeIfMissing p = (d, .ok ()) := by rw [makeIfMissing, hmake, hasks]
  cases levels <;> simp only [makeDirectories, hlacks, Bool.false_eq_true, if_false, hhere]

/-! ## Files in a directory -/

/-- A walk along more names goes on from where the first ones lead. -/
theorem walkFrom_append {start : Place} {names more : List Text}
    (h : d.walkFrom start names = .ok place) :
    d.walkFrom start (names ++ more) = d.walkFrom place more := by
  induction names generalizing start with
  | nil =>
    rw [Except.ok.inj h]
    rfl
  | cons name rest ih =>
    obtain ⟨hnode, hpass, hrest⟩ := walkFrom_cons_eq_ok.1 h
    have hgrant : d.grant .pass start = .ok () := grant_eq_ok.2 hpass
    rw [List.cons_append, walkFrom, hnode]
    simp only [hgrant, bind, Except.bind]
    obtain ⟨hup, hrest⟩ | ⟨hdown, hshort, hrest⟩ := hrest
    · rw [if_pos hup]
      exact ih hrest
    · rw [if_neg hdown, if_neg (Nat.not_lt_of_le hshort)]
      exact ih hrest

theorem fullNames_child (here : Place) (p : Path) (name : Text) :
    (p.child name).fullNames here = p.fullNames here ++ [name] := by
  unfold Path.fullNames Path.child
  split <;> simp

/-- From a directory, a name leads on, unless the system denies it. -/
theorem walk_child (hp : d.HasDirectory p) (hup : name ≠ ['.', '.'])
    (hlong : (Utf8.encode name).length ≤ nameLimit) :
    (∃ denial, d.walk (p.child name) = .error (.denied denial)) ∨
      ∃ place, d.walk (p.child name) = .ok place := by
  obtain ⟨-, place, hwalk, hnode⟩ := hp
  rw [walk, fullNames_child, walkFrom_append hwalk, walkFrom, hnode]
  cases hgrant : d.grant .pass place with
  | error error =>
    obtain ⟨denial, -, rfl⟩ := grant_eq_error.1 hgrant
    exact .inl ⟨denial, rfl⟩
  | ok granted =>
    refine .inr ⟨place ++ [name], ?_⟩
    simp only [bind, Except.bind, if_neg hup, if_neg (Nat.not_lt_of_le hlong), walkFrom]

/-- Writing a file leaves the directories alone. -/
theorem isDirectory_of_writeText {q : Path} (h : d.writeText q text = .ok d')
    (hp : d.isDirectory p) : d'.isDirectory p := by
  obtain ⟨-, place, executable, -, -, hnode, rfl⟩ := writeBytes_eq_ok h
  exact isDirectory_of_directoriesIn (directoriesIn_of_setNode hnode _) ⟨rfl, rfl⟩ hp

/-- A file can be written at the path: it is not too long, the directories on the way are there and
    may be passed, no directory is in the place, and the system lets it be written. -/
def Writable (d : Disk) (p : Path) : Prop :=
  Acceptable p ∧ ∃ place, d.walk p = .ok place ∧ d.denials .write place = none ∧
    d.node? place ≠ some .directory

/-- A file can be written at a writable path. -/
theorem writeText_of_writable (h : d.Writable p) (text : Text) :
    ∃ d', d.writeText p text = .ok d' := by
  obtain ⟨hacceptable, place, hwalk, hgranted, hnode⟩ := h
  have hgrant : d.grant .write place = .ok () := grant_eq_ok.2 hgranted
  rw [writeText, writeBytes, atPath_of_walk hacceptable hwalk]
  simp only [located_eq_ok, hgrant]
  cases hfound : d.node? place with
  | none => exact ⟨_, rfl⟩
  | some node =>
    cases node with
    | directory => exact absurd hfound hnode
    | file bytes executable => exact ⟨_, rfl⟩

/-- Where a file was written, one can be written again, and the same text makes no difference. -/
theorem writeText_again (h : d.writeText p text = .ok d') :
    d'.Writable p ∧ d'.writeText p text = .ok d' := by
  obtain ⟨hacceptable, place, executable, hwalk, hgranted, hnode, rfl⟩ := writeBytes_eq_ok h
  have hroot := ne_nil_of_node? hnode
  have hwalk' := walk_of_directoriesIn
    (directoriesIn_of_setNode hnode (.file (Utf8.encode text) executable)) ⟨rfl, rfl⟩ hwalk
  have hnode' : (d.setNode place (.file (Utf8.encode text) executable)).node? place =
      some (.file (Utf8.encode text) executable) := by
    rw [node?_setNode hroot, if_pos rfl]
  have hgrant :
      (d.setNode place (.file (Utf8.encode text) executable)).grant .write place = .ok () :=
    grant_eq_ok.2 hgranted
  refine ⟨⟨hacceptable, place, hwalk', hgranted, by simp [hnode']⟩, ?_⟩
  rw [writeText, writeBytes, atPath_eq_ok]
  refine ⟨hacceptable, place, hwalk', ?_⟩
  rw [hnode']
  dsimp only
  rw [hgrant, Except.map, setNode, setNode, Table.put_eq_self (Table.get?_put_self _ _ _)]

end LiveCheck.Disk
