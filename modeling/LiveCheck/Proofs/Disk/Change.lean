import LiveCheck.Disk.Planting
import LiveCheck.Proofs.Disk
import LiveCheck.Proofs.Table

/-!
# Changes to a disk

A file is read from a path if the directories on the way are there and may be passed, and the file
is at its end and may be read (`Disk.readBytes_eq_ok`). No change touches the place that relative
paths start from, or what is denied (`Disk.Frame`). A change that keeps the directories, too, and
the node at one place, keeps the file that is read there (`Disk.Spares`): planting a node, removing
a file and writing one are such changes for all other places.

Where there is a file, an operation can fail only because the system denies it (`HasFile.denied`).
So after an attempt to remove a file there is none, or what is denied keeps it there
(`Disk.no_file_of_removeFile`, `Disk.keeps_of_removeFile`).
-/

namespace LiveCheck.Disk

variable {d d' : Disk} {p : Path} {place : Place} {node : Node}

/-! ## Operations on files -/

/-- A file is read if its path leads to it and the system lets it be read. -/
theorem readBytes_eq_ok {bytes : List UInt8} : d.readBytes p = .ok bytes ↔ Acceptable p ∧
    ∃ place, d.walk p = .ok place ∧ d.denials .read place = none ∧
      ∃ executable, d.node? place = some (.file bytes executable) := by
  rw [readBytes, atPath_eq_ok]
  refine and_congr_right fun _ => exists_congr fun place => and_congr_right fun _ => ?_
  cases d.node? place with
  | none => simp
  | some node =>
    cases hgrant : d.grant .read place with
    | error error =>
      obtain ⟨denial, hdenial, rfl⟩ := grant_eq_error.1 hgrant
      simp [bind, Except.bind, hdenial]
    | ok granted => cases node <;> simp [bind, Except.bind, grant_eq_ok.1 hgrant]

/-- A file is removed if its path leads to it and the system lets it be removed. -/
theorem removeFile_eq_ok : d.removeFile p = .ok d' ↔ Acceptable p ∧ ∃ place,
    d.walk p = .ok place ∧ d.denials .remove place = none ∧
      (∃ bytes executable, d.node? place = some (.file bytes executable)) ∧
        d' = d.removeNode place := by
  rw [removeFile, atPath_eq_ok]
  refine and_congr_right fun _ => exists_congr fun place => and_congr_right fun _ => ?_
  cases d.node? place with
  | none => simp
  | some node =>
    cases hgrant : d.grant .remove place with
    | error error =>
      obtain ⟨denial, hdenial, rfl⟩ := grant_eq_error.1 hgrant
      simp [bind, Except.bind, hdenial]
    | ok granted => cases node <;> simp [bind, Except.bind, grant_eq_ok.1 hgrant, eq_comm]

/-- A file that was written is at the place that its path leads to, where no directory was. -/
theorem writeBytes_eq_ok {bytes : List UInt8} (h : d.writeBytes p bytes = .ok d') : Acceptable p ∧
    ∃ place executable, d.walk p = .ok place ∧ d.denials .write place = none ∧
      d.node? place ≠ some .directory ∧ d' = d.setNode place (.file bytes executable) := by
  rw [writeBytes, atPath_eq_ok] at h
  obtain ⟨hacceptable, place, hwalk, hset⟩ := h
  refine ⟨hacceptable, place, ?_⟩
  -- With or without an old file, the system is asked, and then the new file is put in the place.
  have hwrite : ∀ executable, (d.grant .write place).map
      (fun _ => d.setNode place (.file bytes executable)) = .ok d' →
      d.denials .write place = none ∧ d' = d.setNode place (.file bytes executable) := by
    intro executable h
    cases hgrant : d.grant .write place with
    | error error =>
      rw [hgrant] at h
      cases h
    | ok granted =>
      rw [hgrant] at h
      exact ⟨grant_eq_ok.1 hgrant, (Except.ok.inj h).symm⟩
  cases hnode : d.node? place with
  | none =>
    rw [hnode] at hset
    obtain ⟨hgranted, rfl⟩ := hwrite false hset
    exact ⟨false, hwalk, hgranted, by simp, rfl⟩
  | some node =>
    rw [hnode] at hset
    cases node with
    | directory => cases hset
    | file old executable =>
      obtain ⟨hgranted, rfl⟩ := hwrite executable hset
      exact ⟨executable, hwalk, hgranted, by simp, rfl⟩

/-! ## Nodes -/

/-- A node that is set anywhere but at the root is found at its place. -/
theorem node?_setNode (h : place ≠ []) (q : Place) :
    (d.setNode place node).node? q = if q = place then some node else d.node? q := by
  by_cases hroot : q = []
  · simp [node?, hroot, Ne.symm h]
  · simp [node?, setNode, hroot, Table.get?_put]

/-- Nothing is left at the place of a node that was removed, and all else is as it was. -/
theorem node?_removeNode (h : place ≠ []) (q : Place) :
    (d.removeNode place).node? q = if q = place then none else d.node? q := by
  by_cases hroot : q = []
  · simp [node?, hroot, Ne.symm h]
  · simp [node?, removeNode, hroot, Table.get?_erase]

/-- There is a directory at the root, and no change makes it another node. -/
theorem ne_nil_of_node? (h : d.node? place ≠ some .directory) : place ≠ [] := by
  rintro rfl
  exact h rfl

/-! ## Walking -/

/-- Every directory of the first disk is one of the second. -/
def DirectoriesIn (d d' : Disk) : Prop :=
  ∀ q, d.node? q = some .directory → d'.node? q = some .directory

/-- The change touches neither the place that relative paths start from, nor what is denied. -/
structure Frame (d d' : Disk) : Prop where
  here : d'.here = d.here
  denials : d'.denials = d.denials

theorem Frame.refl (d : Disk) : Frame d d := ⟨rfl, rfl⟩

theorem Frame.trans {d'' : Disk} (h : Frame d d') (h' : Frame d' d'') : Frame d d'' :=
  ⟨h'.here.trans h.here, h'.denials.trans h.denials⟩

theorem Frame.symm (h : Frame d d') : Frame d' d := ⟨h.here.symm, h.denials.symm⟩

theorem Frame.opened (h : Frame d d') : Frame d.opened d'.opened := ⟨h.here, rfl⟩

/-- A walk gets where it got before if no directory is gone. -/
theorem walkFrom_of_directoriesIn (h : DirectoriesIn d d') (hdenials : d'.denials = d.denials)
    {start : Place} {names : List Text} (hwalk : d.walkFrom start names = .ok place) :
    d'.walkFrom start names = .ok place := by
  induction names generalizing start with
  | nil => exact hwalk
  | cons name rest ih =>
    rw [walkFrom_cons_eq_ok] at hwalk ⊢
    obtain ⟨hnode, hpass, hrest⟩ := hwalk
    refine ⟨h start hnode, hdenials ▸ hpass, hrest.imp ?_ ?_⟩
    · exact And.imp_right ih
    · exact And.imp_right (And.imp_right ih)

theorem walk_of_directoriesIn (h : DirectoriesIn d d') (hframe : Frame d d')
    (hwalk : d.walk p = .ok place) : d'.walk p = .ok place := by
  rw [walk, hframe.here]
  exact walkFrom_of_directoriesIn h hframe.denials hwalk

/-! ## Sparing a place -/

/-- The change keeps the directories, and what is at the place. -/
structure Spares (place : Place) (d d' : Disk) : Prop extends Frame d d' where
  directories : DirectoriesIn d d'
  node : ∀ node, d.node? place = some node → d'.node? place = some node

theorem Spares.refl (place : Place) (d : Disk) : Spares place d d :=
  ⟨.refl d, fun _ => id, fun _ => id⟩

theorem Spares.trans {d'' : Disk} (h : Spares place d d') (h' : Spares place d' d'') :
    Spares place d d'' :=
  ⟨h.toFrame.trans h'.toFrame, fun q hq => h'.directories q (h.directories q hq),
    fun node hnode => h'.node node (h.node node hnode)⟩

/-- A file is read as before if its place is spared. -/
theorem Spares.readBytes (h : Spares p.names d d') (hp : p.Plain) {bytes : List UInt8}
    (hread : d.readBytes p = .ok bytes) : d'.readBytes p = .ok bytes := by
  obtain ⟨hacceptable, q, hwalk, hgranted, executable, hnode⟩ := readBytes_eq_ok.1 hread
  obtain ⟨rfl, -⟩ := walk_of_plain hp hwalk
  exact readBytes_eq_ok.2 ⟨hacceptable, _, walk_of_directoriesIn h.directories h.toFrame hwalk,
    h.denials ▸ hgranted, executable, h.node _ hnode⟩

theorem Spares.opened (h : Spares place d d') : Spares place d.opened d'.opened :=
  ⟨h.toFrame.opened, h.directories, h.node⟩

/-- A path leads where it led, whether or not the system lets it be walked. -/
theorem Spares.opened_walk {q : Place} (h : Spares q d d') (hwalk : d.opened.walk p = .ok place) :
    d'.opened.walk p = .ok place :=
  walk_of_directoriesIn h.opened.directories h.opened.toFrame hwalk

/-- So the file holds what it held. -/
theorem Spares.contents (h : Spares p.names d d') (hp : p.Plain) {bytes : List UInt8}
    (hholds : d.contents p = .ok bytes) : d'.contents p = .ok bytes :=
  h.opened.readBytes hp hholds

/-- A node that comes where no directory was spares all other places. -/
theorem spares_setNode {q : Place} (h : d.node? q ≠ some .directory) (hne : q ≠ place)
    (node : Node) : Spares place d (d.setNode q node) := by
  have hget := fun r => @node?_setNode d q node (ne_nil_of_node? h) r
  refine ⟨⟨rfl, rfl⟩, fun r hr => ?_, fun node hnode => ?_⟩
  · rw [hget, if_neg, hr]
    rintro rfl
    exact h hr
  · rw [hget, if_neg (Ne.symm hne), hnode]

/-- The removal of a node that is no directory spares all other places. -/
theorem spares_removeNode {q : Place} (h : d.node? q ≠ some .directory) (hne : q ≠ place) :
    Spares place d (d.removeNode q) := by
  have hget := fun r => node?_removeNode (d := d) (ne_nil_of_node? h) r
  refine ⟨⟨rfl, rfl⟩, fun r hr => ?_, fun node hnode => ?_⟩
  · rw [hget, if_neg, hr]
    rintro rfl
    exact h hr
  · rw [hget, if_neg (Ne.symm hne), hnode]

/-- Clearing the way puts directories in empty places only. -/
theorem spares_clearWay (place : Place) (d : Disk) (start : Place) (names : List Text) :
    Spares place d (d.clearWay start names) := by
  induction names generalizing d start with
  | nil => exact .refl place d
  | cons name rest ih =>
    rw [clearWay]
    refine .trans ?_ (ih _ _)
    split
    · exact .refl place d
    · -- A directory is made where nothing was, so it is in the way of nothing.
      rename_i hempty
      have hempty : d.node? (start ++ [name]) = none := by simpa using hempty
      have hget := fun r => @node?_setNode d (start ++ [name]) .directory
        (ne_nil_of_node? (by rw [hempty]; nofun)) r
      refine ⟨⟨rfl, rfl⟩, fun r hr => ?_, fun node hnode => ?_⟩
      · rw [hget]
        split
        · rfl
        · exact hr
      · rw [hget, if_neg, hnode]
        rintro rfl
        simp [hempty] at hnode

theorem frame_plant (q : Place) (node : Node) : Frame d (d.plant q node) := by
  have hway := (spares_clearWay [] d [] q.dropLast).toFrame
  unfold plant
  generalize d.clearWay [] q.dropLast = d₁ at hway
  dsimp only
  split
  · exact hway
  · exact hway.trans ⟨rfl, rfl⟩
  · exact hway.trans ⟨rfl, rfl⟩

/-- Planting a node at one place spares all others. -/
theorem spares_plant {q : Place} (hne : q ≠ place) (node : Node) :
    Spares place d (d.plant q node) := by
  have hway := spares_clearWay place d [] q.dropLast
  unfold plant
  generalize d.clearWay [] q.dropLast = d₁ at hway
  refine hway.trans ?_
  dsimp only
  split
  · exact .refl place d₁
  · exact spares_setNode (by rw [‹d₁.node? q = _›]; nofun) hne _
  · rename_i hdirectory _
    exact spares_setNode hdirectory hne _

/-- The removal of a file spares all other places. -/
theorem spares_removeFile {q : Path} (hq : q.Plain) (hne : q.names ≠ place)
    (h : d.removeFile q = .ok d') : Spares place d d' := by
  obtain ⟨-, r, hwalk, -, ⟨bytes, executable, hnode⟩, rfl⟩ := removeFile_eq_ok.1 h
  obtain ⟨rfl, -⟩ := walk_of_plain hq hwalk
  exact spares_removeNode (by simp [hnode]) hne

/-- Writing a file spares all other places. -/
theorem spares_writeText {q : Path} (hq : q.Plain) (hne : q.names ≠ place) {text : Text}
    (h : d.writeText q text = .ok d') : Spares place d d' := by
  obtain ⟨-, r, executable, hwalk, -, hnode, rfl⟩ := writeBytes_eq_ok h
  obtain ⟨rfl, -⟩ := walk_of_plain hq hwalk
  exact spares_setNode hnode hne _

/-! ## What is there afterwards -/

theorem directoriesIn_of_setNode (h : d.node? place ≠ some .directory) (node : Node) :
    DirectoriesIn d (d.setNode place node) := by
  intro q hq
  rw [node?_setNode (ne_nil_of_node? h), if_neg, hq]
  rintro rfl
  exact h hq

/-- A file takes the place of no directory that is there afterwards. -/
theorem directoriesIn_of_setFile {bytes : List UInt8} {executable : Bool} (h : place ≠ []) :
    DirectoriesIn (d.setNode place (.file bytes executable)) d := by
  intro r hr
  rw [node?_setNode h] at hr
  split at hr
  · simp at hr
  · exact hr

/-- A text that was written is read, if the system lets the file be read. -/
theorem readBytes_writeText {text : Text} (h : d.writeText p text = .ok d')
    (hread : ∀ place, d.walk p = .ok place → d.denials .read place = none) :
    d'.readBytes p = .ok (Utf8.encode text) := by
  obtain ⟨hacceptable, q, executable, hwalk, -, hnode, rfl⟩ := writeBytes_eq_ok h
  refine readBytes_eq_ok.2 ⟨hacceptable, q, ?_, hread q hwalk, executable, ?_⟩
  · exact walk_of_directoriesIn (directoriesIn_of_setNode hnode _) ⟨rfl, rfl⟩ hwalk
  · rw [node?_setNode (ne_nil_of_node? hnode), if_pos rfl]

/-- The file that a text was written to holds it. -/
theorem contents_writeText {text : Text} (h : d.writeText p text = .ok d') :
    d'.contents p = .ok (Utf8.encode text) := by
  obtain ⟨hacceptable, q, executable, hwalk, -, hnode, rfl⟩ := writeBytes_eq_ok h
  refine readBytes_eq_ok.2 ⟨hacceptable, q, ?_, rfl, executable, ?_⟩
  · exact walk_of_directoriesIn (directoriesIn_of_setNode (d := d.opened) hnode _) ⟨rfl, rfl⟩
      (opened_walk hwalk)
  · exact (node?_setNode (ne_nil_of_node? hnode) q).trans (if_pos rfl)

/-- The directories that are left when a file is gone were there before. -/
theorem directoriesIn_of_removeNode {q : Place} (h : q ≠ []) :
    DirectoriesIn (d.removeNode q) d := by
  intro r hr
  rw [node?_removeNode h] at hr
  split at hr
  · simp at hr
  · exact hr

/-- Removing a file brings none about. -/
theorem hasFile_of_removeFile {q : Path} (h : d.removeFile q = .ok d') (hfile : d'.HasFile p) :
    d.HasFile p := by
  obtain ⟨-, place, -, -, ⟨bytes, executable, hnode⟩, rfl⟩ := removeFile_eq_ok.1 h
  have hne : place ≠ [] := ne_nil_of_node? (d := d) (by simp [hnode])
  obtain ⟨hacceptable, r, hwalk, bytes', executable', hnode'⟩ := hasFile_iff.1 hfile
  refine hasFile_iff.2 ⟨hacceptable, r, ?_, bytes', executable', ?_⟩
  · exact walk_of_directoriesIn (directoriesIn_of_removeNode (d := d.opened) hne) ⟨rfl, rfl⟩ hwalk
  · rw [node?_removeNode hne] at hnode'
    split at hnode'
    · simp at hnode'
    · exact hnode'

/-- There is no file where one was removed. -/
theorem no_file_of_removeFile (h : d.removeFile p = .ok d') : ¬d'.HasFile p := by
  obtain ⟨-, q, hwalk, -, ⟨bytes, executable, hnode⟩, rfl⟩ := removeFile_eq_ok.1 h
  have hne : q ≠ [] := ne_nil_of_node? (d := d) (by simp [hnode])
  intro hfile
  obtain ⟨-, r, hwalk', bytes', executable', hnode'⟩ := hasFile_iff.1 hfile
  -- The path leads to the same place as before.
  have hback : d.opened.walk p = .ok r :=
    walk_of_directoriesIn (directoriesIn_of_removeNode (d := d.opened) hne) ⟨rfl, rfl⟩ hwalk'
  obtain rfl := Except.ok.inj ((opened_walk hwalk).symm.trans hback)
  simp [node?_removeNode hne] at hnode'

/-- At a path with a file, an operation that fails on no file fails only if it is denied. -/
theorem HasFile.denied (hfile : d.HasFile p) {α : Type} {f : Place → Except SystemError α}
    (hf : ∀ place bytes executable error, d.node? place = some (.file bytes executable) →
      f place = .error error → ∃ denial, error = .denied denial)
    {fault : DiskFault} (h : d.atPath p f = .error fault) :
    ∃ denial, fault = .system (.denied denial) p.text := by
  obtain ⟨hacceptable, place, hwalk, bytes, executable, hnode⟩ := hasFile_iff.1 hfile
  cases fault with
  | nullCharacter => exact absurd (atPath_eq_null_iff.1 h) hacceptable.1
  | tooDeep => exact absurd h atPath_ne_tooDeep
  | system error path =>
    obtain ⟨rfl, ⟨-, hlong⟩ | ⟨-, hwalk' | ⟨q, hwalk', hend⟩⟩⟩ := atPath_eq_system h
    · exact absurd hacceptable.2 (Nat.not_le_of_lt hlong)
    · -- With everything let through, the same walk leads to the file; so it is a denial that ended
      -- it.
      by_contra hopen
      have hstop := opened_walk_error hwalk' fun denial hdenied =>
        hopen ⟨denial, by rw [hdenied]⟩
      rw [hwalk] at hstop
      cases hstop
    · obtain rfl := Except.ok.inj (hwalk.symm.trans (opened_walk hwalk'))
      obtain ⟨denial, rfl⟩ := hf place bytes executable error hnode hend
      exact ⟨denial, rfl⟩

/-- Where there is a file that could not be removed, the system denied it. -/
theorem denied_of_removeFile {fault : DiskFault} (h : d.removeFile p = .error fault)
    (hfile : d.HasFile p) : ∃ denial, fault = .system (.denied denial) p.text := by
  refine hfile.denied (fun place bytes executable error hnode herror => ?_) h
  rw [hnode] at herror
  cases hgrant : d.grant .remove place with
  | error denied =>
    obtain ⟨denial, -, rfl⟩ := grant_eq_error.1 hgrant
    rw [hgrant] at herror
    exact ⟨denial, (Except.error.inj herror).symm⟩
  | ok granted =>
    rw [hgrant] at herror
    cases herror

/-- So what could not be removed is kept there by what is denied. -/
theorem keeps_of_removeFile (hp : p.Plain) {fault : DiskFault} (h : d.removeFile p = .error fault)
    (hfile : d.HasFile p) : d.denials.Keeps p := by
  obtain ⟨denial, rfl⟩ := denied_of_removeFile h hfile
  obtain ⟨-, ⟨hlong, -⟩ | ⟨-, hwalk | ⟨place, hwalk, hend⟩⟩⟩ := atPath_eq_system h
  · cases hlong
  · rw [walk, hp.fullNames] at hwalk
    obtain ⟨way, hway, hne, hdenial⟩ := walkFrom_denied hp.2 hwalk
    exact .pass hway hne hdenial
  · obtain ⟨rfl, -⟩ := walk_of_plain hp hwalk
    cases hgrant : d.grant .remove p.names with
    | error denied =>
      obtain ⟨other, hdenial, -⟩ := grant_eq_error.1 hgrant
      exact .remove hdenial
    | ok granted =>
      rw [hgrant] at hend
      split at hend
      · cases hend
      · dsimp only [bind, Except.bind] at hend
        split at hend <;> cases hend

/-- What can be read is a file. -/
theorem hasFile_of_readBytes {bytes : List UInt8} (h : d.readBytes p = .ok bytes) :
    d.HasFile p := by
  obtain ⟨hacceptable, place, hwalk, -, executable, hnode⟩ := readBytes_eq_ok.1 h
  exact hasFile_iff.2 ⟨hacceptable, place, opened_walk hwalk, bytes, executable, hnode⟩

/-- Where a look tells that there is nothing, there is no file. -/
theorem no_file_of_pathExists (h : d.pathExists p = .ok false) : ¬d.HasFile p := by
  intro hfile
  rcases asks_eq_ok.1 h with ⟨node, -, hfalse⟩ | ⟨fault, hlookup, habsent, -⟩
  · cases hfalse
  obtain ⟨denial, rfl⟩ := by
    refine hfile.denied (fun place bytes executable error hnode herror => ?_) hlookup
    rw [hnode] at herror
    cases hgrant : d.grant .look place with
    | error denied =>
      obtain ⟨denial, -, rfl⟩ := grant_eq_error.1 hgrant
      rw [hgrant] at herror
      exact ⟨denial, (Except.error.inj herror).symm⟩
    | ok granted =>
      rw [hgrant] at herror
      cases herror
  rw [DiskFault.meansAbsent, SystemError.meansAbsent_denied] at habsent
  cases habsent

/-- At the end of a walk, there is a file or there is none. -/
theorem hasFile_iff_of_walk (hp : Acceptable p) (hwalk : d.opened.walk p = .ok place) :
    d.HasFile p ↔ ∃ bytes executable, d.node? place = some (.file bytes executable) := by
  rw [hasFile_iff]
  constructor
  · rintro ⟨-, q, hq, hnode⟩
    obtain rfl := Except.ok.inj (hwalk.symm.trans hq)
    exact hnode
  · exact fun hnode => ⟨hp, place, hwalk, hnode⟩

/-- Clearing the way brings about no file. -/
theorem file_of_clearWay {start : Place} {names : List Text} {bytes : List UInt8}
    {executable : Bool} (h : (d.clearWay start names).node? place = some (.file bytes executable)) :
    d.node? place = some (.file bytes executable) := by
  induction names generalizing d start with
  | nil => exact h
  | cons name rest ih =>
    rw [clearWay] at h
    have h := ih h
    split at h
    · exact h
    · rw [node?_setNode (by simp)] at h
      split at h
      · simp at h
      · exact h

/-- Planting brings about no file elsewhere. -/
theorem file_of_plant {q : Place} (hne : q ≠ place) {bytes : List UInt8} {executable : Bool}
    (hfile : (d.plant q node).node? place = some (.file bytes executable)) :
    d.node? place = some (.file bytes executable) := by
  unfold plant at hfile
  refine file_of_clearWay (?_ : (d.clearWay [] q.dropLast).node? place = _)
  generalize d.clearWay [] q.dropLast = d₁ at hfile
  dsimp only at hfile
  have hset : ∀ node, d₁.node? q ≠ some .directory →
      (d₁.setNode q node).node? place = some (.file bytes executable) →
      d₁.node? place = some (.file bytes executable) := by
    intro node hq h
    rwa [node?_setNode (ne_nil_of_node? hq), if_neg (Ne.symm hne)] at h
  split at hfile
  · exact hfile
  · exact hset _ (by simp [*]) hfile
  · exact hset _ ‹_› hfile

/-- Writing a file brings about none at another path. -/
theorem hasFile_of_writeText {q : Path} (hp : p.Plain) (hq : q.Plain) (hne : q ≠ p) {text : Text}
    (h : d.writeText q text = .ok d') (hfile : d'.HasFile p) : d.HasFile p := by
  obtain ⟨-, place, executable, hwalk, -, hnode, rfl⟩ := writeBytes_eq_ok h
  obtain ⟨rfl, -⟩ := walk_of_plain hq hwalk
  have hroot := ne_nil_of_node? hnode
  obtain ⟨hacceptable, r, hwalk', bytes', executable', hnode'⟩ := hasFile_iff.1 hfile
  obtain ⟨rfl, -⟩ := walk_of_plain hp hwalk'
  refine hasFile_iff.2 ⟨hacceptable, p.names, ?_, bytes', executable', ?_⟩
  · exact walk_of_directoriesIn (directoriesIn_of_setFile (d := d.opened) hroot) ⟨rfl, rfl⟩ hwalk'
  · rwa [node?_setNode hroot, if_neg fun hnames => hne (Path.Plain.ext hq hp hnames.symm)] at hnode'

end LiveCheck.Disk
