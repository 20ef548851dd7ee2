import LiveCheck.Proofs.Disk.Making
import LiveCheck.Proofs.Json.ReadBack
import LiveCheck.Proofs.Text.Utf8
import LiveCheck.Settings.Basic

/-!
# Settings survive saving and loading

Whatever is done with the settings, those that have a default come first, in the order of the
defaults (`Settings.Ordered`): loading lays the entries of a file over the defaults, and a change
keeps the place of a key or puts a new one at the end. So laying the entries of settings over the
defaults gives the same settings, and what is read of their file is what was written
(`Settings.ofBytes_fileText`).

Where settings were loaded from a file that can be read, or from none, and the system denies nothing
at their directory and their file (`Settings.Granted`), they can be saved (`Settings.Ready`), and
this stays so. The main theorem puts the two together for every sequence of loading, changing and
saving (`Settings.Reached.restored`).
-/

namespace LiveCheck

namespace Settings

variable {m : Machine} {d d' : Disk} {directory : Path} {values : SettingTable}

/-! ## The order of the settings -/

/-- The settings begin with those that have a default, in the order of the defaults, and no key is
    there twice. -/
structure Ordered (values : SettingTable) : Prop where
  defaults : defaultSettings.keys <+: values.keys
  nodup : values.keys.Nodup

theorem ordered_defaults : Ordered defaultSettings := ⟨List.prefix_rfl, by decide⟩

theorem Ordered.put (h : Ordered values) (key : JsonString) (value : Json) :
    Ordered (values.put key value) := by
  refine ⟨?_, Table.nodup_put h.nodup key value⟩
  by_cases hkey : key ∈ values.keys
  · exact Table.keys_put_of_mem hkey value ▸ h.defaults
  · exact Table.keys_put_of_not_mem hkey value ▸ h.defaults.trans (List.prefix_append _ _)

/-- Laying entries over values keeps their order. -/
theorem Ordered.overlay (h : Ordered values) (entries : List (JsonString × Json)) :
    Ordered (values.overlay entries) := by
  induction entries generalizing values with
  | nil => exact h
  | cons e rest ih => exact ih (h.put e.1 e.2)

/-- Values that were laid over the defaults are in order. -/
theorem ordered_overDefaults (value : Json) : Ordered (overDefaults value) := by
  cases value with
  | object members => exact ordered_defaults.overlay members
  | _ => exact ordered_defaults

theorem ordered_of_ofBytes {bytes : List UInt8} (h : ofBytes m bytes = .ok (some values)) :
    Ordered values := by
  rw [ofBytes] at h
  split at h
  · cases h
  split at h
  · cases h
  · cases h
  · cases h
  · obtain rfl := Option.some.inj (Except.ok.inj h)
    exact ordered_overDefaults _

/-- Values that were loaded from a file are in order. -/
theorem ordered_of_ofFile {file : Path} {note : Option LoadNote}
    (h : ofFile m d file = (.ok values, note)) : Ordered values := by
  rw [ofFile] at h
  split at h
  · cases h
  · cases h
    exact ordered_defaults
  · split at h
    · cases h
      exact ordered_defaults
    · split at h
      · cases h
      · cases h
        exact ordered_defaults
      · cases h
        exact ordered_of_ofBytes ‹_›

/-- Loaded settings are in order. -/
theorem ordered_of_load {note : Option LoadNote}
    (h : load m d directory = ⟨d', .ok values, note⟩) : Ordered values := by
  rw [load] at h
  split at h
  · cases h
    exact ordered_defaults
  · cases h
  · rename_i made _
    obtain ⟨-, hsettings, hnote⟩ := Loaded.mk.inj h
    exact ordered_of_ofFile (Prod.ext hsettings hnote)

/-! ## What is written is read -/

/-- The settings can be kept in a file: their keys are texts, and their values can be kept and are
    not nested too deep. -/
def Storable (m : Machine) (values : SettingTable) : Prop :=
  ∀ e ∈ values.entries, (∃ key, e.1 = .text key) ∧ e.2.Storable ∧ e.2.nesting < m.nesting

/-- The defaults can be kept in a file of the usual machine. -/
theorem storable_defaults : Storable .usual defaultSettings := by
  intro e he
  simp only [defaultSettings, List.mem_cons, List.not_mem_nil, or_false] at he
  rcases he with rfl | rfl | rfl | rfl | rfl | rfl
  · exact ⟨⟨_, rfl⟩, ⟨_, rfl⟩, by decide⟩
  · exact ⟨⟨_, rfl⟩, ⟨⟨_, rfl⟩, ⟨_, rfl⟩, trivial⟩, by decide⟩
  · exact ⟨⟨_, rfl⟩, ⟨_, rfl⟩, by decide⟩
  · exact ⟨⟨_, rfl⟩, ⟨⟨_, rfl⟩, trivial⟩, by decide⟩
  · generalize hhalf : Binary64.ofRatio false 1 2 = half
    exact ⟨⟨_, rfl⟩, Json.numerical_of_ofRatio hhalf, Nat.zero_lt_succ _⟩
  · exact ⟨⟨_, rfl⟩, ⟨_, rfl⟩, by decide⟩

/-- A value that can be kept does no harm under any key that is a text. -/
theorem Storable.put (h : Storable m values) (key : Text) {value : Json} (hvalue : value.Storable)
    (hnesting : value.nesting < m.nesting) : Storable m (values.put (.text key) value) := by
  intro e he
  rcases Table.mem_putEntry he with rfl | he
  · exact ⟨⟨key, rfl⟩, hvalue, hnesting⟩
  · exact h e he

/-- Values that can be kept make an object that can be. -/
theorem storable_object (hordered : Ordered values) (h : Storable m values) :
    (Json.object values.entries).Storable ∧ (Json.object values.entries).nesting ≤ m.nesting := by
  -- Settings in order are never none at all, so there is room for their object.
  have hroom : 0 < m.nesting := by
    have hfirst : JsonString.text "compiler".toList ∈ values.keys :=
      hordered.defaults.subset (List.mem_cons_self ..)
    obtain ⟨e, he, -⟩ := List.mem_map.1 hfirst
    exact Nat.zero_lt_of_lt (h e he).2.2
  have hmembers : ∀ members : List (JsonString × Json),
      (∀ e ∈ members, (∃ key, e.1 = .text key) ∧ e.2.Storable ∧ e.2.nesting < m.nesting) →
        Json.StorableMembers members ∧ Json.nestingMembers members < m.nesting := by
    intro members
    induction members with
    | nil => exact fun _ => ⟨trivial, hroom⟩
    | cons e rest ih =>
      intro h
      rw [List.forall_mem_cons] at h
      obtain ⟨hrest, hnesting⟩ := ih h.2
      exact ⟨⟨h.1.1, h.1.2.1, hrest⟩, max_lt h.1.2.2 hnesting⟩
  obtain ⟨hstorable, hnesting⟩ := hmembers _ h
  exact ⟨⟨hordered.nodup, hstorable⟩, hnesting⟩

/-- Settings in order that can be kept in a file are read from it as they were written. -/
theorem ofBytes_fileText (hordered : Ordered values) (h : Storable m values) :
    ofBytes m (Utf8.encode (fileText ⟨directory, values⟩)) = .ok (some values) := by
  obtain ⟨hstorable, hnesting⟩ := storable_object hordered h
  have hplain : PlainText (fileText ⟨directory, values⟩) := Json.plain_indentedAt 0 _
  rw [ofBytes, Utf8.decode_encode]
  dsimp only
  rw [hplain.unifyNewlines, fileText, Json.read_indented hstorable hnesting]
  dsimp only
  rw [overDefaults, Table.overlay_eq hordered.defaults hordered.nodup]

/-! ## Saving and loading -/

/-- The system denies nothing at the directory, nor at the file in it. -/
structure Granted (d : Disk) (directory : Path) : Prop where
  atDirectory {place : Place} (h : d.walk directory = .ok place) (access : Access) :
    d.denials access place = none
  atFile {place : Place} (h : d.walk (fileIn directory) = .ok place) (access : Access) :
    d.denials access place = none

/-- Settings can be saved in the directory: it is there, no directory stands in the place of the
    file, and nothing is denied. -/
structure Ready (d : Disk) (directory : Path) : Prop where
  isDirectory : d.isDirectory directory
  writable : d.Writable (fileIn directory)
  granted : Granted d directory

/-- Values can be saved in a directory that is ready. -/
theorem save_of_ready (h : Ready d directory) (m : Machine) (values : SettingTable) :
    ∃ d', save m ⟨directory, values⟩ d = (d', .ok ()) := by
  obtain ⟨d', hwrite⟩ := Disk.writeText_of_writable h.writable (fileText ⟨directory, values⟩)
  refine ⟨d', ?_⟩
  rw [save, Disk.makeDirectories_of_isDirectory h.isDirectory]
  dsimp only
  rw [hwrite]

/-- Where a directory is, nothing comes to be denied by a change that keeps the directories. -/
theorem Granted.of_directoriesIn (h : Granted d directory) (hin : Disk.DirectoriesIn d d')
    (hframe : Disk.Frame d d') (hdirectory : d.HasDirectory directory) {place : Place}
    (hwalk : d.walk (fileIn directory) = .ok place) : Granted d' directory := by
  obtain ⟨-, above, habove, -⟩ := hdirectory
  constructor
  · intro q hq access
    rw [Disk.walk_of_directoriesIn hin hframe habove] at hq
    obtain rfl := Except.ok.inj hq
    rw [hframe.denials]
    exact h.atDirectory habove access
  · intro q hq access
    rw [Disk.walk_of_directoriesIn hin hframe hwalk] at hq
    obtain rfl := Except.ok.inj hq
    rw [hframe.denials]
    exact h.atFile hwalk access

/-- What saving leaves behind: the file holds the settings, settings can be saved again, and saving
    the same ones changes nothing. -/
theorem of_save (hready : Ready d directory)
    (h : save m ⟨directory, values⟩ d = (d', .ok ())) :
    d'.readBytes (fileIn directory) = .ok (Utf8.encode (fileText ⟨directory, values⟩)) ∧
      Ready d' directory ∧ save m ⟨directory, values⟩ d' = (d', .ok ()) := by
  rw [save, Disk.makeDirectories_of_isDirectory hready.isDirectory] at h
  dsimp only at h
  split at h
  · cases h
  rename_i hwrite
  cases h
  have hdirectory := Disk.isDirectory_of_writeText hwrite hready.isDirectory
  obtain ⟨hwritable, hagain⟩ := Disk.writeText_again hwrite
  have hread := Disk.readBytes_writeText hwrite fun place hwalk => hready.granted.atFile hwalk .read
  -- Only the bytes of the file changed, so what is granted was granted before.
  have hgranted : Granted d' directory := by
    obtain ⟨-, place, executable, hwalk, -, hnode, rfl⟩ := Disk.writeBytes_eq_ok hwrite
    exact hready.granted.of_directoriesIn (Disk.directoriesIn_of_setNode hnode _) ⟨rfl, rfl⟩
      (Disk.hasDirectory_of_isDirectory hready.isDirectory) hwalk
  refine ⟨hread, ⟨hdirectory, hwritable, hgranted⟩, ?_⟩
  rw [save, Disk.makeDirectories_of_isDirectory hdirectory]
  dsimp only
  rw [hagain]

/-- The file of the settings is read where it can be. -/
theorem load_of_readBytes {bytes : List UInt8} (hready : Ready d directory)
    (hread : d.readBytes (fileIn directory) = .ok bytes)
    (hvalues : ofBytes m bytes = .ok (some values)) :
    load m d directory = ⟨d, .ok values, none⟩ := by
  have hexists : d.pathExists (fileIn directory) = .ok true := by
    obtain ⟨hacceptable, place, hwalk, -, executable, hnode⟩ := Disk.readBytes_eq_ok.1 hread
    exact Disk.asks_eq_ok.2 (.inl ⟨_, Disk.lookup_eq_ok.2
      ⟨hacceptable, place, hwalk, hready.granted.atFile hwalk .look, hnode⟩, rfl⟩)
  rw [load, Disk.makeDirectories_of_isDirectory hready.isDirectory]
  dsimp only
  rw [ofFile, hexists]
  dsimp only
  rw [hread]
  dsimp only
  rw [hvalues]

theorem writable_of_readBytes (hgranted : Granted d directory) {bytes : List UInt8}
    (h : d.readBytes (fileIn directory) = .ok bytes) : d.Writable (fileIn directory) := by
  obtain ⟨hacceptable, place, hwalk, -, executable, hnode⟩ := Disk.readBytes_eq_ok.1 h
  exact ⟨hacceptable, place, hwalk, hgranted.atFile hwalk .write, by simp [hnode]⟩

theorem null_not_mem_fileIn (hdirectory : d.HasDirectory directory) :
    '\x00' ∉ (fileIn directory).text := fun hmem => by
  obtain ⟨⟨hnull, -⟩, -⟩ := hdirectory
  rcases Path.mem_text_of_child hmem with hmem | hmem | hmem
  · exact hnull hmem
  · exact absurd hmem (by decide)
  · exact absurd hmem (by decide)

theorem walk_fileIn (hdirectory : d.HasDirectory directory) :
    (∃ denial, d.walk (fileIn directory) = .error (.denied denial)) ∨
      ∃ place, d.walk (fileIn directory) = .ok place :=
  Disk.walk_child hdirectory (by decide) (by decide)

/-- Where there is no file in the directory, one can be written. -/
theorem writable_of_pathExists (hdirectory : d.HasDirectory directory)
    (hgranted : Granted d directory) (h : d.pathExists (fileIn directory) = .ok false) :
    d.Writable (fileIn directory) := by
  rcases Disk.asks_eq_ok.1 h with ⟨node, -, hfalse⟩ | ⟨fault, hlookup, habsent, -⟩
  · cases hfalse
  have hnull := null_not_mem_fileIn hdirectory
  -- Only a fault of the system can mean that the file is absent.
  cases fault with
  | nullCharacter => exact absurd (Disk.atPath_eq_null_iff.1 hlookup) hnull
  | tooDeep => cases habsent
  | system error path =>
    obtain ⟨-, ⟨rfl, -⟩ | ⟨hacceptable, hwalk | ⟨place, hwalk, hend⟩⟩⟩ :=
      Disk.atPath_eq_system hlookup
    · cases habsent
    · -- The way to the file is denied, or there is one.
      obtain ⟨denial, hdenied⟩ | ⟨place, hplace⟩ := walk_fileIn hdirectory
      · obtain rfl := Except.error.inj (hwalk.symm.trans hdenied)
        rw [DiskFault.meansAbsent, SystemError.meansAbsent_denied] at habsent
        cases habsent
      · rw [hplace] at hwalk
        cases hwalk
    · refine ⟨hacceptable, place, hwalk, hgranted.atFile hwalk .write, fun hnode => ?_⟩
      have hgrant : d.grant .look place = .ok () :=
        Disk.grant_eq_ok.2 (hgranted.atFile hwalk .look)
      rw [hnode] at hend
      dsimp only at hend
      rw [hgrant] at hend
      cases hend

/-- Where a file was loaded without a note, or none was there, one can be written. -/
theorem writable_of_ofFile (hdirectory : d.HasDirectory directory) (hgranted : Granted d directory)
    (h : ofFile m d (fileIn directory) = (.ok values, none)) : d.Writable (fileIn directory) := by
  rw [ofFile] at h
  split at h
  · cases h
  · exact writable_of_pathExists hdirectory hgranted ‹_›
  · split at h
    · cases h
    · exact writable_of_readBytes hgranted ‹_›

theorem isDirectory_of_granted (hdirectory : d.HasDirectory directory)
    (hgranted : Granted d directory) : d.isDirectory directory := by
  obtain ⟨hacceptable, place, hwalk, hnode⟩ := hdirectory
  exact Disk.isDirectory_iff.2 (Disk.lookup_eq_ok.2
    ⟨hacceptable, place, hwalk, hgranted.atDirectory hwalk .look, hnode⟩)

/-- Settings can be saved where they were loaded without a note and nothing is denied, and also
    where the file was passed over that can be read. -/
theorem ready_of_load {note : Option LoadNote}
    (h : load m d directory = ⟨d', .ok values, note⟩) (hgranted : Granted d' directory)
    (hnote : note = none ∨ note = some (.unreadable (fileIn directory)) ∧
      ∃ bytes, d'.readBytes (fileIn directory) = .ok bytes) : Ready d' directory := by
  rw [load] at h
  split at h
  · obtain ⟨-, -, rfl⟩ := Loaded.mk.inj h
    rcases hnote with hnote | ⟨hnote, -⟩ <;> cases hnote
  · cases h
  · rename_i made hmade
    obtain ⟨rfl, hsettings, rfl⟩ := Loaded.mk.inj h
    have hdirectory := (Disk.making_of_makeDirectories hmade).hasDirectory
    refine ⟨isDirectory_of_granted hdirectory hgranted, ?_, hgranted⟩
    rcases hnote with hnote | ⟨-, bytes, hread⟩
    · exact writable_of_ofFile hdirectory hgranted (Prod.ext hsettings hnote)
    · exact writable_of_readBytes hgranted hread

/-! ## Loading, changing and saving -/

/-- The disk and the settings that can be reached with a directory in which the system denies
    nothing. -/
inductive Reached (m : Machine) (directory : Path) : Disk → SettingTable → Prop
  /-- The settings were loaded, from a file that holds JSON or without one. -/
  | opened {d d' : Disk} {values : SettingTable}
      (h : load m d directory = ⟨d', .ok values, none⟩) (hgranted : Granted d' directory) :
      Reached m directory d' values
  /-- The settings were loaded, and a file was passed over that can be read but holds no JSON. -/
  | openedOver {d d' : Disk} {values : SettingTable} {bytes : List UInt8}
      (h : load m d directory = ⟨d', .ok values, some (.unreadable (fileIn directory))⟩)
      (hread : d'.readBytes (fileIn directory) = .ok bytes) (hgranted : Granted d' directory) :
      Reached m directory d' values
  /-- A setting was changed in memory: another value was assigned, or its value was changed in
      place. -/
  | changed {d : Disk} {values : SettingTable} (h : Reached m directory d values)
      (key : JsonString) (value : Json) : Reached m directory d (values.put key value)
  /-- Settings of the directory were saved: these, or others that were loaded beside them. -/
  | saved {d d' : Disk} {values other : SettingTable} (h : Reached m directory d values)
      (hsave : save m ⟨directory, other⟩ d = (d', .ok ())) : Reached m directory d' values

/-- Reached settings are in order and can be saved. -/
theorem Reached.invariant (h : Reached m directory d values) :
    Ordered values ∧ Ready d directory := by
  induction h with
  | opened h hgranted => exact ⟨ordered_of_load h, ready_of_load h hgranted (.inl rfl)⟩
  | openedOver h hread hgranted =>
    exact ⟨ordered_of_load h, ready_of_load h hgranted (.inr ⟨rfl, _, hread⟩)⟩
  | changed _ key value ih => exact ⟨ih.1.put key value, ih.2⟩
  | saved _ hsave ih => exact ⟨ih.1, (of_save ih.2 hsave).2.1⟩

/-- Settings that were reached in whatever way, and that can be kept in a file, are saved without a
    fault; loading gives them back, with the same keys in the same order and with the same values;
    and saving them again leaves every byte as it is. -/
theorem Reached.restored (h : Reached m directory d values) (hvalues : Storable m values) :
    ∃ d', save m ⟨directory, values⟩ d = (d', .ok ()) ∧
      load m d' directory = ⟨d', .ok values, none⟩ ∧
        save m ⟨directory, values⟩ d' = (d', .ok ()) := by
  obtain ⟨hordered, hready⟩ := h.invariant
  obtain ⟨d', hsave⟩ := save_of_ready hready m values
  obtain ⟨hread, hready', hagain⟩ := of_save hready hsave
  exact ⟨d', hsave, load_of_readBytes hready' hread (ofBytes_fileText hordered hvalues), hagain⟩

/-- Without a file, the defaults are loaded. With another extension, put behind the default one in
    place, and a note with a character that takes two escapes, they are restored. -/
theorem restored_of_fresh :
    let directory : Path := ⟨['/'], ["cfg".toList]⟩
    let d : Disk := { nodes := ⟨[(["cfg".toList], .directory)]⟩ }
    let extensions : Json := .list [.text ".gms".toList, .text ".inc".toList]
    let note : Json :=
      .object [(.text ['"', Char.ofNat 0x1F600], .list [.int (-7), .list [], .null])]
    let values := (defaultSettings.put (.text "extensions".toList) extensions).put
      (.text "note".toList) note
    Reached .usual directory d values ∧ Storable .usual values ∧
      ∃ d', save .usual ⟨directory, values⟩ d = (d', .ok ()) ∧
        load .usual d' directory = ⟨d', .ok values, none⟩ ∧
          save .usual ⟨directory, values⟩ d' = (d', .ok ()) := by
  intro directory d extensions note values
  have hopened : Reached .usual directory d defaultSettings :=
    .opened (d := {}) rfl ⟨fun _ _ => rfl, fun _ _ => rfl⟩
  have hreached : Reached .usual directory d values :=
    (hopened.changed (.text "extensions".toList) extensions).changed (.text "note".toList) note
  have hextensions : extensions.Storable := ⟨⟨_, rfl⟩, ⟨_, rfl⟩, trivial⟩
  have hint : (Json.int (-7)).Storable := (by decide : 1 ≤ digitLimit)
  have hnote : note.Storable :=
    ⟨by simp, ⟨_, rfl⟩, ⟨hint, trivial, trivial, trivial⟩, trivial⟩
  have hstorable : Storable .usual values :=
    (storable_defaults.put "extensions".toList hextensions (by decide)).put
      "note".toList hnote (by decide)
  exact ⟨hreached, hstorable, hreached.restored hstorable⟩

end Settings

end LiveCheck
