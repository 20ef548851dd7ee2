import LiveCheck.Proofs.Json.Faults
import LiveCheck.Proofs.Settings.Persistence

/-!
# What is loaded from a file of any kind

Whatever the disk is like, loading gives the defaults with the entries of the file laid over them,
if the file holds a JSON object, and the defaults themselves otherwise, unless something *hinders*
it (`Settings.Hindered`): a null character in the path of the directory, more missing directories
than the machine has levels for, a file that is *hidden* (`Settings.Hidden`), or bytes that are
*unfit* (`Settings.Unfit`). A file is hidden if its path is too long, or if the system denies the
way to it or the look at it. Unfit are the bytes of no text, and texts with a number that is too
long or with containers nested too deep; no other text hinders loading, of whatever form it is
(`Json.Modest`).

The proof goes from the inside to the outside: the bytes of a file (`ofBytes_cases`), the file in a
directory (`ofFile_cases`), the directory (`load_settings`).
-/

namespace LiveCheck

namespace Settings

variable {m : Machine} {d after : Disk} {directory : Path} {bytes : List UInt8} {text : Text}
  {value : Json} {values : SettingTable} {fault : DiskFault}

/-! ## The bytes of a file -/

/-- The bytes are those of a text that holds a JSON value. -/
def Encodes (m : Machine) (bytes : List UInt8) (value : Json) : Prop :=
  ∃ text, bytes = Utf8.encode text ∧ Json.read m.nesting (Text.unifyNewlines text) = .ok value

/-- Bytes of a file that loading is not prepared for. -/
inductive Unfit (m : Machine) (bytes : List UInt8) : Prop
  /-- They are the bytes of no text. -/
  | noText (h : ∀ text, bytes ≠ Utf8.encode text)
  /-- They hold a whole number that is too long. -/
  | overlong {text : Text} {numeral : OverlongNumeral} (h : bytes = Utf8.encode text)
    (hread : Json.read m.nesting (Text.unifyNewlines text) = .error (.overlong numeral))
  /-- They hold containers that are nested too deep. -/
  | tooDeep {text : Text} {container : Json.Container} (h : bytes = Utf8.encode text)
    (hread : Json.read m.nesting (Text.unifyNewlines text) = .error (.tooDeep container))

/-- Bytes encode a value if their text is read as it. -/
theorem encodes_iff : Encodes m (Utf8.encode text) value ↔
    Json.read m.nesting (Text.unifyNewlines text) = .ok value :=
  ⟨fun ⟨_, htext, hread⟩ => Utf8.encode_injective htext ▸ hread, fun hread => ⟨text, rfl, hread⟩⟩

/-- Bytes are unfit if reading their text fails for another reason than its form. -/
theorem unfit_iff : Unfit m (Utf8.encode text) ↔
    ∃ fault, Json.read m.nesting (Text.unifyNewlines text) = .error fault ∧ fault ≠ .malformed := by
  constructor
  · rintro (h | ⟨h, hread⟩ | ⟨h, hread⟩)
    · exact absurd rfl (h text)
    · rw [← Utf8.encode_injective h] at hread
      exact ⟨_, hread, by simp⟩
    · rw [← Utf8.encode_injective h] at hread
      exact ⟨_, hread, by simp⟩
  · rintro ⟨fault, hread, hfault⟩
    cases fault with
    | malformed => exact absurd rfl hfault
    | overlong numeral => exact .overlong rfl hread
    | tooDeep container => exact .tooDeep rfl hread

/-- What comes of the bytes of a file: a value is laid over the defaults, unfit bytes are a fault,
    and all others are passed over. -/
theorem ofBytes_cases (m : Machine) (bytes : List UInt8) :
    (¬Unfit m bytes ∧ ∃ value, Encodes m bytes value ∧
      ofBytes m bytes = .ok (some (overDefaults value))) ∨
    (¬Unfit m bytes ∧ (∀ value, ¬Encodes m bytes value) ∧ ofBytes m bytes = .ok none) ∨
    (Unfit m bytes ∧ ∃ fault, ofBytes m bytes = .error fault) := by
  rw [ofBytes]
  cases hdecode : Utf8.decode bytes with
  | error fault =>
    refine .inr (.inr ⟨.noText fun text htext => ?_, _, rfl⟩)
    rw [htext, Utf8.decode_encode] at hdecode
    cases hdecode
  | ok text =>
    obtain rfl := Utf8.decode_eq_ok_iff.1 hdecode
    simp only [unfit_iff, encodes_iff]
    cases hread : Json.read m.nesting (Text.unifyNewlines text) with
    | ok value => exact .inl ⟨by simp, value, rfl, rfl⟩
    | error fault =>
      cases fault with
      | malformed => exact .inr (.inl ⟨by simp, by simp, rfl⟩)
      | overlong numeral => exact .inr (.inr ⟨by simp, _, rfl⟩)
      | tooDeep container => exact .inr (.inr ⟨by simp, _, rfl⟩)

/-- A modest text is fit, of whatever form it is. -/
theorem not_unfit_of_modest (h : Json.Modest m.nesting (Text.unifyNewlines text)) :
    ¬Unfit m (Utf8.encode text) := by
  rw [unfit_iff]
  rintro ⟨fault, hread, hfault⟩
  exact hfault (Json.read_of_modest h hread)

/-! ## The file in a directory -/

/-- Whether the file is there cannot be told. -/
inductive Hidden (d : Disk) (directory : Path) : Prop
  /-- The path of the file is longer than a path may be. -/
  | overlong (h : Disk.pathLimit < (Utf8.encode (fileIn directory).text).length)
  /-- The system denies the way to the file. -/
  | barred {denial : Denial} (h : d.walk (fileIn directory) = .error (.denied denial))
  /-- Something is in the place of the file, and the system denies the look at it. -/
  | unseen {place : Place} {node : Node} {denial : Denial}
    (hwalk : d.walk (fileIn directory) = .ok place) (hnode : d.node? place = some node)
    (h : d.denials .look place = some denial)

/-- A hidden file is no settings, and no defaults either. -/
theorem ofFile_of_hidden (hdirectory : d.HasDirectory directory) (h : Hidden d directory) :
    ∃ fault, (ofFile m d (fileIn directory)).1 = .error fault := by
  have hnull := null_not_mem_fileIn hdirectory
  suffices hexists : ∃ fault, d.pathExists (fileIn directory) = .error fault by
    obtain ⟨fault, hfault⟩ := hexists
    exact ⟨.disk fault, by rw [ofFile, hfault]⟩
  simp only [Disk.pathExists, Disk.asks_eq_error]
  -- The length of the path is looked at before anything else.
  by_cases hlong : Disk.pathLimit < (Utf8.encode (fileIn directory).text).length
  · refine ⟨.system .nameTooLong (fileIn directory).text, ?_, rfl⟩
    rw [Disk.lookup, Disk.atPath, if_neg (by simpa using hnull), if_pos hlong]
    rfl
  have hacceptable : Disk.Acceptable (fileIn directory) := ⟨hnull, Nat.le_of_not_lt hlong⟩
  cases h with
  | overlong h => exact absurd h hlong
  | @barred denial h =>
    refine ⟨.system (.denied denial) (fileIn directory).text, ?_, ?_⟩
    · rw [Disk.lookup, Disk.atPath, if_neg (by simpa using hnull), if_neg hlong, h]
      rfl
    · exact SystemError.meansAbsent_denied denial
  | @unseen place node denial hwalk hnode h =>
    refine ⟨.system (.denied denial) (fileIn directory).text, ?_, ?_⟩
    · have hgrant : d.grant .look place = .error (.denied denial) :=
        Disk.grant_eq_error.2 ⟨denial, h, rfl⟩
      rw [Disk.lookup, Disk.atPath_of_walk hacceptable hwalk, hnode]
      dsimp only
      rw [hgrant]
      rfl
    · exact SystemError.meansAbsent_denied denial

/-- What comes of a file that is not hidden: it is read, or there is nothing to be read. -/
theorem ofFile_cases (m : Machine) (hdirectory : d.HasDirectory directory)
    (h : ¬Hidden d directory) :
    ((∀ bytes, d.readBytes (fileIn directory) ≠ .ok bytes) ∧
      (ofFile m d (fileIn directory)).1 = .ok defaultSettings) ∨
    (∃ bytes, d.readBytes (fileIn directory) = .ok bytes ∧
      (ofFile m d (fileIn directory)).1 = (ofBytes m bytes).map (·.getD defaultSettings)) := by
  have hacceptable : Disk.Acceptable (fileIn directory) :=
    ⟨null_not_mem_fileIn hdirectory, Nat.le_of_not_lt fun hlong => h (.overlong hlong)⟩
  obtain ⟨denial, hdenied⟩ | ⟨place, hwalk⟩ := walk_fileIn hdirectory
  · exact absurd (.barred hdenied) h
  rw [ofFile]
  cases hnode : d.node? place with
  -- There is no file, and nothing can be read that is not there.
  | none =>
    have hlookup :
        d.lookup (fileIn directory) = .error (.system .notFound (fileIn directory).text) := by
      rw [Disk.lookup, Disk.atPath_of_walk hacceptable hwalk, hnode]
      rfl
    have hexists : d.pathExists (fileIn directory) = .ok false :=
      Disk.asks_eq_ok.2 (.inr ⟨_, hlookup, rfl, rfl⟩)
    refine .inl ⟨fun bytes hread => ?_, by rw [hexists]⟩
    obtain ⟨-, q, hq, -, executable, hfile⟩ := Disk.readBytes_eq_ok.1 hread
    obtain rfl := Except.ok.inj (hwalk.symm.trans hq)
    rw [hnode] at hfile
    cases hfile
  | some node =>
    -- The file is not hidden, so that it exists is seen; it may still refuse to be read.
    have hlook : d.denials .look place = none :=
      Option.eq_none_iff_forall_ne_some.2 fun denial hdenial => h (.unseen hwalk hnode hdenial)
    have hexists : d.pathExists (fileIn directory) = .ok true :=
      Disk.asks_eq_ok.2
        (.inl ⟨node, Disk.lookup_eq_ok.2 ⟨hacceptable, place, hwalk, hlook, hnode⟩, rfl⟩)
    rw [hexists]
    cases hread : d.readBytes (fileIn directory) with
    | error fault => exact .inl ⟨by simp, rfl⟩
    | ok bytes =>
      refine .inr ⟨bytes, rfl, ?_⟩
      dsimp only
      cases ofBytes m bytes with
      | error fault => rfl
      | ok found => cases found <;> rfl

/-! ## The directory -/

/-- The directory is there, or was made with those above it; and what the disk is then. -/
def Opens (m : Machine) (d : Disk) (directory : Path) (after : Disk) : Prop :=
  d.makeDirectories m.levels directory = (after, .ok ())

/-- Something that loading is not prepared for: in the path of the directory, on the way to the
    file, or in the file. -/
inductive Hindered (m : Machine) (d : Disk) (directory : Path) : Prop
  /-- The path of the directory holds a null character. -/
  | null (h : '\x00' ∈ directory.text)
  /-- The path that lies all the levels of the machine above the directory still leads through a
      directory that is missing. -/
  | tooDeep (h : Disk.Acceptable directory) (hlevels : m.levels < directory.names.length)
    (hmissing : d.walk (Path.parent^[m.levels] directory) = .error .notFound)
  /-- The directory is there, and the file is hidden. -/
  | hidden {after : Disk} (h : Opens m d directory after) (hfile : Hidden after directory)
  /-- The directory is there, the file can be read, and its bytes are unfit. -/
  | unfit {after : Disk} {bytes : List UInt8} (h : Opens m d directory after)
    (hread : after.readBytes (fileIn directory) = .ok bytes) (hbytes : Unfit m bytes)

/-- The directory is there, and its file holds a JSON value. -/
def Holds (m : Machine) (d : Disk) (directory : Path) (value : Json) : Prop :=
  ∃ after bytes, Opens m d directory after ∧ after.readBytes (fileIn directory) = .ok bytes ∧
    Encodes m bytes value

theorem Opens.unique {other : Disk} (h : Opens m d directory after)
    (h' : Opens m d directory other) : other = after :=
  (Prod.mk.inj (h'.symm.trans h)).1

/-- Where the directory is there, only the file can hinder loading. -/
theorem Opens.hindered_iff (h : Opens m d directory after) : Hindered m d directory ↔
    Hidden after directory ∨
      ∃ bytes, after.readBytes (fileIn directory) = .ok bytes ∧ Unfit m bytes := by
  constructor
  · rintro (hnull | ⟨hacceptable, hlevels, hmissing⟩ | ⟨h', hfile⟩ | ⟨h', hread, hbytes⟩)
    · cases (Disk.making_of_makeDirectories h).nullCharacter_iff.2 hnull
    · have hdeep := Disk.makeDirectories_eq_tooDeep_iff.2 ⟨hacceptable, hlevels, hmissing⟩
      rw [h] at hdeep
      cases hdeep
    · exact .inl (h.unique h' ▸ hfile)
    · exact .inr ⟨_, h.unique h' ▸ hread, hbytes⟩
  · rintro (hfile | ⟨bytes, hread, hbytes⟩)
    · exact .hidden h hfile
    · exact .unfit h hread hbytes

/-- A directory that opens holds a value if its file encodes it. -/
theorem Opens.holds_iff (h : Opens m d directory after) : Holds m d directory value ↔
    ∃ bytes, after.readBytes (fileIn directory) = .ok bytes ∧ Encodes m bytes value := by
  constructor
  · rintro ⟨other, bytes, h', hread, hvalue⟩
    exact ⟨bytes, h.unique h' ▸ hread, hvalue⟩
  · rintro ⟨bytes, hread, hvalue⟩
    exact ⟨after, bytes, h, hread, hvalue⟩

/-- Where the directory cannot be made, its file does not count, and what hinders loading is the
    fault. -/
theorem of_not_opens (h : d.makeDirectories m.levels directory = (after, .error fault)) :
    (Hindered m d directory ↔ fault = .nullCharacter ∨ fault = .tooDeep) ∧
      ∀ value, ¬Holds m d directory value := by
  -- The directory was not made, so nothing is read.
  have hclosed : ∀ other, ¬Opens m d directory other := fun other h' => by
    cases h.symm.trans h'
  have hnull := (Disk.making_of_makeDirectories h).nullCharacter_iff
  have hdeep : (d.makeDirectories m.levels directory).2 = .error .tooDeep ↔ _ :=
    Disk.makeDirectories_eq_tooDeep_iff
  rw [h, Except.error.injEq] at hdeep
  rw [Except.error.injEq] at hnull
  refine ⟨?_, fun value ⟨other, _, h', _⟩ => hclosed other h'⟩
  rw [hnull, hdeep]
  constructor
  · rintro (hnull | ⟨hacceptable, hlevels, hmissing⟩ | ⟨h', -⟩ | ⟨h', -, -⟩)
    · exact .inl hnull
    · exact .inr ⟨hacceptable, hlevels, hmissing⟩
    · exact absurd h' (hclosed _)
    · exact absurd h' (hclosed _)
  · rintro (hnull | ⟨hacceptable, hlevels, hmissing⟩)
    · exact .null hnull
    · exact .tooDeep hacceptable hlevels hmissing

/-- Loading adds directories to the disk at most. -/
theorem grows_load (m : Machine) (d : Disk) (directory : Path) :
    d.Grows (load m d directory).disk := by
  rw [load]
  cases hmake : d.makeDirectories m.levels directory with
  | mk made result =>
    have hgrows := (Disk.making_of_makeDirectories hmake).grows
    cases result with
    | ok done => exact hgrows
    | error fault => cases fault <;> exact hgrows

/-! ## Loading -/

/-- Either loading is hindered, or it gives what the file holds, laid over the defaults. -/
theorem load_settings (m : Machine) (d : Disk) (directory : Path) :
    (Hindered m d directory ∧ ∃ fault, (load m d directory).settings = .error fault) ∨
    (¬Hindered m d directory ∧
      ((∃ value, Holds m d directory value ∧
          (load m d directory).settings = .ok (overDefaults value)) ∨
        ((∀ value, ¬Holds m d directory value) ∧
          (load m d directory).settings = .ok defaultSettings))) := by
  rw [load]
  cases hmake : d.makeDirectories m.levels directory with
  | mk after result =>
    -- A directory that cannot be made leaves the defaults, but for the two faults that are no
    -- refusal.
    cases result with
    | error fault =>
      obtain ⟨hhindered, hnone⟩ := of_not_opens hmake
      rw [hhindered]
      cases fault with
      | system error path => exact .inr ⟨by simp, .inr ⟨hnone, rfl⟩⟩
      | nullCharacter => exact .inl ⟨.inl rfl, _, rfl⟩
      | tooDeep => exact .inl ⟨.inr rfl, _, rfl⟩
    | ok done =>
      have hopens : Opens m d directory after := hmake
      have hdirectory := (Disk.making_of_makeDirectories hmake).hasDirectory
      simp only [hopens.hindered_iff, hopens.holds_iff]
      by_cases hhidden : Hidden after directory
      · exact .inl ⟨.inl hhidden, ofFile_of_hidden hdirectory hhidden⟩
      rcases ofFile_cases m hdirectory hhidden with ⟨hunread, hdefaults⟩ | ⟨bytes, hread, hbytes⟩
      · exact .inr ⟨by simp [hhidden, hunread], .inr ⟨by simp [hunread], hdefaults⟩⟩
      · simp only [hread, Except.ok.injEq, exists_eq_left', hhidden, false_or, hbytes]
        rcases ofBytes_cases m bytes with
          ⟨hfit, value, hvalue, h⟩ | ⟨hfit, hnone, h⟩ | ⟨hunfit, fault, h⟩
        · exact .inr ⟨hfit, .inl ⟨value, hvalue, by rw [h]; rfl⟩⟩
        · exact .inr ⟨hfit, .inr ⟨hnone, by rw [h]; rfl⟩⟩
        · exact .inl ⟨hunfit, fault, by rw [h]; rfl⟩

/-- What is loaded is what the file holds, laid over the defaults, or the defaults. -/
theorem settings_eq_ok (h : (load m d directory).settings = .ok values) :
    (∃ value, Holds m d directory value ∧ values = overDefaults value) ∨
      ((∀ value, ¬Holds m d directory value) ∧ values = defaultSettings) := by
  rcases load_settings m d directory with
    ⟨-, fault, hfault⟩ | ⟨-, ⟨value, hvalue, hok⟩ | ⟨hnone, hok⟩⟩
  · rw [hfault] at h
    cases h
  · exact .inl ⟨value, hvalue, Except.ok.inj (h.symm.trans hok)⟩
  · exact .inr ⟨hnone, Except.ok.inj (h.symm.trans hok)⟩

/-- A directory holds one value. -/
theorem Holds.unique {other : Json} (h : Holds m d directory value)
    (h' : Holds m d directory other) : value = other := by
  obtain ⟨after, bytes, hopens, hread, text, rfl, hvalue⟩ := h
  obtain ⟨bytes', hread', hother⟩ := hopens.holds_iff.1 h'
  obtain rfl := Except.ok.inj (hread.symm.trans hread')
  exact Except.ok.inj (hvalue.symm.trans (encodes_iff.1 hother))

/-- **Loading falls back to the defaults.** On every machine and every disk, and for every
    directory, loading fails if and only if something hinders it: a null character in the path of
    the directory; more missing directories above it than the machine has levels for; or, where the
    directory is there, a file that is hidden, or one whose bytes are those of no text, or of one
    with a whole number that is too long or with containers nested too deep. Whenever it does not
    fail, all keys of the defaults are there: if the directory is there and the file holds a JSON
    object, the entries of the object are laid over the defaults, and a key has the value of its
    last entry, or else the default one; in all other cases the defaults are given. A text is fit if
    it has no run of digits and no number of opening brackets above the limits. Of the disk, only
    directories are new that were missing. -/
theorem load_falls_back (m : Machine) (d : Disk) (directory : Path) :
    ((∃ fault, (load m d directory).settings = .error fault) ↔ Hindered m d directory) ∧
    (∀ values, (load m d directory).settings = .ok values →
      (∀ key ∈ defaultSettings.keys, key ∈ values.keys) ∧
      (∀ members, Holds m d directory (.object members) →
        values = defaultSettings.overlay members ∧
        ∀ key, values.get? key =
          (Table.get? ⟨members.reverse⟩ key).or (defaultSettings.get? key)) ∧
      ((∀ members, ¬Holds m d directory (.object members)) → values = defaultSettings)) ∧
    (∀ text, Json.Modest m.nesting (Text.unifyNewlines text) → ¬Unfit m (Utf8.encode text)) ∧
    d.Grows (load m d directory).disk := by
  refine ⟨?_, fun values hvalues => ⟨fun key hkey => ?_, fun members hholds => ?_,
    fun hnone => ?_⟩, fun text => not_unfit_of_modest, grows_load m d directory⟩
  · rcases load_settings m d directory with ⟨h, hfault⟩ | ⟨h, ⟨_, -, hok⟩ | ⟨-, hok⟩⟩
    · simp [h, hfault]
    · simp [h, hok]
    · simp [h, hok]
  · have hload : load m d directory =
        ⟨(load m d directory).disk, .ok values, (load m d directory).note⟩ := by rw [← hvalues]
    exact (ordered_of_load hload).defaults.subset hkey
  · -- The file holds one value at most.
    obtain rfl : values = overDefaults (.object members) := by
      rcases settings_eq_ok hvalues with ⟨value, hvalue, rfl⟩ | ⟨hnone, -⟩
      · rw [hvalue.unique hholds]
      · exact absurd hholds (hnone _)
    exact ⟨rfl, Table.get?_overlay defaultSettings members⟩
  · rcases settings_eq_ok hvalues with ⟨value, hvalue, rfl⟩ | ⟨-, rfl⟩
    · cases value with
      | object members => exact absurd hvalue (hnone members)
      | _ => rfl
    · rfl

/-- A settings file with one byte that begins no character is not passed over. -/
theorem not_load_falls_back_of_byte :
    let directory : Path := ⟨['/'], ["w".toList, ".gamscheck".toList]⟩
    let d : Disk := {
      here := ["w".toList]
      nodes := ⟨[(["w".toList], .directory), (["w".toList, ".gamscheck".toList], .directory),
        (["w".toList, ".gamscheck".toList, "config.json".toList], .file [0xFF] false)]⟩ }
    d.readBytes (fileIn directory) = .ok [0xFF] ∧
      load .usual d directory = ⟨d, .error (.undecodable ⟨0, [0xFF], .invalidStart⟩), none⟩ ∧
        ¬∃ values, (load .usual d directory).settings = .ok values := by
  intro directory d
  have hload : load .usual d directory =
      ⟨d, .error (.undecodable ⟨0, [0xFF], .invalidStart⟩), none⟩ := rfl
  refine ⟨rfl, hload, ?_⟩
  simp [hload]

end Settings

end LiveCheck
