import LiveCheck.Disk.Basic
import LiveCheck.Json.Reader
import LiveCheck.Json.Writer
import LiveCheck.Machine
import LiveCheck.Settings.Fault

/-!
# Settings

The settings of a user are kept as one JSON object in a directory of their own. Loading them lays
the entries of the file over the defaults; what cannot be read as an object counts as no entry at
all. The faults that are not passed over are those of `LoadFault`: bytes that are no UTF-8, a whole
number that is too long, containers that are nested too deep, and a path that the disk does not
take.
-/

namespace LiveCheck

/-- Settings by name. -/
abbrev SettingTable := Table JsonString Json

/-- The settings that hold where the user made none. -/
def defaultSettings : SettingTable := ⟨[
  (.text "compiler".toList, .text "gams".toList),
  (.text "directives".toList, .list [.text "action=c".toList, .text "lo=0".toList]),
  (.text "listing_ext".toList, .text "lst".toList),
  (.text "extensions".toList, .list [.text ".gms".toList]),
  (.text "debounce_seconds".toList, .float (.ofRatio false 1 2)),
  (.text "log_file".toList, .text "/tmp/gamscheck.log".toList)]⟩

/-- A fault of the settings file that loading does not pass over. -/
inductive LoadFault
  /-- The bytes of the file are no text. -/
  | undecodable (fault : Utf8.Fault)
  /-- The file holds a whole number that is too long. -/
  | overlong (numeral : OverlongNumeral)
  /-- The file holds containers that are nested too deep. -/
  | tooDeep (container : Json.Container)
  /-- The disk does not take the path of the directory. -/
  | disk (fault : DiskFault)
  deriving DecidableEq, Repr

/-- What is said of a fault of the settings file. -/
def LoadFault.message : LoadFault → String
  | undecodable fault => fault.message
  | overlong numeral => numeral.message
  | tooDeep container =>
    "maximum recursion depth exceeded while decoding a JSON " ++
      s!"{container.name} from a unicode string"
  | disk fault => fault.message

/-- What was passed over when settings were loaded. -/
inductive LoadNote
  /-- The directory is not there and cannot be made. -/
  | noDirectory (directory : Path) (fault : DiskFault)
  /-- The file cannot be read as JSON. -/
  | unreadable (file : Path)
  deriving DecidableEq, Repr

/-- What is said of what was passed over. -/
def LoadNote.message : LoadNote → String
  | noDirectory directory fault => s!"Cannot create config directory {directory}: {fault.message}"
  | unreadable file => s!"Ignoring unreadable config {file}"

/-- The outcome of loading settings. -/
structure Loaded where
  /-- The disk, on which the directory may have been made. -/
  disk : Disk
  /-- The settings, or the fault that was not passed over. -/
  settings : Except LoadFault SettingTable
  /-- What was passed over. -/
  note : Option LoadNote := none

/-- Settings that belong to a directory. -/
structure Settings where
  /-- The directory that the settings are kept in. -/
  directory : Path
  /-- The settings. -/
  values : SettingTable

namespace Settings

/-- The file that the settings of a directory are kept in. -/
def fileIn (directory : Path) : Path := directory.child "config.json".toList

/-- The directory that settings are kept in if no other is named. -/
def defaultDirectory (home : Place) : Path := ⟨['/'], home ++ [".gamscheck".toList]⟩

/-- The settings that a value makes when it is laid over the defaults. -/
def overDefaults : Json → SettingTable
  | .object members => defaultSettings.overlay members
  | _ => defaultSettings

/-- The settings in the bytes of a file, or none if they are to be passed over. -/
def ofBytes (m : Machine) (bytes : List UInt8) : Except LoadFault (Option SettingTable) :=
  match Utf8.decode bytes with
  | .error fault => .error (.undecodable fault)
  | .ok text =>
    match Json.read m.nesting (Text.unifyNewlines text) with
    | .error (.overlong numeral) => .error (.overlong numeral)
    | .error (.tooDeep container) => .error (.tooDeep container)
    | .error .malformed => .ok none
    | .ok value => .ok (some (overDefaults value))

/-- The settings of the file at a path, with what was passed over. -/
def ofFile (m : Machine) (d : Disk) (file : Path) :
    Except LoadFault SettingTable × Option LoadNote :=
  match d.pathExists file with
  | .error fault => (.error (.disk fault), none)
  | .ok false => (.ok defaultSettings, none)
  | .ok true =>
    match d.readBytes file with
    | .error _ => (.ok defaultSettings, some (.unreadable file))
    | .ok bytes =>
      match ofBytes m bytes with
      | .error fault => (.error fault, none)
      | .ok none => (.ok defaultSettings, some (.unreadable file))
      | .ok (some values) => (.ok values, none)

/-- Loads the settings of a directory. -/
def load (m : Machine) (d : Disk) (directory : Path) : Loaded :=
  match d.makeDirectories m.levels directory with
  | (d, .error (.system error path)) =>
    ⟨d, .ok defaultSettings, some (.noDirectory directory (.system error path))⟩
  | (d, .error fault) => ⟨d, .error (.disk fault), none⟩
  | (d, .ok ()) =>
    let (settings, note) := ofFile m d (fileIn directory)
    ⟨d, settings, note⟩

/-- The value of a setting, if it has one. -/
def get? (s : Settings) (key : String) : Option Json := s.values.get? (.text key.toList)

/-- The value of a setting, or the default one. -/
def getOrDefault (s : Settings) (key : String) : Json :=
  (s.get? key).getD ((defaultSettings.get? (.text key.toList)).getD .null)

/-- The settings with one changed, in memory only. -/
def assign (s : Settings) (key : Text) (value : Json) : Settings :=
  { s with values := s.values.put (.text key) value }

/-- The text of the settings file. -/
def fileText (s : Settings) : Text := (Json.object s.values.entries).indented

/-- Saves the settings. A fault may leave directories behind that were made for them. -/
def save (m : Machine) (s : Settings) (d : Disk) : Disk × Except DiskFault Unit :=
  match d.makeDirectories m.levels s.directory with
  | (d, .error fault) => (d, .error fault)
  | (d, .ok ()) =>
    match d.writeText (fileIn s.directory) s.fileText with
    | .error fault => (d, .error fault)
    | .ok d => (d, .ok ())

end Settings

end LiveCheck
