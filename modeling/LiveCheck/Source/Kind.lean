import LiveCheck.Path.Basic
import LiveCheck.Settings.Fault
import LiveCheck.Text.LowerCase

/-!
# Kinds of sources

The suffix of a path tells what kind of source it is, and whether checking is enabled for it. Upper
and lower case count as the same.
-/

namespace LiveCheck

/-- A kind of source. -/
inductive SourceKind
  /-- A model. -/
  | model
  /-- A file that models include. -/
  | included
  /-- Any other file. -/
  | unknown
  deriving DecidableEq, Repr

namespace SourceKind

/-- The kind of the source at a path. -/
def ofPath (p : Path) : SourceKind :=
  let suffix := lowerCase p.suffix
  if suffix = ".gms".toList then model
  else if suffix = ".inc".toList then included
  else unknown

/-- The name of a kind. -/
def name : SourceKind → String
  | model => "gams"
  | included => "include"
  | unknown => "unknown"

/-- The title of a view of a source. -/
def label : SourceKind → String
  | included => "GAMS INCLUDE"
  | _ => "GAMS SOURCE"

end SourceKind

/-- The suffixes that are enabled where no setting tells. -/
def standardSuffixes : List Json := [.text ".gms".toList]

/-- Is one of the suffixes that of the path? -/
def isEnabledBy (suffixes : List Json) (p : Path) : Except SettingFault Bool := do
  let enabled ← Json.itemStrings "lower" suffixes
  return ((enabled.filterMap (·.text?)).map lowerCase).contains (lowerCase p.suffix)

/-- Does a setting of suffixes enable the path? -/
def isSupported (setting : Option Json) (p : Path) : Except SettingFault Bool :=
  match setting with
  | none => isEnabledBy standardSuffixes p
  | some .null => isEnabledBy standardSuffixes p
  | some value => value.settingItems >>= fun suffixes => isEnabledBy suffixes p

end LiveCheck
