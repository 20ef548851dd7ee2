import LiveCheck.Settings.Basic

/-!
# The compiler command

The compiler is known by a name, and by the program that the name was found to mean. A name with a
slash is a path; any other name is looked for in the directories of the search path. A name that
means no program is kept, and the missing program shows when a check tries to start it.

The compiler runs in the directory of the source and writes its listing beside it, under the name of
the source with another suffix.
-/

namespace LiveCheck

/-- The compiler in use. -/
structure Compiler where
  /-- The name that was chosen. -/
  name : JsonString
  /-- The program that the name means, if there is one. -/
  program : Option Text
  deriving DecidableEq, Repr

/-- The directories of a search path, in order: they are separated by colons. -/
def searchDirectories (directories : List Text) : List Text :=
  let whole := Text.join [':'] directories
  if whole.isEmpty then [] else splitOn ':' whole

/-- A name below a directory of the search path. -/
def joinPath (directory name : Text) : Text :=
  if directory.isEmpty || directory.getLast? = some '/' then directory ++ name
  else directory ++ '/' :: name

/-- Is there a program under a path as it was written? A path that ends in a slash or in a lone dot
    asks for a directory. -/
def isProgramPath (d : Disk) (path : Text) : Bool :=
  let last := (splitOn '/' path).getLastD []
  last ≠ [] && last ≠ ['.'] && d.isProgram (Path.ofText path)

/-- The program that a name means. -/
def findProgram (d : Disk) (directories : List Text) (name : Text) : Option Text :=
  if name.contains '/' then if isProgramPath d name then some name else none
  else ((searchDirectories directories).map (joinPath · name)).find? (isProgramPath d)

namespace Compiler

/-- The compiler that a setting names. -/
def choose (d : Disk) (directories : List Text) (setting : Json) : Except SettingFault Compiler :=
  match setting with
  | .string name => .ok ⟨name, name.text?.bind (findProgram d directories)⟩
  | value => .error (.notACommand value.kindName)

/-- The compilers that are looked for when all are wanted. -/
def candidates : List Text := ["gams".toList, "gamske".toList]

/-- The candidates that mean a program. -/
def discover (d : Disk) (directories : List Text) : List Text :=
  candidates.filter fun name => (findProgram d directories name).isSome

/-- What the compiler is called by. -/
def called (c : Compiler) : JsonString := (c.program.map .text).getD c.name

end Compiler

/-- Why the name of the listing could not be formed. -/
inductive ListingNameFault
  /-- The setting of its suffix is of the wrong kind. -/
  | setting (fault : SettingFault)
  /-- The suffix of the source cannot be replaced by it. -/
  | suffix (fault : SuffixFault)
  /-- Nor by a string that is no text. -/
  | brokenSuffix (suffix : JsonString)
  deriving DecidableEq, Repr

/-- What is said of a listing without a name. -/
def ListingNameFault.message : ListingNameFault → String
  | setting fault => fault.message
  | suffix fault => fault.message
  | brokenSuffix s => s!"Invalid suffix {s.quoted}"

namespace Settings

/-- The words that follow the source in the compiler command. -/
def directives (s : Settings) : Except SettingFault (List Json) :=
  (s.getOrDefault "directives").settingItems

/-- The path of the listing that the compiler leaves for a source. With a suffix that is no text it
    is a path that no file can have: a null character stands for every half. -/
def listingPath (s : Settings) (source : Path) : Except ListingNameFault Path :=
  match s.getOrDefault "listing_ext" with
  | .text ext =>
    match source.withSuffix ('.' :: ext.dropWhile (· = '.')) with
    | .ok p => .ok p
    | .error fault => .error (.suffix fault)
  | .string (.broken letters) =>
    let suffix : JsonString := .broken (.char '.' :: letters.dropWhile (· = .char '.'))
    match source.withSuffix (suffix.textWith '\x00') with
    | .ok p => .ok p
    | .error (.invalid _) => .error (.brokenSuffix suffix)
    | .error fault => .error (.suffix fault)
  | value => .error (.setting (.withoutOperation value.kindName "lstrip"))

/-- The words of the compiler command for a source. -/
def command (s : Settings) (c : Compiler) (source : Path) : Except SettingFault (List Json) := do
  let directives ← s.directives
  return .string c.called :: .text source.name :: directives

end Settings

end LiveCheck
