import LiveCheck.Text.Quoted

/-!
# Paths

A path is a root and the names that lead on from there. Empty names and single dots carry no meaning
and are left out; double dots stay until the path is resolved. The suffix of a path is the part of
its last name from the last dot on, unless that dot is the first or the last character of the name.
-/

namespace LiveCheck

/-- A path to a file or directory. -/
structure Path where
  /-- Nothing for a relative path, otherwise one slash, or two if there are exactly two in front. -/
  root : Text
  /-- The names, from the root to the last one. -/
  names : List Text
  deriving DecidableEq, Repr

/-- Why a suffix could not be replaced. -/
inductive SuffixFault
  /-- The text cannot be a suffix: it is a lone dot, or holds a slash. -/
  | invalid (suffix : Text)
  /-- The path has no last name. -/
  | nameless (path : Text)
  deriving DecidableEq, Repr

/-- What is said of a suffix that could not be replaced. -/
def SuffixFault.message : SuffixFault → String
  | invalid suffix => s!"Invalid suffix {Text.quoted suffix}"
  | nameless path => s!"PosixPath({Text.quoted path}) has an empty name"

/-- The parts of a text between the occurrences of a separator. -/
def splitOn (separator : Char) : Text → List Text
  | [] => [[]]
  | c :: rest =>
    if c = separator then [] :: splitOn separator rest
    else
      match splitOn separator rest with
      | [] => [[c]]
      | part :: later => (c :: part) :: later

namespace Path

/-- The root that a text begins with. -/
def rootOf (text : Text) : Text :=
  match (text.takeWhile (· = '/')).length with
  | 0 => []
  | 2 => ['/', '/']
  | _ => ['/']

/-- The names of a text that carry meaning. -/
def namesOf (text : Text) : List Text :=
  (splitOn '/' text).filter fun name => name ≠ [] ∧ name ≠ ['.']

/-- Reads a path. -/
def ofText (text : Text) : Path := ⟨rootOf text, namesOf text⟩

/-- The text of a path; the empty path is a dot. -/
def text (p : Path) : Text :=
  if p.root = [] ∧ p.names = [] then ['.'] else p.root ++ Text.join ['/'] p.names

instance : ToString Path := ⟨fun p => String.ofList p.text⟩

/-- The last name of a path, or nothing. -/
def name (p : Path) : Text := p.names.getLastD []

/-- The suffix of a name, with its dot. -/
def suffixOf (name : Text) : Text :=
  let after := (name.reverse.takeWhile (· ≠ '.')).reverse
  if after.isEmpty ∨ name.length ≤ after.length + 1 then [] else '.' :: after

/-- The suffix of the last name. -/
def suffix (p : Path) : Text := suffixOf p.name

/-- The path whose last name has another suffix, or gets one. -/
def withSuffix (p : Path) (suffix : Text) : Except SuffixFault Path :=
  if suffix.contains '/' ∨ suffix = ['.'] then .error (.invalid suffix)
  else if p.name.isEmpty then .error (.nameless p.text)
  else
    let stem := p.name.take (p.name.length - p.suffix.length)
    .ok { p with names := p.names.dropLast ++ [stem ++ suffix] }

/-- The directory of a path. -/
def parent (p : Path) : Path := { p with names := p.names.dropLast }

/-- The path that leads on from a directory. -/
def child (p : Path) (name : Text) : Path := { p with names := p.names ++ [name] }

/-- Follows names from a directory, a double dot leading back by one name. -/
def follow (start : List Text) (names : List Text) : List Text :=
  names.foldl (fun at_ name => if name = ['.', '.'] then at_.dropLast else at_ ++ [name]) start

/-- The names of a path from the root, if relative paths start at `here`. -/
def fullNames (here : List Text) (p : Path) : List Text :=
  if p.root = [] then here ++ p.names else p.names

/-- The absolute path without double dots that a path means. -/
def resolve (here : List Text) (p : Path) : Path := ⟨['/'], follow [] (p.fullNames here)⟩

end Path

end LiveCheck
