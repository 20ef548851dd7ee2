import LiveCheck.Path.Basic
import LiveCheck.Table
import LiveCheck.Text.Line
import LiveCheck.Text.Utf8

/-!
# Disks

A disk is a tree of directories and files. A place in the tree is the list of names that leads to
it from the root; the disk holds what is at each place, and every operation first walks the path it
is given. The walk fails at the first name that cannot be passed, so the kind of a failure tells how
far it came.

Beside the tree there is what the system refuses: it may deny any access to any place, for reasons
that are not on the disk.
-/

namespace LiveCheck

/-- What is at a place. -/
inductive Node
  /-- A directory. -/
  | directory
  /-- A file with its bytes, which may be marked as a program. -/
  | file (bytes : List UInt8) (executable : Bool)
  deriving DecidableEq, Repr

/-- The names that lead to a place from the root. -/
abbrev Place := List Text

/-- What is done at a place. -/
inductive Access
  /-- A walk goes on from the directory there. -/
  | pass
  /-- It is asked what is there. -/
  | look
  /-- The file there is read. -/
  | read
  /-- The file there is written. -/
  | write
  /-- A directory is made there. -/
  | make
  /-- The file there is removed. -/
  | remove
  deriving DecidableEq, Repr

/-- The numbers of the errors that tell what is on the disk: no such file, a bad descriptor, a file
    that exists, no directory, a directory, a name that is too long, and too many links. -/
def treeErrors : List Nat := [2, 9, 17, 20, 21, 36, 40]

/-- An error that does not tell what is on the disk: a permission is missing, or a device fails. -/
structure Denial where
  /-- The number of the error. -/
  number : Nat
  /-- The words for it. -/
  words : String
  /-- It is none of the errors that tell what is on the disk. -/
  foreign : number ∉ treeErrors
  deriving DecidableEq, Repr

/-- A permission is missing. -/
def Denial.noPermission : Denial := ⟨13, "Permission denied", by decide⟩

/-- What the system says of a failed operation. -/
inductive SystemError
  | notFound
  | exists
  | notDirectory
  | isDirectory
  | nameTooLong
  /-- Any other error. -/
  | denied (denial : Denial)
  deriving DecidableEq, Repr

namespace SystemError

/-- The number of a system error. -/
def number : SystemError → Nat
  | notFound => 2
  | «exists» => 17
  | notDirectory => 20
  | isDirectory => 21
  | nameTooLong => 36
  | denied denial => denial.number

/-- The words for a system error. -/
def words : SystemError → String
  | notFound => "No such file or directory"
  | «exists» => "File exists"
  | notDirectory => "Not a directory"
  | isDirectory => "Is a directory"
  | nameTooLong => "File name too long"
  | denied denial => denial.words

/-- The numbers of the errors that are taken to say that there is nothing: no such file, a bad
    descriptor, no directory, and too many links. -/
def absences : List Nat := [2, 9, 20, 40]

/-- Is the error taken to say that there is nothing? -/
def meansAbsent (e : SystemError) : Bool := absences.contains e.number

end SystemError

/-- Why an operation on the disk failed. -/
inductive DiskFault
  /-- The system refused it for the path. -/
  | system (error : SystemError) (path : Text)
  /-- The path holds a null character. -/
  | nullCharacter
  /-- More directories are missing than calls can be nested. -/
  | tooDeep
  deriving DecidableEq, Repr

namespace DiskFault

/-- What is said of a failed operation. -/
def message : DiskFault → String
  | system error path => s!"[Errno {error.number}] {error.words}: {Text.quoted path}"
  | nullCharacter => "embedded null byte"
  | tooDeep => "maximum recursion depth exceeded while calling a Python object"

/-- Is a failed look taken to say that there is nothing? -/
def meansAbsent : DiskFault → Bool
  | system error _ => error.meansAbsent
  | nullCharacter => true
  | tooDeep => false

end DiskFault

/-- What the system denies at each place. -/
abbrev Denials := Access → Place → Option Denial

/-- Nothing is denied. -/
def Denials.none : Denials := fun _ _ => Option.none

/-- A tree of directories and files. -/
structure Disk where
  /-- The place that relative paths start from. -/
  here : Place := []
  /-- What is at each place but the root, which is a directory. -/
  nodes : Table Place Node := ∅
  /-- What the system denies, although the tree would allow it. -/
  denials : Denials := .none

namespace Disk

/-- What is at a place. -/
def node? (d : Disk) (place : Place) : Option Node :=
  if place = [] then some .directory else d.nodes.get? place

/-- Asks the system for an access to a place. -/
def grant (d : Disk) (access : Access) (place : Place) : Except SystemError Unit :=
  match d.denials access place with
  | some denial => .error (.denied denial)
  | none => .ok ()

/-- Puts a node at a place. -/
def setNode (d : Disk) (place : Place) (node : Node) : Disk :=
  { d with nodes := d.nodes.put place node }

/-- Takes away what is at a place. -/
def removeNode (d : Disk) (place : Place) : Disk := { d with nodes := d.nodes.erase place }

/-- The most bytes that a name may have. -/
def nameLimit : Nat := 255

/-- Follows names from a place, as far as directories lead. -/
def walkFrom (d : Disk) (place : Place) : List Text → Except SystemError Place
  | [] => .ok place
  | name :: rest =>
    match d.node? place with
    | none => .error .notFound
    | some (.file _ _) => .error .notDirectory
    | some .directory => do
      d.grant .pass place
      if name = ['.', '.'] then walkFrom d place.dropLast rest
      else if nameLimit < (Utf8.encode name).length then .error .nameTooLong
      else walkFrom d (place ++ [name]) rest

/-- The place of a path: all directories on the way exist, the place itself may be empty. -/
def walk (d : Disk) (p : Path) : Except SystemError Place := d.walkFrom [] (p.fullNames d.here)

/-- Attaches the path to the system's answer. -/
def located {α : Type} (p : Path) : Except SystemError α → Except DiskFault α
  | .ok a => .ok a
  | .error e => .error (.system e p.text)

/-- The most bytes that a path may have. -/
def pathLimit : Nat := 4095

/-- Carries out `f` at the place of a path. -/
def atPath {α : Type} (d : Disk) (p : Path) (f : Place → Except SystemError α) :
    Except DiskFault α :=
  if p.text.contains '\x00' then .error .nullCharacter
  else if pathLimit < (Utf8.encode p.text).length then located p (.error .nameTooLong)
  else located p (d.walk p >>= f)

/-- The resolved path that a text stands for. -/
def resolved (d : Disk) (path : Text) : Except DiskFault Path :=
  if path.contains '\x00' then .error .nullCharacter else .ok ((Path.ofText path).resolve d.here)

/-- What is at a path; the fault tells why a path leads nowhere. -/
def lookup (d : Disk) (p : Path) : Except DiskFault Node :=
  d.atPath p fun place =>
    match d.node? place with
    | none => .error .notFound
    | some node => (d.grant .look place).map fun _ => node

/-- Asks something about what is at a path. The answer is no where the path leads nowhere; a look
    that fails for any other reason is a failure. -/
def asks (d : Disk) (p : Path) (question : Node → Bool) : Except DiskFault Bool :=
  match d.lookup p with
  | .ok node => .ok (question node)
  | .error fault => if fault.meansAbsent then .ok false else .error fault

/-- Is there anything at a path? -/
def pathExists (d : Disk) (p : Path) : Except DiskFault Bool := d.asks p fun _ => true

/-- Is there a directory at a path? -/
def isDirectory (d : Disk) (p : Path) : Bool :=
  match d.lookup p with
  | .ok .directory => true
  | _ => false

/-- Is there a program at a path? -/
def isProgram (d : Disk) (p : Path) : Bool :=
  match d.lookup p with
  | .ok (.file _ executable) => executable
  | _ => false

/-- The bytes of the file at a path. -/
def readBytes (d : Disk) (p : Path) : Except DiskFault (List UInt8) :=
  d.atPath p fun place =>
    match d.node? place with
    | none => .error .notFound
    | some node => do
      d.grant .read place
      match node with
      | .directory => .error .isDirectory
      | .file bytes _ => .ok bytes

/-- The text of the file at a path, read leniently and with unified line ends. -/
def readText (d : Disk) (p : Path) : Except DiskFault Text :=
  (d.readBytes p).map fun bytes => Text.unifyNewlines (Utf8.decodeLenient bytes)

/-- Writes the file at a path. A file that was there stays a program if it was one. -/
def writeBytes (d : Disk) (p : Path) (bytes : List UInt8) : Except DiskFault Disk :=
  d.atPath p fun place =>
    let write (executable : Bool) : Except SystemError Disk :=
      (d.grant .write place).map fun _ => d.setNode place (.file bytes executable)
    match d.node? place with
    | none => write false
    | some .directory => .error .isDirectory
    | some (.file _ executable) => write executable

/-- Writes a text to the file at a path. -/
def writeText (d : Disk) (p : Path) (text : Text) : Except DiskFault Disk :=
  d.writeBytes p (Utf8.encode text)

/-- Removes the file at a path. -/
def removeFile (d : Disk) (p : Path) : Except DiskFault Disk :=
  d.atPath p fun place =>
    match d.node? place with
    | none => .error .notFound
    | some node => do
      d.grant .remove place
      match node with
      | .directory => .error .isDirectory
      | .file _ _ => .ok (d.removeNode place)

/-- Makes one directory. -/
def makeDirectory (d : Disk) (p : Path) : Except DiskFault Disk :=
  d.atPath p fun place =>
    match d.node? place with
    | some _ => .error .exists
    | none => (d.grant .make place).map fun _ => d.setNode place .directory

/-- Makes one directory, unless it is there already. -/
def makeIfMissing (d : Disk) (p : Path) : Disk × Except DiskFault Unit :=
  match d.makeDirectory p with
  | .ok made => (made, .ok ())
  | .error fault =>
    match d.asks p (· = .directory) with
    | .ok true => (d, .ok ())
    | .ok false => (d, .error fault)
    | .error fault => (d, .error fault)

/-- Is a directory missing above the path? -/
def lacksAbove (d : Disk) (p : Path) : Bool :=
  !p.names.isEmpty &&
    match d.makeDirectory p with
    | .error (.system .notFound _) => true
    | _ => false

/-- Makes a directory and those above it that are missing; a directory that is there already is
    left as it is. As many directories may be missing above it as there are levels. What was made
    stays if a later step fails. -/
def makeDirectories (d : Disk) : (levels : Nat) → Path → Disk × Except DiskFault Unit
  | 0, p => if d.lacksAbove p then (d, .error .tooDeep) else d.makeIfMissing p
  | levels + 1, p =>
    if d.lacksAbove p then
      match makeDirectories d levels p.parent with
      | (d, .error fault) => (d, .error fault)
      | (d, .ok ()) => d.makeIfMissing p
    else d.makeIfMissing p

end Disk

end LiveCheck
