import LiveCheck.Disk.Basic

/-!
# Planting

What other programs do to a disk: a node is planted at a place together with the directories above
it, in any case or only if the system lets it, and files and directories are removed. The contents
of a directory are listed by the names that lead on from it.
-/

namespace LiveCheck

namespace Disk

/-- Makes the directories that lead from a place to another one. -/
def clearWay (d : Disk) (place : Place) : List Text → Disk
  | [] => d
  | name :: rest =>
    let next := place ++ [name]
    let d := if (d.node? next).isSome then d else d.setNode next .directory
    clearWay d next rest

/-- Puts a node at a place, with the directories above it. A directory that is there stays as it is,
    and a program that is written anew stays a program. -/
def plant (d : Disk) (place : Place) (node : Node) : Disk :=
  let d := d.clearWay [] place.dropLast
  match d.node? place, node with
  | some .directory, _ => d
  | some (.file _ true), .file bytes _ => d.setNode place (.file bytes true)
  | _, node => d.setNode place node

/-- Puts a node at a path with the directories above it, as far as the system allows it. -/
def put (d : Disk) (levels : Nat) (p : Path) (node : Node) : Disk × Except DiskFault Unit :=
  match d.makeDirectories levels p.parent with
  | (d, .error fault) => (d, .error fault)
  | (d, .ok ()) =>
    match node with
    | .directory => d.makeDirectories levels p
    | .file bytes _ =>
      match d.writeBytes p bytes, d.walk p with
      | .error fault, _ => (d, .error fault)
      | .ok d, .ok place => (d.plant place node, .ok ())
      | .ok d, .error _ => (d, .ok ())

/-- Removes the file at a path, or a directory with all that is in it. -/
def removeAll (d : Disk) (p : Path) : Except DiskFault Disk :=
  match d.lookup p, d.walk p with
  | .ok .directory, .ok place =>
    .ok { d with nodes := ⟨d.nodes.entries.filter fun e => !place.isPrefixOf e.1⟩ }
  | _, _ => d.removeFile p

/-- What lies below a place, by the names that lead on from it. -/
def below (d : Disk) (place : Place) : List (List Text × Node) :=
  d.nodes.entries.filterMap fun e =>
    if place.isPrefixOf e.1 ∧ e.1 ≠ place then some (e.1.drop place.length, e.2) else none

end Disk

end LiveCheck
