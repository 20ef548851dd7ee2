import LiveCheck.Text.Line
import LiveCheck.Listing.Block
import LiveCheck.Listing.Line

/-!
# Listings

A compiler listing repeats the source with error blocks in between. Reading a listing goes through
its lines with the error block that is open, if there is one; lines outside of a block carry no
meaning. The records of all blocks are then sorted by their place in the source, and records of one
place keep the order of the listing.

Reading fails in one case only: a line directive of an open block whose numeral is too long.
-/

namespace LiveCheck

/-- What the lines of a listing hold. -/
structure Scan where
  /-- The blocks that were closed, in the order of the listing. -/
  blocks : List Block
  /-- The numeral that reading stopped at. -/
  stoppedAt : Option OverlongNumeral := none
  deriving DecidableEq, Repr

namespace Scan

/-- The scan that also holds the blocks before it. -/
def after (earlier : List Block) (s : Scan) : Scan := { s with blocks := earlier ++ s.blocks }

/-- Scans lines while the given block, if any, is open. -/
def ofLines (current : Option Block) : List ListingLine → Scan
  | [] => ⟨current.toList, none⟩
  | .markers found :: rest => (ofLines (some (Block.ofMarkers found)) rest).after current.toList
  | .closing :: rest => (ofLines none rest).after current.toList
  | .blank :: rest => ofLines current rest
  | .directive numeral :: rest =>
    match current with
    | none => ofLines none rest
    | some block =>
      match readNumeral numeral with
      | .ok line => ofLines (some (block.setLine line)) rest
      | .error e => ⟨[], some e⟩
  | .codeMessage code text :: rest => ofLines (current.map (·.switchCode code text)) rest
  | .continuation text :: rest => ofLines (current.map (·.addContinuation text)) rest

/-- Scans the text of a listing. -/
def ofText (text : Text) : Scan := ofLines none (text.lines.map ListingLine.read)

/-- The records of the blocks that have some, in the order of the listing. -/
def records (s : Scan) : List Record := s.blocks.flatMap fun b => b.records.toOption.getD []

/-- The faults of the blocks that have no records. -/
def faults (s : Scan) : List BlockFault :=
  s.blocks.filterMap fun b =>
    match b.records with
    | .ok _ => none
    | .error fault => some fault

end Scan

/-- The records in the order of their places; records of one place keep their order. -/
def sortRecords (records : List Record) : List Record := records.mergeSort Record.le

/-- The records of a listing, sorted by their place in the source. -/
def readListing (text : Text) : Except OverlongNumeral (List Record) :=
  let scan := Scan.ofText text
  match scan.stoppedAt with
  | some e => .error e
  | none => .ok (sortRecords scan.records)

/-- The faults of the blocks of a listing, as far as it was read. -/
def listingFaults (text : Text) : List BlockFault := (Scan.ofText text).faults

end LiveCheck
