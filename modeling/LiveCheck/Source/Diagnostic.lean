import LiveCheck.Source.LineIndex
import LiveCheck.Listing.Record

/-!
# Diagnostics

A diagnostic is a record placed onto a buffer: it marks one character, and its column is the one
that the record could be placed at. A record whose line the buffer does not have is dropped.
-/

namespace LiveCheck

/-- An error of a source, placed onto its buffer. -/
structure Diagnostic where
  /-- The path of the source. -/
  source : Text
  /-- Where the marked text starts. -/
  startOffset : Int
  /-- Just past the end of the marked text. -/
  endOffset : Int
  /-- How bad it is; diagnostics of a listing are errors. -/
  severity : Text
  /-- The message, with the error code. -/
  message : Text
  /-- The line, the first line being `1`. -/
  line : Int
  /-- The column, the first column being `0`. -/
  column : Int
  /-- The error code. -/
  code : Text
  deriving DecidableEq, Repr

/-- The severity of diagnostics that come from a listing. -/
def errorSeverity : Text := "error".toList

namespace Record

/-- The message of a record with its code, which stands alone if there is no message. -/
def label (r : Record) : Text :=
  if r.message.isEmpty then "Error ".toList ++ r.code else r.code ++ ": ".toList ++ r.message

/-- Places a record onto a buffer. -/
def place (r : Record) (index : LineIndex) (source : Text) :
    Except LineOutOfRange Diagnostic := do
  let start ← index.offset r.line r.column
  let lineStart ← index.lineStart r.line
  return {
    source
    startOffset := start
    endOffset := start + 1
    severity := errorSeverity
    message := r.label
    line := r.line
    column := start - lineStart
    code := r.code }

end Record

/-- A record that was dropped because its line is not in the buffer. -/
structure DroppedRecord where
  /-- The error code of the record. -/
  code : Text
  /-- The path of the source. -/
  source : Text
  /-- Why it was dropped. -/
  reason : LineOutOfRange
  deriving DecidableEq, Repr

/-- What is said of a dropped record. -/
def DroppedRecord.message (d : DroppedRecord) : String :=
  s!"Dropping diagnostic {d.code} for {d.source}: {d.reason.message}"

/-- Places records onto a buffer one by one, keeping their order. -/
def placeRecords (records : List Record) (text source : Text) : List Diagnostic :=
  let index := LineIndex.ofText text
  records.filterMap fun r => (r.place index source).toOption

/-- The records that find no place on a buffer. -/
def droppedRecords (records : List Record) (text source : Text) : List DroppedRecord :=
  let index := LineIndex.ofText text
  records.filterMap fun r =>
    match r.place index source with
    | .ok _ => none
    | .error reason => some ⟨r.code, source, reason⟩

end LiveCheck
