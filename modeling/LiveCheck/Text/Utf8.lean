import LiveCheck.Text.Quoted

/-!
# UTF-8

The bytes of a text, and the text of bytes. Bytes that are no UTF-8 are split into faults, each as
long as the bytes could still have begun a character: the strict reading stops at the first fault,
the lenient one puts the replacement character in the place of each.
-/

namespace LiveCheck

namespace Utf8

/-- A byte with the low bits of a value above `lead`. -/
def byte (lead value : Nat) : UInt8 := UInt8.ofNat (lead + value)

/-- The bytes of a character. -/
def encodeChar (c : Char) : List UInt8 :=
  let n := c.toNat
  if n < 0x80 then [byte 0 n]
  else if n < 0x800 then [byte 0xC0 (n / 0x40), byte 0x80 (n % 0x40)]
  else if n < 0x10000 then
    [byte 0xE0 (n / 0x1000), byte 0x80 (n / 0x40 % 0x40), byte 0x80 (n % 0x40)]
  else
    [byte 0xF0 (n / 0x40000), byte 0x80 (n / 0x1000 % 0x40), byte 0x80 (n / 0x40 % 0x40),
      byte 0x80 (n % 0x40)]

/-- The bytes of a text. -/
def encode (text : Text) : List UInt8 := text.flatMap encodeChar

/-- Why bytes are no character. -/
inductive Reason
  /-- No character begins with the byte. -/
  | invalidStart
  /-- The next byte does not continue the character. -/
  | invalidContinuation
  /-- The bytes end within a character. -/
  | unexpectedEnd
  deriving DecidableEq, Repr

/-- The words for a reason. -/
def Reason.message : Reason → String
  | invalidStart => "invalid start byte"
  | invalidContinuation => "invalid continuation byte"
  | unexpectedEnd => "unexpected end of data"

/-- A part of decoded bytes. -/
inductive Piece
  /-- A character. -/
  | char (c : Char)
  /-- Bytes that are none. -/
  | fault (bytes : List UInt8) (reason : Reason)
  deriving DecidableEq, Repr

/-- A byte that continues a character. -/
def isContinuation (b : UInt8) : Bool := 0x80 ≤ b.toNat && b.toNat ≤ 0xBF

/-- May the second byte follow the first byte of a character of three or four bytes? The bounds keep
    out overlong forms, surrogates, and what lies beyond the last code point. -/
def isSecond (first second : UInt8) : Bool :=
  let least := if first = 0xE0 then 0xA0 else if first = 0xF0 then 0x90 else 0x80
  let greatest := if first = 0xED then 0x9F else if first = 0xF4 then 0x8F else 0xBF
  least ≤ second.toNat && second.toNat ≤ greatest

/-- The low six bits of a continuation byte. -/
def tail (b : UInt8) : Nat := b.toNat - 0x80

/-- The parts of a sequence of bytes. -/
def pieces : List UInt8 → List Piece
  | [] => []
  | a :: rest =>
    if a.toNat < 0x80 then .char (Char.ofNat a.toNat) :: pieces rest
    else if a.toNat < 0xC2 ∨ 0xF4 < a.toNat then .fault [a] .invalidStart :: pieces rest
    else
      match rest with
      | [] => [.fault [a] .unexpectedEnd]
      | b :: rest2 =>
        if a.toNat < 0xE0 then
          if isContinuation b then
            .char (Char.ofNat ((a.toNat - 0xC0) * 0x40 + tail b)) :: pieces rest2
          else .fault [a] .invalidContinuation :: pieces (b :: rest2)
        else if !isSecond a b then .fault [a] .invalidContinuation :: pieces (b :: rest2)
        else
          match rest2 with
          | [] => [.fault [a, b] .unexpectedEnd]
          | c :: rest3 =>
            if !isContinuation c then .fault [a, b] .invalidContinuation :: pieces (c :: rest3)
            else if a.toNat < 0xF0 then
              .char (Char.ofNat (((a.toNat - 0xE0) * 0x40 + tail b) * 0x40 + tail c)) ::
                pieces rest3
            else
              match rest3 with
              | [] => [.fault [a, b, c] .unexpectedEnd]
              | d :: rest4 =>
                if !isContinuation d then
                  .fault [a, b, c] .invalidContinuation :: pieces (d :: rest4)
                else
                  .char (Char.ofNat
                    ((((a.toNat - 0xF0) * 0x40 + tail b) * 0x40 + tail c) * 0x40 + tail d)) ::
                    pieces rest4

/-- The lenient reading: a replacement character for each fault. -/
def decodeLenient (bytes : List UInt8) : Text :=
  (pieces bytes).map fun
    | .char c => c
    | .fault _ _ => '\ufffd'

/-- The first fault of a sequence of bytes. -/
structure Fault where
  /-- Where it begins. -/
  position : Nat
  /-- Its bytes. -/
  bytes : List UInt8
  /-- What is wrong with them. -/
  reason : Reason
  deriving DecidableEq, Repr

/-- What is said of a fault. -/
def Fault.message (f : Fault) : String :=
  let place :=
    match f.bytes with
    | [b] => s!"byte 0x{Text.hexadecimal 2 b.toNat} in position {f.position}"
    | _ => s!"bytes in position {f.position}-{f.position + f.bytes.length - 1}"
  s!"'utf-8' codec can't decode {place}: {f.reason.message}"

/-- The text of pieces that begin at a position, if all are characters. -/
def textOfPieces (position : Nat) : List Piece → Except Fault Text
  | [] => .ok []
  | .fault bytes reason :: _ => .error ⟨position, bytes, reason⟩
  | .char c :: rest =>
    (textOfPieces (position + (encodeChar c).length) rest).map (c :: ·)

/-- The strict reading. -/
def decode (bytes : List UInt8) : Except Fault Text := textOfPieces 0 (pieces bytes)

end Utf8

end LiveCheck
