/-!
# Text as bytes

Text in UTF-8.  Bytes that are no text are either refused or read with a replacement character for
each longest start of a character that is cut short, and for each byte that starts none.
-/

namespace CodeIndex

abbrev Bytes := List UInt8

namespace Text

def replacement : Char := '\ufffd'

/-- The number of bytes after a first byte, the bits that it brings, and the range of the second
byte. -/
def leadByte? (b : UInt8) : Option (Nat × Nat × UInt8 × UInt8) :=
  if 0xC2 ≤ b && b ≤ 0xDF then some (1, b.toNat - 0xC0, 0x80, 0xBF)
  else if b == 0xE0 then some (2, 0, 0xA0, 0xBF)
  else if b == 0xED then some (2, 0xD, 0x80, 0x9F)
  else if 0xE1 ≤ b && b ≤ 0xEF then some (2, b.toNat - 0xE0, 0x80, 0xBF)
  else if b == 0xF0 then some (3, 0, 0x90, 0xBF)
  else if b == 0xF4 then some (3, 4, 0x80, 0x8F)
  else if 0xF1 ≤ b && b ≤ 0xF3 then some (3, b.toNat - 0xF0, 0x80, 0xBF)
  else none

/-- Reads up to `count` bytes of a character: its number, if all are there, and how many were read. -/
def continued (low high : UInt8) (number read : Nat) : Nat → Bytes → Option Nat × Nat
  | 0, _ => (some number, read)
  | _ + 1, [] => (none, read)
  | count + 1, b :: rest =>
    if low ≤ b && b ≤ high then
      continued 0x80 0xBF (64 * number + (b.toNat - 0x80)) (read + 1) count rest
    else (none, read)

/-- The first character of bytes, if they start with one, and the number of bytes after the first that
belong to it. -/
def charAt (b : UInt8) (rest : Bytes) : Option Char × Nat :=
  if b < 0x80 then (some (Char.ofNat b.toNat), 0)
  else
    match leadByte? b with
    | none => (none, 0)
    | some (count, bits, low, high) =>
      let (number, read) := continued low high bits 0 count rest
      (number.map Char.ofNat, read)

def chars : Nat → Bytes → List (Option Char)
  | 0, _ => []
  | _ + 1, [] => []
  | fuel + 1, b :: rest =>
    let (c, more) := charAt b rest
    c :: chars fuel (rest.drop more)

def ofBytes (bytes : Bytes) : String :=
  String.ofList ((chars bytes.length bytes).map (·.getD replacement))

def ofBytes? (bytes : Bytes) : Option String :=
  ((chars bytes.length bytes).mapM id).map String.ofList

def toBytes (s : String) : Bytes :=
  s.toUTF8.toList

end Text

end CodeIndex
