import CodeIndex.Text.Ranges

/-!
# Columns

How much room a text takes on a terminal: a character of an East Asian script takes two columns, a mark
that combines with the character before it takes none, any other takes one.
-/

namespace CodeIndex.Text

def wideRanges : Ranges := #[
  (0x1100, 0x115F), (0x2E80, 0x303E), (0x3041, 0x33FF), (0x3400, 0x4DBF), (0x4E00, 0xA4CF),
  (0xA960, 0xA97C), (0xAC00, 0xD7A3), (0xF900, 0xFAFF), (0xFE30, 0xFE6B), (0xFF01, 0xFF60),
  (0xFFE0, 0xFFE6), (0x1F300, 0x1F64F), (0x1F680, 0x1F6FF), (0x1F900, 0x1F9FF), (0x20000, 0x3FFFD)]

def combiningRanges : Ranges := #[
  (0x0300, 0x036F), (0x0483, 0x0489), (0x0591, 0x05BD), (0x0610, 0x061A), (0x064B, 0x065F),
  (0x1AB0, 0x1AFF), (0x1DC0, 0x1DFF), (0x200B, 0x200F), (0x20D0, 0x20F0), (0xFE00, 0xFE0F),
  (0xFE20, 0xFE2F)]

def columnsOf (c : Char) : Nat :=
  if inRanges wideRanges c.toNat then 2 else if inRanges combiningRanges c.toNat then 0 else 1

def columns (s : String) : Nat :=
  (s.toList.map columnsOf).foldl Nat.add 0

def blanks (n : Nat) : String :=
  String.ofList (List.replicate n ' ')

def padEnd (width : Nat) (s : String) : String :=
  s ++ blanks (width - columns s)

def padStart (width : Nat) (s : String) : String :=
  blanks (width - columns s) ++ s

end CodeIndex.Text
