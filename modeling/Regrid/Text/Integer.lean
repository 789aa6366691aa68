/-!
# Integers in text

An integer is written as an optional sign and decimal digits, with single
underscores between digits if one likes, and blanks around it.  The digits may be
those of any script: every script has its ten in a row, and `zeros` lists the
noughts.  A text with very many digits is not read at all.
-/
namespace Regrid
namespace Text

/-- The code points of nought, in all scripts that have decimal digits. -/
def zeros : List Nat :=
  [0x30, 0x660, 0x6f0, 0x7c0, 0x966, 0x9e6, 0xa66, 0xae6, 0xb66, 0xbe6, 0xc66, 0xce6, 0xd66,
    0xde6, 0xe50, 0xed0, 0xf20, 0x1040, 0x1090, 0x17e0, 0x1810, 0x1946, 0x19d0, 0x1a80, 0x1a90,
    0x1b50, 0x1bb0, 0x1c40, 0x1c50, 0xa620, 0xa8d0, 0xa900, 0xa9d0, 0xa9f0, 0xaa50, 0xabf0,
    0xff10, 0x104a0, 0x10d30, 0x11066, 0x110f0, 0x11136, 0x111d0, 0x112f0, 0x11450, 0x114d0,
    0x11650, 0x116c0, 0x11730, 0x118e0, 0x11950, 0x11c50, 0x11d50, 0x11da0, 0x16a60, 0x16ac0,
    0x16b50, 0x1d7ce, 0x1d7d8, 0x1d7e2, 0x1d7ec, 0x1d7f6, 0x1e140, 0x1e2f0, 0x1e950, 0x1fbf0]

/-- The value of a decimal digit. -/
def digit? (c : Char) : Option Nat :=
  (zeros.find? fun z => decide (z ≤ c.toNat) && decide (c.toNat < z + 10)).map fun z => c.toNat - z

/-- A blank character. -/
def isBlank (c : Char) : Bool :=
  let n := c.toNat
  (9 ≤ n && n ≤ 13) || n == 32 || n == 0x85 || n == 0xa0 || n == 0x1680 ||
    (0x2000 ≤ n && n ≤ 0x200a) || n == 0x2028 || n == 0x2029 || n == 0x202f || n == 0x205f ||
    n == 0x3000

/-- The text without the blanks at its ends. -/
def strip (cs : List Char) : List Char :=
  ((cs.dropWhile isBlank).reverse.dropWhile isBlank).reverse

/-- The number of digits read so far and the digits to come, of which there is one at
least after an underscore. -/
def digitsFrom (value : Nat) : List Char → Option Nat
  | [] => some value
  | '_' :: c :: rest => (digit? c).bind fun d => digitsFrom (10 * value + d) rest
  | c :: rest => (digit? c).bind fun d => digitsFrom (10 * value + d) rest

/-- The greatest number of digits that are read. -/
def mostDigits : Nat := 4300

/-- A row of digits, not too many, the first of which is no underscore. -/
def digits? : List Char → Option Nat
  | [] => none
  | c :: rest =>
    if mostDigits < (c :: rest).countP (· != '_') then none
    else (digit? c).bind fun d => digitsFrom d rest

/-- The integer that a text writes. -/
def integer? (s : String) : Option Int :=
  match strip s.toList with
  | '-' :: cs => (digits? cs).map fun (n : Nat) => -(n : Int)
  | '+' :: cs => (digits? cs).map Int.ofNat
  | cs => (digits? cs).map Int.ofNat

/-- Blanks around, a sign, and single underscores between digits. -/
example : (["7", " +7 ", "-7", "1_0", "٣"].map integer?) =
    [some 7, some 7, some (-7), some 10, some 3] := by decide +kernel

/-- No underscore at an end or beside another, no blank after the sign, no fraction,
and separators of records are no blanks. -/
example : (["", "_1", "1_", "1__0", "- 5", "1.5", "0x5", "\x1c5"].map integer?) =
    List.replicate 8 none := by decide +kernel

end Text
end Regrid
