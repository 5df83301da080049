/-!
# Text/Basic — texts, their lines and windows, and numbers written and read

A text is a list of Unicode scalar values, and offsets, columns and windows count these.  A lone
surrogate is none of them.  So nothing is said here of arguments that are no valid text, which reach
a program as lone surrogates; a file that should be written with one of them is emptied before the
writing fails.

`pieces` cuts a text at a mark, `lines` at its line feeds, and `unlines` puts lines together again.
A message shows the `window` of a text around the place it speaks of.

Blank is the wide notion of white space: everything Unicode counts as a space, line or paragraph
separator.  Comment lines, markers and type mappings are trimmed by it; between the tokens of a
declaration only the narrower class of `Scan/Dialect` is skipped.

A whole number that a user writes may have space around it, a sign in front, the decimal digits of
any script (Unicode 14), leading zeros, and single underscores between digits.
-/

namespace ErrorCatalog

/-- A text, one entry per Unicode scalar value. -/
abbrev Text := List Char

/-- Raw file content. -/
abbrev Bytes := List UInt8

namespace Text

/-! ## Pieces -/

/-- The pieces of a text between the marks `mark`; the empty text is one empty piece. -/
def pieces (mark : Char) : Text → List Text
  | [] => [[]]
  | c :: rest =>
      if c = mark then [] :: pieces mark rest
      else match pieces mark rest with
        | [] => [[c]]
        | piece :: more => (c :: piece) :: more

/-- The lines of a text. -/
def lines (t : Text) : List Text := pieces '\n' t

/-- The lines with one line feed between neighbours. -/
def unlines (ls : List Text) : Text := List.intercalate ['\n'] ls

/-! ## Numbers written -/

/-- A number in decimal. -/
def ofNat (n : Nat) : Text := Nat.toDigits 10 n

/-- A number in lower-case hexadecimal, filled with zeros to at least `width` digits. -/
def hex (width n : Nat) : Text := (Nat.toDigits 16 n).leftpad width '0'

/-! ## Windows -/

/-- How far a window reaches unless told otherwise. -/
def windowRadius : Int := 5

/-- The characters from `start` up to `stop`.  A negative `stop` counts back from the end of the
text; a `stop` past the end stands for the end. -/
def slice (t : Text) (start : Nat) (stop : Int) : Text :=
  (t.take (if stop < 0 then stop + t.length else stop).toNat).drop start

/-- **The window**: the characters within `radius` of `offset`. -/
def window (t : Text) (offset : Int) (radius : Int) : Text :=
  slice t (max (offset - radius) 0).toNat (offset + radius)

end Text

/-! ## Blanks -/

/-- The ranges of blank characters. -/
def blankRanges : List (Nat × Nat) :=
  [(0x9, 0xd), (0x1c, 0x20), (0x85, 0x85), (0xa0, 0xa0), (0x1680, 0x1680), (0x2000, 0x200a),
    (0x2028, 0x2029), (0x202f, 0x202f), (0x205f, 0x205f), (0x3000, 0x3000)]

/-- White space in the Unicode sense. -/
def isBlank (c : Char) : Bool :=
  blankRanges.any fun r => r.1 ≤ c.toNat && c.toNat ≤ r.2

namespace Text

/-- The text without the blanks it starts with. -/
def trimLeft (t : Text) : Text := t.dropWhile isBlank

/-- The text without the blanks it ends with. -/
def trimRight (t : Text) : Text := (t.reverse.dropWhile isBlank).reverse

/-- The text without the blanks at either end. -/
def trim (t : Text) : Text := trimRight (trimLeft t)

end Text

/-! ## Numbers read -/

/-- The zeros of the decimal digit rows; the other nine digits of a row follow its zero. -/
def digitZeros : List Nat :=
  [0x30, 0x660, 0x6f0, 0x7c0, 0x966, 0x9e6, 0xa66, 0xae6, 0xb66, 0xbe6, 0xc66, 0xce6, 0xd66,
   0xde6, 0xe50, 0xed0, 0xf20, 0x1040, 0x1090, 0x17e0, 0x1810, 0x1946, 0x19d0, 0x1a80, 0x1a90,
   0x1b50, 0x1bb0, 0x1c40, 0x1c50, 0xa620, 0xa8d0, 0xa900, 0xa9d0, 0xa9f0, 0xaa50, 0xabf0,
   0xff10, 0x104a0, 0x10d30, 0x11066, 0x110f0, 0x11136, 0x111d0, 0x112f0, 0x11450, 0x114d0,
   0x11650, 0x116c0, 0x11730, 0x118e0, 0x11950, 0x11c50, 0x11d50, 0x11da0, 0x16a60, 0x16ac0,
   0x16b50, 0x1d7ce, 0x1d7d8, 0x1d7e2, 0x1d7ec, 0x1d7f6, 0x1e140, 0x1e2f0, 0x1e950, 0x1fbf0]

/-- The value of a decimal digit. -/
def digitValue? (c : Char) : Option Nat :=
  (digitZeros.find? fun first => first ≤ c.toNat && c.toNat < first + 10).map (c.toNat - ·)

/-- The characters that may surround a number: the six ASCII spaces and every later blank. -/
def isNumberSpace (c : Char) : Bool :=
  isBlank c && (c.toNat < 0x1c || 0x20 ≤ c.toNat)

namespace Text

/-- The most digits a number may have. -/
def maxDigits : Nat := 4300

/-- The values of a row of digits, with at most one underscore between neighbours. -/
def digits? : Text → Option (List Nat)
  | [] => none
  | [c] => (digitValue? c).map ([·])
  | c :: '_' :: rest => do
      let d ← digitValue? c
      let ds ← digits? rest
      return d :: ds
  | c :: rest => do
      let d ← digitValue? c
      let ds ← digits? rest
      return d :: ds

/-- The number that an unsigned row of digits stands for. -/
def toNat? (t : Text) : Option Nat := do
  let ds ← digits? t
  if ds.length ≤ maxDigits then some (ds.foldl (fun n d => 10 * n + d) 0) else none

/-- **The whole number a text stands for.** -/
def toInt? (t : Text) : Option Int :=
  match ((t.dropWhile isNumberSpace).reverse.dropWhile isNumberSpace).reverse with
  | '-' :: rest => (toNat? rest).map fun n => -(n : Int)
  | '+' :: rest => (toNat? rest).map fun n => (n : Int)
  | rest => (toNat? rest).map fun n => (n : Int)

end Text

end ErrorCatalog
