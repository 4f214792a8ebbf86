/-
Blank characters: the characters that count as white space around a number.

* `isControlBlank`: the blanks of ASCII that a numeral may be surrounded by;
* `isSeparator`: the four information separators, blank in running text only;
* `isWideBlank`: the blanks beyond ASCII;
* `strip`: a text without the blanks at its two ends.
-/

namespace StarkCalldata.Text

/-- Tabulators, line ends, form feed and space. -/
def isControlBlank (c : Char) : Bool := (0x09 ≤ c.toNat && c.toNat ≤ 0x0D) || c.toNat == 0x20

/-- The separators of files, groups, records and units. -/
def isSeparator (c : Char) : Bool := 0x1C ≤ c.toNat && c.toNat ≤ 0x1F

/-- The code points beyond ASCII of the characters that Unicode counts as white space. -/
def wideBlanks : List Nat :=
  [0x85, 0xA0, 0x1680, 0x2000, 0x2001, 0x2002, 0x2003, 0x2004, 0x2005, 0x2006, 0x2007, 0x2008,
   0x2009, 0x200A, 0x2028, 0x2029, 0x202F, 0x205F, 0x3000]

/-- A blank beyond ASCII. -/
def isWideBlank (c : Char) : Bool := wideBlanks.contains c.toNat

/-- A blank that may surround a numeral. -/
def isNumeralBlank (c : Char) : Bool := isControlBlank c || isWideBlank c

/-- A blank of running text. -/
def isBlank (c : Char) : Bool := isNumeralBlank c || isSeparator c

/-- The text without the characters of a class at its two ends. -/
def trim (blank : Char → Bool) (text : List Char) : List Char :=
  ((text.dropWhile blank).reverse.dropWhile blank).reverse

/-- The text without the blanks at its two ends. -/
def strip (text : List Char) : List Char := trim isBlank text

end StarkCalldata.Text
