/-
Quoted text: a text shown between quotation marks, so that every character can be read off.

The mark is the apostrophe, unless the text holds an apostrophe and no double mark. The mark itself
and the backslash are escaped by a backslash, tabulator and line ends by their letters, and any
other character that is not printable by its code point in two, four or eight hexadecimal digits.

* `mark`: the quotation mark a text gets;
* `escape`: the characters one character is shown as;
* `quoted`: the whole text between its marks.
-/
import StarkCalldata.Text.Hex
import StarkCalldata.Text.Printable

namespace StarkCalldata.Text

/-- The apostrophe. -/
def apostrophe : Char := '\x27'

/-- The double quotation mark. -/
def doubleMark : Char := '\x22'

/-- The backslash. -/
def backslash : Char := '\x5c'

/-- The quotation mark of a text. -/
def mark (text : List Char) : Char :=
  if text.contains apostrophe && !text.contains doubleMark then doubleMark else apostrophe

/-- The characters that one character of a text is shown as. -/
def escape (m c : Char) : List Char :=
  if c = m ∨ c = backslash then [backslash, c]
  else if c = '\t' then [backslash, 't']
  else if c = '\n' then [backslash, 'n']
  else if c = '\r' then [backslash, 'r']
  else if isPrintable c then [c]
  else if c.toNat < 0x100 then backslash :: 'x' :: hexPadded 2 c.toNat
  else if c.toNat < 0x10000 then backslash :: 'u' :: hexPadded 4 c.toNat
  else backslash :: 'U' :: hexPadded 8 c.toNat

/-- The text between quotation marks. -/
def quoted (text : String) : String :=
  let cs := text.toList
  let m := mark cs
  String.ofList (m :: cs.flatMap (escape m) ++ [m])

/-- A list of texts, each quoted, between square brackets. -/
def quotedList (texts : List String) : String :=
  "[" ++ String.intercalate ", " (texts.map quoted) ++ "]"

end StarkCalldata.Text
