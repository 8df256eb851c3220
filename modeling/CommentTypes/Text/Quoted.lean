import CommentTypes.Text.Hex
import CommentTypes.Text.Loose
import CommentTypes.Text.Printable

/-!
# Quoted texts

Texts quoted for a message: single quotes, unless the text has one and no double quote, with
escapes for the backslash, the quote itself, and every character without a printed form. Half of a
surrogate pair has none.
-/

namespace CommentTypes.Text

/-- One character inside the quote `mark`. -/
def quotedChar (mark c : Char) : List Char :=
  if c = mark || c = '\\' then ['\\', c]
  else if c = '\t' then ['\\', 't']
  else if c = '\n' then ['\\', 'n']
  else if c = '\r' then ['\\', 'r']
  else if isPrintable c then [c]
  else if c.toNat < 0x100 then '\\' :: 'x' :: hexDigits 2 c.toNat
  else if c.toNat < 0x10000 then '\\' :: 'u' :: hexDigits 4 c.toNat
  else '\\' :: 'U' :: hexDigits 8 c.toNat

/-- The quote mark for some characters. -/
def quoteMark (cs : List Char) : Char :=
  if cs.contains '\x27' && !cs.contains '"' then '"' else '\x27'

/-- The text between quotes. -/
def quoted (s : String) : String :=
  let mark := quoteMark s.toList
  String.ofList (mark :: s.toList.flatMap (quotedChar mark) ++ [mark])

namespace Loose

/-- The escape of half of a surrogate pair. -/
def escapedHalf (h : Half) : List Char :=
  '\\' :: 'u' :: hexDigits 4 h.code

/-- The text between quotes. -/
def quoted (t : Loose) : String :=
  let mark := quoteMark t.chars
  let inside : Point → List Char
    | .char c => quotedChar mark c
    | .half h => escapedHalf h
  String.ofList (mark :: t.points.flatMap inside ++ [mark])

/-- The text as a string, in which only halves are escaped. -/
def shown (t : Loose) : String :=
  let inside : Point → List Char
    | .char c => [c]
    | .half h => escapedHalf h
  String.ofList (t.points.flatMap inside)

end Loose

end CommentTypes.Text
