import CommentTypes.Text.Blank
import CommentTypes.Text.Digit

/-!
# Integers written by hand

Integers written by hand: digits of any script, single underscores between them, a sign before
them and blanks around all.
-/

namespace CommentTypes.Text

/-- The largest number of digits that an integer is read from. -/
def integerLimit : Nat := 4300

/-- A blank around a number. The four separator controls are not among them. -/
def isNumberBlank (c : Char) : Bool :=
  isBlank c && !(0x1c ≤ c.toNat && c.toNat ≤ 0x1f)

/-- The number that digits are. -/
def natural? (cs : List Char) : Option Nat :=
  let groups := cs.splitOn '_'
  let digits := groups.flatten
  if groups.any List.isEmpty || integerLimit < digits.length then none
  else digits.foldlM (fun n c => (digitValue? c).map (n * 10 + ·)) 0

/-- The integer that a text is. -/
def integer? (s : String) : Option Int :=
  let bare := ((s.toList.dropWhile isNumberBlank).reverse.dropWhile isNumberBlank).reverse
  match bare with
  | '-' :: digits => (natural? digits).map fun n => -(n : Int)
  | '+' :: digits => (natural? digits).map Int.ofNat
  | digits => (natural? digits).map Int.ofNat

/-- The digits of a negative number, with or without a fraction. -/
def isNegativeBody (cs : List Char) : Bool :=
  let whole := cs.takeWhile isDigit
  match cs.dropWhile isDigit with
  | [] => !whole.isEmpty
  | '.' :: fraction => !fraction.isEmpty && fraction.all isDigit
  | _ => false

/-- The text is a negative number. A line feed may stand at its end. -/
def isNegative (s : String) : Bool :=
  match s.toList with
  | '-' :: body =>
    isNegativeBody body || (body.getLast? == some '\n' && isNegativeBody body.dropLast)
  | _ => false

end CommentTypes.Text
