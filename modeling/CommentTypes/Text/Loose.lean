/-!
# Loose texts

Texts in which half of a surrogate pair may stand alone. An escape of sixteen bits can write such a
half, and no string can hold it. A text without halves is a string; one with halves is a string up
to the first of them and code points from there on, so that a text is given in one way only
(`ofPoints_points`).
-/

namespace CommentTypes.Text

/-- Half of a surrogate pair, counted from the first one. -/
structure Half where
  index : Fin 0x800
  deriving DecidableEq

/-- The code of a half. -/
def Half.code (h : Half) : Nat :=
  0xd800 + h.index.val

/-- A code point: a character or half of a surrogate pair. -/
inductive Point where
  | char (c : Char)
  | half (h : Half)
  deriving DecidableEq

namespace Point

/-- The point with a code. -/
def ofCode (n : Nat) : Point :=
  if h : 0xd800 ≤ n ∧ n < 0xe000 then .half ⟨n - 0xd800, by omega⟩ else .char (Char.ofNat n)

/-- The code of a point. -/
def code : Point → Nat
  | .char c => c.toNat
  | .half h => h.code

/-- The character that a point is. -/
def char? : Point → Option Char
  | .char c => some c
  | .half _ => none

/-- The point is a character. -/
def isChar (p : Point) : Bool :=
  p.char?.isSome

@[simp]
theorem isChar_char (c : Char) : isChar (.char c) = true := rfl

@[simp]
theorem isChar_half (h : Half) : isChar (.half h) = false := rfl

end Point

/-- A text with halves or without. -/
inductive Loose where
  | string (s : String)
  | broken (before : String) (half : Half) (after : List Point)
  deriving DecidableEq

namespace Loose

instance : Coe String Loose := ⟨.string⟩

/-- The text with some points. -/
def ofPoints (points : List Point) : Loose :=
  let before := String.ofList ((points.takeWhile Point.isChar).filterMap Point.char?)
  match points.dropWhile Point.isChar with
  | .half h :: after => .broken before h after
  | _ => .string before

/-- The points of a text. -/
def points : Loose → List Point
  | .string s => s.toList.map .char
  | .broken before h after => before.toList.map .char ++ .half h :: after

theorem filterMap_char?_map_char (cs : List Char) :
    (cs.map Point.char).filterMap Point.char? = cs := by
  induction cs with
  | nil => rfl
  | cons c cs ih => simp only [List.map_cons, List.filterMap_cons, Point.char?, ih]

theorem takeWhile_isChar (cs : List Char) (points : List Point) :
    (cs.map Point.char ++ points).takeWhile Point.isChar =
      cs.map Point.char ++ points.takeWhile Point.isChar :=
  List.takeWhile_append_of_pos (by simp)

theorem dropWhile_isChar (cs : List Char) (points : List Point) :
    (cs.map Point.char ++ points).dropWhile Point.isChar = points.dropWhile Point.isChar :=
  List.dropWhile_append_of_pos (by simp)

/-- A text is known by its points. -/
@[simp]
theorem ofPoints_points (t : Loose) : ofPoints t.points = t := by
  cases t with
  | string s =>
    have taken := takeWhile_isChar s.toList []
    have dropped := dropWhile_isChar s.toList []
    simp only [List.append_nil, List.takeWhile_nil, List.dropWhile_nil] at taken dropped
    simp only [ofPoints, points, taken, dropped, filterMap_char?_map_char, String.ofList_toList]
  | broken before half after =>
    simp only [ofPoints, points, takeWhile_isChar, dropWhile_isChar, List.takeWhile_cons,
      List.dropWhile_cons, Point.isChar_half, Bool.false_eq_true, if_false, List.append_nil,
      filterMap_char?_map_char, String.ofList_toList]

/-- The characters of a text, without its halves. -/
def chars (t : Loose) : List Char :=
  t.points.filterMap Point.char?

/-- The codes of a text, by which texts are ordered. -/
def codes (t : Loose) : List Nat :=
  t.points.map Point.code

/-- The order of texts: by the first codes that differ, and a text before what continues it. -/
def atMost (a b : Loose) : Bool :=
  !b.codes.lex a.codes fun x y => x < y

/-- The name ends with the text. No name has a half. -/
def isEndOf (t : Loose) (name : String) : Bool :=
  match t with
  | .string s => name.endsWith s
  | .broken _ _ _ => false

end Loose

end CommentTypes.Text
