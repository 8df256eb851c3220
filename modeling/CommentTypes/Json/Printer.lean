import CommentTypes.Json.Value
import CommentTypes.Text.Hex

/-!
# JSON as text

JSON as text. Only ASCII is written: any other character is escaped as one or two units of
sixteen bits. `compact` writes a value on one line, `pretty` one item a line, indented by two.
-/

namespace CommentTypes.Json

/-- The escape of one unit of sixteen bits. -/
def escapedUnit (n : Nat) : List Char :=
  '\\' :: 'u' :: Text.hexDigits 4 n

/-- One character inside a string. -/
def escapedChar (c : Char) : List Char :=
  if c = '"' || c = '\\' then ['\\', c]
  else if c = '\n' then ['\\', 'n']
  else if c = '\r' then ['\\', 'r']
  else if c = '\t' then ['\\', 't']
  else if c = '\x08' then ['\\', 'b']
  else if c = '\x0c' then ['\\', 'f']
  else if 0x20 ≤ c.toNat && c.toNat < 0x7f then [c]
  else if c.toNat < 0x10000 then escapedUnit c.toNat
  else
    let n := c.toNat - 0x10000
    escapedUnit (0xd800 + n / 0x400) ++ escapedUnit (0xdc00 + n % 0x400)

/-- One point inside a string. -/
def escapedPoint : Text.Point → List Char
  | .char c => escapedChar c
  | .half h => escapedUnit h.code

/-- A text between quotes. -/
def quotedChars (t : Text.Loose) : List Char :=
  '"' :: t.points.flatMap escapedPoint ++ ['"']

/-- A value without parts. -/
def scalarChars : Json → List Char
  | .bool true => "true".toList
  | .bool false => "false".toList
  | .int n => (toString n).toList
  | .float text => text.toList
  | .str s => quotedChars s
  | .null => "null".toList
  | .arr _ => []
  | .obj _ => []

mutual

/-- A value on one line. -/
def compactChars : Json → List Char
  | .arr items => '[' :: compactItems items ++ [']']
  | .obj fields => '\x7b' :: compactFields fields ++ ['\x7d']
  | .null => scalarChars .null
  | .bool b => scalarChars (.bool b)
  | .int n => scalarChars (.int n)
  | .float text => scalarChars (.float text)
  | .str s => scalarChars (.str s)

/-- Items with a comma and a blank between each two. -/
def compactItems : List Json → List Char
  | [] => []
  | [v] => compactChars v
  | v :: rest => compactChars v ++ ',' :: ' ' :: compactItems rest

/-- Fields with a comma and a blank between each two. -/
def compactFields : Fields → List Char
  | [] => []
  | [(name, v)] => quotedChars name ++ ':' :: ' ' :: compactChars v
  | (name, v) :: rest =>
    quotedChars name ++ ':' :: ' ' :: compactChars v ++ ',' :: ' ' :: compactFields rest

end

/-- A value on one line. -/
def compact (v : Json) : String :=
  String.ofList (compactChars v)

/-- The start of a line at a depth. -/
def newline (depth : Nat) : List Char :=
  '\n' :: List.replicate (2 * depth) ' '

mutual

/-- A value over several lines, the parts of its outermost list or object one deeper. -/
def prettyChars (depth : Nat) : Json → List Char
  | .arr [] => ['[', ']']
  | .arr (v :: items) =>
    '[' :: newline (depth + 1) ++ prettyItems (depth + 1) (v :: items) ++ newline depth ++ [']']
  | .obj [] => ['\x7b', '\x7d']
  | .obj (f :: fields) =>
    '\x7b' :: newline (depth + 1) ++ prettyFields (depth + 1) (f :: fields) ++ newline depth ++
      ['\x7d']
  | .null => scalarChars .null
  | .bool b => scalarChars (.bool b)
  | .int n => scalarChars (.int n)
  | .float text => scalarChars (.float text)
  | .str s => scalarChars (.str s)

/-- Items, each on lines of its own. -/
def prettyItems (depth : Nat) : List Json → List Char
  | [] => []
  | [v] => prettyChars depth v
  | v :: rest => prettyChars depth v ++ ',' :: newline depth ++ prettyItems depth rest

/-- Fields, each on lines of its own. -/
def prettyFields (depth : Nat) : Fields → List Char
  | [] => []
  | [(name, v)] => quotedChars name ++ ':' :: ' ' :: prettyChars depth v
  | (name, v) :: rest =>
    quotedChars name ++ ':' :: ' ' :: prettyChars depth v ++ ',' :: newline depth ++
      prettyFields depth rest

end

/-- A value over several lines, indented by two blanks at each level. -/
def pretty (v : Json) : String :=
  String.ofList (prettyChars 0 v)

end CommentTypes.Json
