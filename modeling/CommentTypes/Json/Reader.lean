import CommentTypes.Json.Value
import CommentTypes.Limit
import CommentTypes.NameMap
import CommentTypes.Text.Hex
import CommentTypes.Text.Integer

/-!
# Reading JSON

Beyond the standard the words `NaN`, `Infinity` and `-Infinity` are numbers; of two fields with one
name the later value counts. Integers with too many digits are not read, nor are lists and objects
that stand in each other deeper than a limit allows. A fault is what was wrong and the text left at
that point, from which `parse` finds line and column.
-/

namespace CommentTypes.Json

/-- What is wrong with a text. -/
inductive Flaw where
  | expectedValue
  | expectedName
  | expectedColon
  | expectedComma
  | extraData
  | unterminatedString
  | controlCharacter
  | badEscape
  | badUnicodeEscape
  | byteOrderMark
  | longInteger (digits : Nat)
  | deepList
  | deepObject
  deriving DecidableEq

/-- What is wrong, in words. -/
def Flaw.message : Flaw → String
  | .expectedValue => "Expecting value"
  | .expectedName => "Expecting property name enclosed in double quotes"
  | .expectedColon => "Expecting ':' delimiter"
  | .expectedComma => "Expecting ',' delimiter"
  | .extraData => "Extra data"
  | .unterminatedString => "Unterminated string starting at"
  | .controlCharacter => "Invalid control character at"
  | .badEscape => "Invalid \\escape"
  | .badUnicodeEscape => "Invalid \\uXXXX escape"
  | .byteOrderMark => "Unexpected UTF-8 BOM (decode using utf-8-sig)"
  | .longInteger digits =>
    "Exceeds the limit (4300 digits) for integer string conversion: " ++
      s!"value has {digits} digits; use sys.set_int_max_str_digits() to increase the limit"
  | .deepList =>
    "maximum recursion depth exceeded while decoding a JSON array from a unicode string"
  | .deepObject =>
    "maximum recursion depth exceeded while decoding a JSON object from a unicode string"

/-- The text may be JSON and only goes beyond what is read. -/
def Flaw.isLimit : Flaw → Bool
  | .longInteger _ | .deepList | .deepObject => true
  | _ => false

/-- A flaw and the text from the point at which it was seen. -/
structure Fault where
  flaw : Flaw
  rest : List Char

/-- The text without the blanks in front. -/
def skipBlanks (cs : List Char) : List Char :=
  cs.dropWhile fun c => c == ' ' || c == '\t' || c == '\n' || c == '\r'

/-- The value of four hexadecimal digits. -/
def hex4? : List Char → Option (Nat × List Char)
  | a :: b :: c :: d :: rest => do
    let a ← Text.hexValue? a
    let b ← Text.hexValue? b
    let c ← Text.hexValue? c
    let d ← Text.hexValue? d
    return (((a * 16 + b) * 16 + c) * 16 + d, rest)
  | _ => none

/-- The character that two halves of a surrogate pair write. -/
def pairedChar (first second : Nat) : Char :=
  Char.ofNat (0x10000 + (first - 0xd800) * 0x400 + (second - 0xdc00))

/-- Reads the digits after `\u`, and the second half of a surrogate pair; `cs` starts at the `u`.
A character has to follow the digits. -/
def readUnit (cs : List Char) : Except Fault (Text.Point × List Char) :=
  match hex4? cs.tail with
  | none => .error ⟨.badUnicodeEscape, cs⟩
  | some (_, []) => .error ⟨.badUnicodeEscape, cs⟩
  | some (n, rest) =>
    if 0xd800 ≤ n && n < 0xdc00 then
      match rest with
      | '\\' :: 'u' :: more =>
        if (more.drop 4).isEmpty then .ok (.ofCode n, rest)
        else match hex4? more with
          | none => .error ⟨.badUnicodeEscape, 'u' :: more⟩
          | some (m, rest') =>
            if 0xdc00 ≤ m && m < 0xe000 then .ok (.char (pairedChar n m), rest')
            else .ok (.ofCode n, rest)
      | _ => .ok (.ofCode n, rest)
    else .ok (.ofCode n, rest)

/-- Reads an escape; `cs` starts at the backslash, `opening` at the quote that opens the string. -/
def readEscape (opening cs : List Char) : Except Fault (Text.Point × List Char) :=
  match cs.tail with
  | [] => .error ⟨.unterminatedString, opening⟩
  | 'u' :: rest => readUnit ('u' :: rest)
  | '"' :: rest => .ok (.char '"', rest)
  | '\\' :: rest => .ok (.char '\\', rest)
  | '/' :: rest => .ok (.char '/', rest)
  | 'b' :: rest => .ok (.char '\x08', rest)
  | 'f' :: rest => .ok (.char '\x0c', rest)
  | 'n' :: rest => .ok (.char '\n', rest)
  | 'r' :: rest => .ok (.char '\r', rest)
  | 't' :: rest => .ok (.char '\t', rest)
  | _ => .error ⟨.badEscape, cs⟩

/-- Reads the points of a string up to its closing quote. The budget bounds their number. -/
def readString (opening : List Char) :
    (budget : Nat) → List Char → Except Fault (List Text.Point × List Char)
  | 0, _ => .error ⟨.unterminatedString, opening⟩
  | _ + 1, [] => .error ⟨.unterminatedString, opening⟩
  | budget + 1, c :: rest =>
    if c = '"' then .ok ([], rest)
    else if c = '\\' then do
      let (p, rest) ← readEscape opening (c :: rest)
      let (ps, rest) ← readString opening budget rest
      return (p :: ps, rest)
    else if c.toNat < 0x20 then .error ⟨.controlCharacter, c :: rest⟩
    else do
      let (ps, rest) ← readString opening budget rest
      return (.char c :: ps, rest)

/-- The number that decimal digits write. -/
def decimal (digits : List Char) : Nat :=
  digits.foldl (fun n c => 10 * n + (c.toNat - 0x30)) 0

/-- The digits of the whole part of a number: one zero, or a run that starts with another digit. -/
def wholeDigits : List Char → Option (List Char × List Char)
  | '0' :: rest => some (['0'], rest)
  | c :: rest =>
    if c.isDigit then some ((c :: rest).takeWhile Char.isDigit, (c :: rest).dropWhile Char.isDigit)
    else none
  | [] => none

/-- A point and the digits after it, if there are digits. -/
def fraction : List Char → List Char × List Char
  | '.' :: rest =>
    match rest.takeWhile Char.isDigit with
    | [] => ([], '.' :: rest)
    | digits => ('.' :: digits, rest.dropWhile Char.isDigit)
  | rest => ([], rest)

/-- An exponent, if it has digits. -/
def exponent (cs : List Char) : List Char × List Char :=
  match cs with
  | mark :: rest =>
    if mark = 'e' || mark = 'E' then
      let (sign, rest) :=
        match rest with
        | '+' :: more => (['+'], more)
        | '-' :: more => (['-'], more)
        | _ => ([], rest)
      match rest.takeWhile Char.isDigit with
      | [] => ([], cs)
      | digits => (mark :: sign ++ digits, rest.dropWhile Char.isDigit)
    else ([], cs)
  | [] => ([], cs)

/-- Reads a number. -/
def readNumber (cs : List Char) : Except Fault (Json × List Char) :=
  let negative := cs.head? = some '-'
  match wholeDigits (if negative then cs.tail else cs) with
  | none => .error ⟨.expectedValue, cs⟩
  | some (digits, rest) =>
    let (point, rest) := fraction rest
    let (power, rest) := exponent rest
    if point.isEmpty && power.isEmpty then
      if digits.length > Text.integerLimit then .error ⟨.longInteger digits.length, cs⟩
      else
        let n : Int := decimal digits
        .ok (.int (if negative then -n else n), rest)
    else
      let sign := if negative then ['-'] else []
      .ok (.float (String.ofList (sign ++ digits ++ point ++ power)), rest)

/-- The words that stand for values. -/
def words : List (List Char × Json) :=
  [("null".toList, .null), ("true".toList, .bool true), ("false".toList, .bool false),
    ("NaN".toList, .float "NaN"), ("Infinity".toList, .float "Infinity"),
    ("-Infinity".toList, .float "-Infinity")]

/-- Reads a word or a number. -/
def readScalar (cs : List Char) : Except Fault (Json × List Char) :=
  match words.find? fun w => w.1.isPrefixOf cs with
  | some (word, v) => .ok (v, cs.drop word.length)
  | none => readNumber cs

/-- The fields of an object: a later field with the name of an earlier one takes its place. -/
def lastWins (fields : Fields) : Fields :=
  fields.foldl (fun kept f => NameMap.setEntry f.1 f.2 kept) []

mutual

/-- Reads a value. The budget bounds the number of readers called within each other, and the limit
the lists and objects that may be opened within each other. -/
def readValue : (budget : Nat) → Limit → List Char → Except Fault (Json × List Char)
  | 0, _, cs => .error ⟨.expectedValue, cs⟩
  | budget + 1, limit, cs =>
    match cs with
    | '"' :: rest => do
      let (s, rest) ← readString cs budget rest
      return (.str (.ofPoints s), rest)
    | '[' :: rest =>
      if !limit.allows 1 then .error ⟨.deepList, cs⟩
      else match skipBlanks rest with
        | ']' :: rest => .ok (.arr [], rest)
        | rest => do
          let (items, rest) ← readItems budget limit.inside rest
          return (.arr items, rest)
    | '\x7b' :: rest =>
      if !limit.allows 1 then .error ⟨.deepObject, cs⟩
      else match skipBlanks rest with
        | '\x7d' :: rest => .ok (.obj [], rest)
        | rest => do
          let (fields, rest) ← readFields budget limit.inside rest
          return (.obj (lastWins fields), rest)
    | _ => readScalar cs

/-- Reads the items of a list up to its closing bracket. -/
def readItems : (budget : Nat) → Limit → List Char → Except Fault (List Json × List Char)
  | 0, _, cs => .error ⟨.expectedValue, cs⟩
  | budget + 1, limit, cs => do
    let (v, rest) ← readValue budget limit cs
    match skipBlanks rest with
    | ']' :: rest => return ([v], rest)
    | ',' :: rest => do
      let (items, rest) ← readItems budget limit (skipBlanks rest)
      return (v :: items, rest)
    | rest => .error ⟨.expectedComma, rest⟩

/-- Reads the fields of an object up to its closing brace. -/
def readFields : (budget : Nat) → Limit → List Char → Except Fault (Fields × List Char)
  | 0, _, cs => .error ⟨.expectedName, cs⟩
  | budget + 1, limit, cs =>
    match cs with
    | '"' :: rest => do
      let (name, rest) ← readString cs budget rest
      match skipBlanks rest with
      | ':' :: rest => do
        let (v, rest) ← readValue budget limit (skipBlanks rest)
        match skipBlanks rest with
        | '\x7d' :: rest => return ([(.ofPoints name, v)], rest)
        | ',' :: rest => do
          let (fields, rest) ← readFields budget limit (skipBlanks rest)
          return ((.ofPoints name, v) :: fields, rest)
        | rest => .error ⟨.expectedComma, rest⟩
      | rest => .error ⟨.expectedColon, rest⟩
    | _ => .error ⟨.expectedName, cs⟩

end

/-- Reads one value and nothing else. Each character calls at most two readers, so the budget
suffices. -/
def readDocument (limit : Limit) (cs : List Char) : Except Fault Json :=
  if cs.head? = some '\ufeff' then .error ⟨.byteOrderMark, cs⟩
  else do
    let (v, rest) ← readValue (2 * cs.length + 2) limit (skipBlanks cs)
    match skipBlanks rest with
    | [] => return v
    | rest => .error ⟨.extraData, rest⟩

/-- Why a text is not a JSON value, with the line and the column of the flaw, from one. -/
structure ParseError where
  flaw : Flaw
  line : Nat
  column : Nat
  deriving DecidableEq

/-- The place in a text at which a fault leaves its rest. -/
def Fault.locate (text : List Char) (f : Fault) : ParseError :=
  let before := text.take (text.length - f.rest.length)
  { flaw := f.flaw
    line := before.count '\n' + 1
    column := (before.reverse.takeWhile (· != '\n')).length + 1 }

/-- The value that a text writes. -/
def parse (s : String) (limit : Limit := none) : Except ParseError Json :=
  (readDocument limit s.toList).mapError (Fault.locate s.toList)

end CommentTypes.Json
