import CommentTypes.Text.Hex

/-!
# UTF-8

`encode` writes a text as bytes. `pieces` reads bytes back as characters and flaws, a flaw
being a longest run of bytes that begins a character and cannot go on, or a byte that begins none.
`decode` shows each flaw as one replacement character; `decodeStrict` refuses the first.
-/

namespace CommentTypes.Text.Utf8

/-- The bytes of a text. -/
def encode (cs : List Char) : List UInt8 :=
  cs.flatMap String.utf8EncodeChar

/-- A character begun and not finished: its value so far, the bytes it still owes, the bounds of
the next one, and the number of bytes read. -/
structure Pending where
  value : Nat
  owed : Nat
  low : Nat
  high : Nat
  read : Nat
  deriving DecidableEq

/-- Why bytes are no character. -/
inductive Flaw where
  | badStart
  | badContinuation
  | truncated
  deriving DecidableEq

/-- What a run of bytes stands for. -/
inductive Piece where
  | char (c : Char)
  | flaw (size : Nat) (why : Flaw)
  deriving DecidableEq

/-- Reads the first byte of a character. -/
def begin (b : UInt8) : List Piece × Option Pending :=
  let n := b.toNat
  if n < 0x80 then ([.char (Char.ofNat n)], none)
  else if n < 0xc2 then ([.flaw 1 .badStart], none)
  else if n < 0xe0 then ([], some ⟨n - 0xc0, 1, 0x80, 0xbf, 1⟩)
  else if n < 0xf0 then
    ([], some ⟨n - 0xe0, 2, if n = 0xe0 then 0xa0 else 0x80, if n = 0xed then 0x9f else 0xbf, 1⟩)
  else if n < 0xf5 then
    ([], some ⟨n - 0xf0, 3, if n = 0xf0 then 0x90 else 0x80, if n = 0xf4 then 0x8f else 0xbf, 1⟩)
  else ([.flaw 1 .badStart], none)

/-- Reads one byte, inside a character or at its start. A byte that cannot continue the character
ends it as a flaw and is read again as a first byte. -/
def step : Option Pending → UInt8 → List Piece × Option Pending
  | none, b => begin b
  | some p, b =>
    let n := b.toNat
    if p.low ≤ n ∧ n ≤ p.high then
      let value := p.value * 64 + (n - 0x80)
      if p.owed = 1 then ([.char (Char.ofNat value)], none)
      else ([], some ⟨value, p.owed - 1, 0x80, 0xbf, p.read + 1⟩)
    else
      let next := begin b
      (.flaw p.read .badContinuation :: next.1, next.2)

/-- The pieces of the bytes that follow a state. -/
def piecesFrom : Option Pending → List UInt8 → List Piece
  | none, [] => []
  | some p, [] => [.flaw p.read .truncated]
  | state, b :: bytes =>
    let next := step state b
    next.1 ++ piecesFrom next.2 bytes

/-- The characters and flaws of a sequence of bytes. -/
def pieces (bytes : List UInt8) : List Piece :=
  piecesFrom none bytes

/-- The character that a piece is shown as. -/
def Piece.shown : Piece → Char
  | .char c => c
  | .flaw _ _ => '\ufffd'

/-- The bytes read as text, each flaw replaced by one character. -/
def decode (bytes : List UInt8) : List Char :=
  (pieces bytes).map Piece.shown

/-- The first flaw of a sequence of bytes: where it starts, its size and its first byte. -/
structure DecodeError where
  start : Nat
  size : Nat
  byte : UInt8
  why : Flaw
  deriving DecidableEq

/-- A flaw in words. -/
def Flaw.message : Flaw → String
  | .badStart => "invalid start byte"
  | .badContinuation => "invalid continuation byte"
  | .truncated => "unexpected end of data"

/-- The error as text: one byte is shown, and of several bytes the places of the first and the
last. -/
def DecodeError.render (e : DecodeError) : String :=
  let what :=
    if e.size = 1 then
      s!"byte 0x{String.ofList (hexDigits 2 e.byte.toNat)} in position {e.start}"
    else s!"bytes in position {e.start}-{e.start + e.size - 1}"
  s!"'utf-8' codec can't decode {what}: {e.why.message}"

/-- Collects characters up to the first flaw. -/
def charsOf (bytes : List UInt8) (offset : Nat) : List Piece → Except DecodeError (List Char)
  | [] => .ok []
  | .char c :: rest => do
    let cs ← charsOf bytes (offset + c.utf8Size) rest
    return c :: cs
  | .flaw size why :: _ => .error ⟨offset, size, bytes.getD offset 0, why⟩

/-- The bytes read as text, or their first flaw. -/
def decodeStrict (bytes : List UInt8) : Except DecodeError (List Char) :=
  charsOf bytes 0 (pieces bytes)

end CommentTypes.Text.Utf8
