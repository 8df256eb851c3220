import CommentTypes.Json.Value
import CommentTypes.Text.Utf8
import CommentTypes.Tree.Node

/-!
# Outlines

Syntax trees as flat lists. A tree is written as its nodes in pre-order, each with the
bytes it covers and its number of children; positions and texts follow from the source text.
-/

namespace CommentTypes.Outline

/-- One node of an outline. The text is given where it is not that of the bytes covered. -/
structure Entry where
  kind : String
  role : String
  start : Nat
  stop : Nat
  named : Bool
  missing : Bool
  faulty : Bool
  children : Nat
  text : Option String := none

/-- Reads an entry written as kind, role, start, end, flags and number of children, and perhaps a
text. The flags add up one for a rule of the grammar, two for a missing node and four for a syntax
error. -/
def Entry.ofJson? : Json → Option Entry
  | .arr
      (.str (.string kind) :: .str (.string role) :: .int start :: .int stop :: .int flags ::
        .int children :: more) =>
    let flags := flags.toNat
    let entry : Entry :=
      { kind, role, start := start.toNat, stop := stop.toNat, children := children.toNat
        named := flags % 2 == 1, missing := flags / 2 % 2 == 1, faulty := flags / 4 % 2 == 1 }
    match more with
    | [] => some entry
    | [.str (.string text)] => some { entry with text := some text }
    | [.null] => some { entry with text := some "" }
    | _ => none
  | _ => none

/-- The offsets just after the line feeds of a text, counted from `offset`. -/
def lineStarts (offset : Nat) : List UInt8 → List Nat
  | [] => []
  | b :: bytes =>
    if b = 0x0a then (offset + 1) :: lineStarts (offset + 1) bytes
    else lineStarts (offset + 1) bytes

/-- The position of a byte, given the offsets at which the later lines start. -/
def positionAt (starts : List Nat) (byte : Nat) : Position :=
  let passed := starts.takeWhile (· ≤ byte)
  { byte, row := passed.length, column := byte - passed.getLast?.getD 0 }

/-- The label of an entry. -/
def Entry.label (bytes : ByteArray) (starts : List Nat) (e : Entry) (id : Nat) : Label :=
  { id
    kind := Kind.ofName e.kind
    role := if e.role = "" then none else some (Role.ofName e.role)
    start := positionAt starts e.start
    stop := positionAt starts e.stop
    named := e.named
    missing := e.missing
    faulty := e.faulty
    text := e.text.getD (String.ofList (Text.Utf8.decode (bytes.extract e.start e.stop).toList)) }

/-- The trees of an outline. Read from its end, each entry takes the trees that follow it as its
children. -/
def assemble (entries : List (Label × Nat)) : List Node :=
  entries.foldr (fun e trees => .node e.1 (trees.take e.2) :: trees.drop e.2) []

/-- The tree of an outline, if it is one tree. -/
def tree? (text : String) (entries : List Entry) : Option Node :=
  let bytes := text.toUTF8
  let starts := lineStarts 0 bytes.toList
  let labels := entries.zipIdx.map fun (e, id) => (e.label bytes starts id, e.children)
  match assemble labels with
  | [root] => some root
  | _ => none

/-- The tree of an outline written in JSON. -/
def ofJson? (text : String) : Json → Option Node
  | .arr items => (items.mapM Entry.ofJson?).bind (tree? text)
  | _ => none

end CommentTypes.Outline
