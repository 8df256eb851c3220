import CommentTypes.Annotation.Pattern
import CommentTypes.Text.Blank
import CommentTypes.Text.Word
import CommentTypes.Typing.TypeName

/-!
# The forms of type comments

The four forms in which types are written in comments:

* `inline`: the type between `/*:` and `*/`;
* `typeTag`: the type between braces after `@type`;
* `returnsTag`: what stands between braces after `@return` or `@returns`;
* `paramTag`: what stands between braces after `@param`, and the name after them.

Blanks are free between the parts. The first two forms take a run of word characters and
`[ ] < > | &`, the last two take everything up to the first closing brace.
-/

namespace CommentTypes.Form

/-- The text after a word at its front. -/
def after? (word : List Char) (cs : List Char) : Option (List Char) :=
  if word.isPrefixOf cs then some (cs.drop word.length) else none

/-- The text without the blanks in front. -/
def skipBlanks (cs : List Char) : List Char :=
  cs.dropWhile Text.isBlank

/-- A character of a type in the forms that do not take everything. -/
def isTypeChar (c : Char) : Bool :=
  Text.isWord c || TypeName.complexChars.contains c

/-- The longest run of characters of a class at the front of a text, if it is not empty. -/
def run? (p : Char → Bool) (cs : List Char) : Option (String × List Char) :=
  match cs.takeWhile p with
  | [] => none
  | run => some (String.ofList run, cs.dropWhile p)

/-- What stands before the first closing brace, without the blanks in front; where it is nothing
but blanks, the last of them. There is nothing to take between two braces without a character. -/
def braced? (cs : List Char) : Option (String × List Char) :=
  let inside := cs.takeWhile (· != '\x7d')
  match cs.dropWhile (· != '\x7d') with
  | [] => none
  | _ :: rest =>
    match skipBlanks inside with
    | [] => inside.getLast?.map fun c => (String.ofList [c], rest)
    | cs => some (String.ofList cs, rest)

/-- A type between `/*:` and `*/`. -/
def inline : Pattern := fun cs => do
  let cs ← after? ['/', '*'] cs
  let cs ← after? [':'] (skipBlanks cs)
  let (type, cs) ← run? isTypeChar (skipBlanks cs)
  let cs ← after? ['*', '/'] (skipBlanks cs)
  return ([type], cs)

/-- A type between braces after `@type`. -/
def typeTag : Pattern := fun cs => do
  let cs ← after? "@type".toList cs
  let cs ← after? ['\x7b'] (skipBlanks cs)
  let (type, cs) ← run? isTypeChar (skipBlanks cs)
  let cs ← after? ['\x7d'] (skipBlanks cs)
  return ([type], cs)

/-- A type between braces after `@return` or `@returns`. -/
def returnsTag : Pattern := fun cs => do
  let cs ← after? "@return".toList cs
  let cs := (after? ['s'] cs).getD cs
  let cs ← after? ['\x7b'] (skipBlanks cs)
  let (type, cs) ← braced? cs
  return ([type], cs)

/-- A type between braces after `@param`, and the name that follows. -/
def paramTag : Pattern := fun cs => do
  let cs ← after? "@param".toList cs
  let cs ← after? ['\x7b'] (skipBlanks cs)
  let (type, cs) ← braced? cs
  let (name, cs) ← run? Text.isWord (skipBlanks cs)
  return ([type, name], cs)

end CommentTypes.Form
