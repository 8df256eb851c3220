import CommentTypes.Command.Options
import CommentTypes.Text.Integer

/-!
# Arguments

Arguments told apart: switches with what is attached to them, plain texts, the divider after which
all is plain, and what looks like a switch and is none.
-/

namespace CommentTypes.Command

/-- What stands in one argument with a switch. -/
inductive Attachment where
  | nothing
  /-- What follows a long form after an equals sign. -/
  | toLong (text : String)
  /-- What follows a letter, at once or after an equals sign. -/
  | toLetter (text : List Char)
  deriving DecidableEq

/-- An argument. -/
inductive Token where
  | plain (text : String)
  | divider
  | switch (s : Switch) (attached : Attachment)
  | unknown (text : String)
  deriving DecidableEq

namespace Token

/-- What an argument that begins as a switch is when no switch is written in full: an abbreviated
long form, a letter with something joined to it, or neither. -/
def ofUnlisted (argument : String) : Except UsageError Token :=
  let cs := argument.toList
  let neither : Token :=
    if Text.isNegative argument || cs.contains ' ' then .plain argument else .unknown argument
  match cs with
  | '-' :: '-' :: _ =>
    let attached : Attachment :=
      match cs.dropWhile (· ≠ '=') with
      | _ :: text => .toLong (String.ofList text)
      | [] => .nothing
    match Switch.beginningWith (cs.takeWhile (· ≠ '=')) with
    | [] => .ok neither
    | [s] => .ok (.switch s attached)
    | several => .error (.ambiguous argument several)
  | '-' :: c :: rest =>
    match Switch.ofLetter? c with
    | some s => .ok (.switch s (.toLetter rest))
    | none => .ok neither
  | _ => .ok (.plain argument)

/-- What an argument before the divider is. -/
def ofArgument (argument : String) : Except UsageError Token :=
  let cs := argument.toList
  if cs.head? ≠ some '-' then .ok (.plain argument)
  else match Switch.ofName? argument with
    | some s => .ok (.switch s .nothing)
    | none =>
      let name := String.ofList (cs.takeWhile (· ≠ '='))
      match Switch.ofName? name, cs.dropWhile (· ≠ '=') with
      | some s, _ :: text =>
        .ok (.switch s (if name = s.long then .toLong (String.ofList text) else .toLetter text))
      | _, _ => ofUnlisted argument

/-- All arguments told apart. -/
def ofArguments : List String → Except UsageError (List Token)
  | [] => .ok []
  | argument :: rest =>
    if argument = "--" then .ok (.divider :: rest.map .plain)
    else do
      let token ← ofArgument argument
      return token :: (← ofArguments rest)

end Token

end CommentTypes.Command
