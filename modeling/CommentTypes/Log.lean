/-!
# Log records

Log records. A computation that reports on itself gives its value together with the records made
on the way, oldest first.
-/

namespace CommentTypes

namespace Log

/-- How much a record matters. -/
inductive Level where
  | debug
  | info
  | warning
  | error
  deriving DecidableEq

/-- Levels in ascending order of weight. -/
def Level.rank : Level → Nat
  | .debug => 0
  | .info => 1
  | .warning => 2
  | .error => 3

/-- The name of a level. -/
def Level.name : Level → String
  | .debug => "DEBUG"
  | .info => "INFO"
  | .warning => "WARNING"
  | .error => "ERROR"

/-- Five letters of a level's name, with blanks after a shorter one. -/
def Level.tag (level : Level) : String :=
  String.ofList ((level.name.toList.take 5).rightpad 5 ' ')

/-- The part of the program that speaks. -/
inductive Channel where
  | program
  | parsing
  | signatures
  | checker
  | config
  | runner
  deriving DecidableEq

/-- The name of a channel. -/
def Channel.name : Channel → String
  | .program => "jstype"
  | .parsing => "jstype.parsing"
  | .signatures => "jstype.signatures"
  | .checker => "jstype.checker"
  | .config => "jstype.config"
  | .runner => "jstype.runner"

/-- One thing said. -/
structure Record where
  level : Level
  channel : Channel
  message : String
  deriving DecidableEq

/-- A record as text: its level, its channel and its message. -/
def Record.render (r : Record) : String :=
  s!"[{r.level.tag}] {r.channel.name}: {r.message}"

end Log

/-- A value with the records made while it was computed. -/
structure Logged (α : Type) where
  value : α
  records : List Log.Record := []

namespace Logged

variable {α β : Type}

/-- Goes on with a value; its records come first. -/
def andThen (x : Logged α) (f : α → Logged β) : Logged β :=
  let y := f x.value
  ⟨y.value, x.records ++ y.records⟩

instance : Monad Logged where
  pure a := ⟨a, []⟩
  bind := andThen

@[simp]
theorem value_pure (a : α) : (pure a : Logged α).value = a := rfl

@[simp]
theorem records_pure (a : α) : (pure a : Logged α).records = [] := rfl

@[simp]
theorem value_bind (x : Logged α) (f : α → Logged β) : (x >>= f).value = (f x.value).value := rfl

@[simp]
theorem records_bind (x : Logged α) (f : α → Logged β) :
    (x >>= f).records = x.records ++ (f x.value).records := rfl

/-- Makes one record. -/
def say (level : Log.Level) (channel : Log.Channel) (message : String) : Logged Unit :=
  ⟨(), [⟨level, channel, message⟩]⟩

end Logged

end CommentTypes
