import CommentTypes.Annotation.Lookup
import CommentTypes.Check.Diagnostic
import CommentTypes.Check.Directive
import CommentTypes.Typing.Compatibility

/-!
# The walk over a file

The walk over a file. Each node is looked at once, in pre-order: declarators and assignments have
their values compared with the type declared, calls have their arguments compared with the types
of the parameters. What is known of the variables changes on the way.
-/

namespace CommentTypes.Check

/-- What does not change during a walk. -/
structure Context where
  source : Source
  /-- Variables without an annotation are tracked by the type found. -/
  infer : Bool
  directives : Directives
  signatures : Registry

/-- What has been found out so far. -/
structure State where
  bindings : Tracker := {}
  diagnostics : List Diagnostic := []
  checks : Nat := 0
  records : List Log.Record := []

/-- The longest value that is shown in a message. -/
def valueLimit : Nat := 40

/-- The text of a short literal, for a message. Other values have none. -/
def valueText (n : Node) : String :=
  match n.shape with
  | .string | .number | .boolean =>
    let text := n.unwrap.text
    if text.length ≤ valueLimit then text else ""
  | _ => ""

/-- Where a node of a file starts. -/
def locationOf (s : Source) (n : Node) : Location :=
  { file := s.path, line := n.line, column := s.column n + 1 }

namespace State

/-- Makes a record. -/
def note (s : State) (message : String) : State :=
  { s with records := s.records ++ [⟨.debug, .checker, message⟩] }

/-- Reports a mismatch. -/
def report (s : State) (d : Diagnostic) : State :=
  { s with diagnostics := s.diagnostics ++ [d] }.note d.gcc

/-- Counts comparisons. -/
def count (s : State) (n : Nat) : State :=
  { s with checks := s.checks + n }

/-- Records a variable. -/
def declare (s : State) (name : String) (declared found : TypeName)
    (complex : Option Bool := none) : State :=
  { s with bindings := s.bindings.declare name (some declared) found complex }

/-- Changes the inferred type of a variable. -/
def refresh (s : State) (name : String) (found : TypeName) : State :=
  { s with bindings := s.bindings.refresh name found }

end State

/-- The mismatch at a node whose value has the wrong type. -/
def mismatch (ctx : Context) (site : Site) (n : Node) (subject : String)
    (expected found : TypeName) (value : Option Node) : Diagnostic :=
  { location := locationOf ctx.source n, subject, expected, found, site
    value := (value.map valueText).getD "" }

/-- A declaration with an annotation: its value is compared with the type declared, and the
variable is recorded whatever comes out. -/
def annotated (ctx : Context) (s : State) (n : Node) (name : String) (value : Node)
    (a : Annotation) : State :=
  let found := inferType (some value) s.bindings ctx.signatures (some a.declared)
  let s := (s.count 1).note s!"{name}: expected {a.declared}, actual {found}"
  let s :=
    if isMatch a.declared found (some value) a.complex then s
    else s.report (mismatch ctx .declaration n name a.declared found (some value))
  s.declare name a.declared found (some a.complex)

/-- A declaration without an annotation: a copy of a variable that is known is recorded with its
type, and so is any variable where types are inferred. -/
def unannotated (ctx : Context) (s : State) (name : String) (value : Node) : State :=
  let found := inferType (some value) s.bindings ctx.signatures none
  match value.identifier?.filter s.bindings.contains with
  | some source =>
    (s.declare name found found).note s!"{name}: tracked as alias of {source} ({found})"
  | none =>
    if ctx.infer then (s.declare name found found).note s!"{name}: inferred {found}"
    else s.note s!"No type annotation found for {name}"

/-- A declarator that binds a name to a value. -/
def declarator (ctx : Context) (s : State) (c : Cursor) : State :=
  match c.node.boundName?, c.node.child? .value with
  | some name, some value =>
    if ctx.directives.cutsOff c.node.line then s
    else match ctx.source.annotation? c with
      | some a => annotated ctx s c.node name value a
      | none => unannotated ctx s name value
  | _, _ => s

/-- An assignment to a variable with a declared type. A type that matches becomes the type inferred
for the variable. -/
def assignment (ctx : Context) (s : State) (n : Node) : State :=
  match n.targetName? with
  | none => s
  | some name =>
    if ctx.directives.cutsOff n.line then s
    else match s.bindings.find? name with
      | some ⟨some declared, _, complex⟩ =>
        let value := n.child? .right
        let found := inferType value s.bindings ctx.signatures (some declared)
        let s := (s.count 1).note s!"assignment to {name}: expected {declared}, actual {found}"
        if isMatch declared found value complex then s.refresh name found
        else s.report (mismatch ctx .assignment n name declared found value)
      | _ => s

/-- One argument of a call, compared with the type of its parameter. -/
def argument (ctx : Context) (s : State) (param : String × TypeName) (value : Node) : State :=
  let found := inferType (some value) s.bindings ctx.signatures none
  if found = param.2 then s
  else s.report (mismatch ctx .argument value param.1 param.2 found (some value))

/-- A call of a function with tagged parameters. All parameters count, also those without an
argument. -/
def call (ctx : Context) (s : State) (n : Node) : State :=
  match n.callee?.bind ctx.signatures.find? with
  | none => s
  | some f =>
    if !f.hasParams || ctx.directives.cutsOff n.line then s
    else
      let s := (f.params.zip n.arguments).foldl (fun s p => argument ctx s p.1 p.2) s
      s.count f.params.length

/-- Looks at one node. -/
def step (ctx : Context) (s : State) (c : Cursor) : State :=
  match c.node.kind with
  | .variableDeclarator => declarator ctx s c
  | .assignment | .compoundAssignment => assignment ctx s c.node
  | .call => call ctx s c.node
  | _ => s

/-- Looks at nodes one after the other. -/
def walk (ctx : Context) (s : State) (cursors : List Cursor) : State :=
  cursors.foldl (step ctx) s

end CommentTypes.Check
