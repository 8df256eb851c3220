import CommentTypes.Check.File
import CommentTypes.Proofs.Typing.Tracker

/-!
# What one node does to a walk

`visit` says what the walk takes a node for: a declaration with or without an annotation, an
assignment to a variable with a declared type, a call of a function with tagged parameters, or
nothing of the kind. What it then does depends on the bindings alone, and each part of the state
follows a rule of its own (`step_effect`): `Visit.bindings`, `Visit.reports`, `Visit.checks`. A
binding that is new was made by the visit (`mem_visit_bindings`), and a mismatch that is new was
found by it (`Visit.finds_of_mem_reports`).

`visits` pairs the nodes of a walk with the states in which it reaches them. The rules add up over
it: `walk_diagnostics` and `walk_checks`. What every step keeps, every walk keeps
(`walk_induction`).
-/

namespace CommentTypes.Check

/-- What the walk takes a node for. -/
inductive Visit where
  | pass
  | annotated (name : String) (value : Node) (a : Annotation)
  | unannotated (name : String) (value : Node)
  | assignment (name : String) (declared : TypeName) (complex : Bool) (value : Option Node)
  | call (f : Signature) (arguments : List Node)

namespace Visit

/-- A declarator that binds a name to a value. -/
def ofDeclarator (ctx : Context) (c : Cursor) : Visit :=
  match c.node.boundName?, c.node.child? .value with
  | some name, some value =>
    match ctx.source.annotation? c with
    | some a => annotated name value a
    | none => unannotated name value
  | _, _ => pass

/-- An assignment to a variable of which a declared type is known. -/
def ofAssignment (known : Tracker) (n : Node) : Visit :=
  match n.targetName? with
  | some name =>
    match known.find? name with
    | some ⟨some declared, _, complex⟩ => assignment name declared complex (n.child? .right)
    | _ => pass
  | none => pass

/-- A call of a function with tagged parameters. -/
def ofCall (ctx : Context) (n : Node) : Visit :=
  match n.callee?.bind ctx.signatures.find? with
  | some f => if f.hasParams then call f n.arguments else pass
  | none => pass

end Visit

/-- What the walk takes a node for, if it knows these variables when it gets there. -/
def visit (ctx : Context) (known : Tracker) (c : Cursor) : Visit :=
  if ctx.directives.cutsOff c.node.line then .pass
  else match c.node.kind with
    | .variableDeclarator => .ofDeclarator ctx c
    | .assignment | .compoundAssignment => .ofAssignment known c.node
    | .call => .ofCall ctx c.node
    | _ => .pass

/-- The type of a value at a place where a type may be declared for it. -/
def Context.typeOf (ctx : Context) (known : Tracker) (value : Option Node)
    (declared : Option TypeName) : TypeName :=
  inferType value known ctx.signatures declared

/-- The value satisfies the type declared for it. -/
def Context.accepts (ctx : Context) (known : Tracker) (declared : TypeName) (complex : Bool)
    (value : Option Node) : Bool :=
  isMatch declared (ctx.typeOf known value (some declared)) value complex

/-- The mismatch, if there is one, of a value and the type declared for a name. -/
def compared (ctx : Context) (known : Tracker) (site : Site) (n : Node) (name : String)
    (declared : TypeName) (complex : Bool) (value : Option Node) : List Diagnostic :=
  if ctx.accepts known declared complex value then []
  else [mismatch ctx site n name declared (ctx.typeOf known value (some declared)) value]

/-- The mismatch, if there is one, of a parameter and its argument. -/
def argumentReport? (ctx : Context) (known : Tracker) (p : (String × TypeName) × Node) :
    Option Diagnostic :=
  let found := ctx.typeOf known (some p.2) none
  if found = p.1.2 then none
  else some (mismatch ctx .argument p.2 p.1.1 p.1.2 found (some p.2))

namespace Visit

/-- What is known of the variables afterwards. -/
def bindings (ctx : Context) (known : Tracker) : Visit → Tracker
  | pass | call _ _ => known
  | annotated name value a =>
    known.declare name (some a.declared) (ctx.typeOf known (some value) (some a.declared))
      (some a.complex)
  | unannotated name value =>
    let found := ctx.typeOf known (some value) none
    if value.identifier?.any known.contains || ctx.infer then
      known.declare name (some found) found
    else known
  | assignment name declared complex value =>
    if ctx.accepts known declared complex value then
      known.refresh name (ctx.typeOf known value (some declared))
    else known

/-- The mismatches that are reported. -/
def reports (ctx : Context) (known : Tracker) (n : Node) : Visit → List Diagnostic
  | pass | unannotated _ _ => []
  | annotated name value a =>
    compared ctx known .declaration n name a.declared a.complex (some value)
  | assignment name declared complex value =>
    compared ctx known .assignment n name declared complex value
  | call f arguments => (f.params.zip arguments).filterMap (argumentReport? ctx known)

/-- The number of comparisons that are counted. -/
def checks : Visit → Nat
  | pass | unannotated _ _ => 0
  | annotated _ _ _ | assignment _ _ _ _ => 1
  | call f _ => f.params.length

end Visit

/-- What is true of a node that the walk takes for something. -/
def Visit.Taken (ctx : Context) (known : Tracker) (c : Cursor) : Visit → Prop
  | pass => True
  | annotated name value a =>
    c.node.kind = .variableDeclarator ∧ c.node.boundName? = some name ∧
      c.node.child? .value = some value ∧ ctx.source.annotation? c = some a
  | unannotated name value =>
    c.node.kind = .variableDeclarator ∧ c.node.boundName? = some name ∧
      c.node.child? .value = some value ∧ ctx.source.annotation? c = none
  | assignment name declared complex value =>
    ∃ inferred, (c.node.kind = .assignment ∨ c.node.kind = .compoundAssignment) ∧
      c.node.targetName? = some name ∧ known.find? name = some ⟨some declared, inferred, complex⟩ ∧
      c.node.child? .right = value
  | call f arguments =>
    c.node.kind = .call ∧ c.node.callee?.bind ctx.signatures.find? = some f ∧
      f.hasParams = true ∧ c.node.arguments = arguments

theorem visit_of_cutsOff {ctx : Context} {c : Cursor}
    (h : ctx.directives.cutsOff c.node.line = true) (known : Tracker) :
    visit ctx known c = .pass := by
  simp only [visit, h, if_true]

theorem not_cutsOff_of_visit {ctx : Context} {known : Tracker} {c : Cursor}
    (h : visit ctx known c ≠ .pass) : ctx.directives.cutsOff c.node.line = false := by
  rw [← Bool.not_eq_true]
  exact fun hcut => h (visit_of_cutsOff hcut known)

theorem ofDeclarator_taken {ctx : Context} {c : Cursor} (known : Tracker)
    (hk : c.node.kind = .variableDeclarator) :
    (Visit.ofDeclarator ctx c).Taken ctx known c := by
  unfold Visit.ofDeclarator
  split
  · rename_i name value hname hvalue
    split
    · rename_i a ha
      exact ⟨hk, hname, hvalue, ha⟩
    · rename_i ha
      exact ⟨hk, hname, hvalue, ha⟩
  · trivial

theorem ofAssignment_taken {c : Cursor} (ctx : Context) (known : Tracker)
    (hk : c.node.kind = .assignment ∨ c.node.kind = .compoundAssignment) :
    (Visit.ofAssignment known c.node).Taken ctx known c := by
  unfold Visit.ofAssignment
  split
  · rename_i name hname
    split
    · rename_i declared inferred complex hf
      exact ⟨inferred, hk, hname, hf, rfl⟩
    · trivial
  · trivial

theorem ofCall_taken {ctx : Context} {c : Cursor} (known : Tracker) (hk : c.node.kind = .call) :
    (Visit.ofCall ctx c.node).Taken ctx known c := by
  unfold Visit.ofCall
  split
  · rename_i f hf
    split
    · rename_i hp
      exact ⟨hk, hf, hp, rfl⟩
    · trivial
  · trivial

/-- The walk takes a node only for what it is. -/
theorem visit_taken (ctx : Context) (known : Tracker) (c : Cursor) :
    (visit ctx known c).Taken ctx known c := by
  unfold visit
  split
  · trivial
  · split
    · exact ofDeclarator_taken known ‹_›
    · exact ofAssignment_taken ctx known (.inl ‹_›)
    · exact ofAssignment_taken ctx known (.inr ‹_›)
    · exact ofCall_taken known ‹_›
    · trivial

/-- A state becomes another one by the rules of a visit to a node. -/
structure Effect (ctx : Context) (n : Node) (v : Visit) (s s' : State) : Prop where
  bindings : s'.bindings = v.bindings ctx s.bindings
  diagnostics : s'.diagnostics = s.diagnostics ++ v.reports ctx s.bindings n
  checks : s'.checks = s.checks + v.checks

/-! ## What the small changes of a state keep -/

namespace State

variable (s : State) (d : Diagnostic) (name message : String) (declared found : TypeName)
  (complex : Option Bool) (n : Nat)

@[simp] theorem note_bindings : (s.note message).bindings = s.bindings := rfl
@[simp] theorem note_diagnostics : (s.note message).diagnostics = s.diagnostics := rfl
@[simp] theorem note_checks : (s.note message).checks = s.checks := rfl

@[simp] theorem report_bindings : (s.report d).bindings = s.bindings := rfl
@[simp] theorem report_diagnostics : (s.report d).diagnostics = s.diagnostics ++ [d] := rfl
@[simp] theorem report_checks : (s.report d).checks = s.checks := rfl

@[simp] theorem count_bindings : (s.count n).bindings = s.bindings := rfl
@[simp] theorem count_diagnostics : (s.count n).diagnostics = s.diagnostics := rfl
@[simp] theorem count_checks : (s.count n).checks = s.checks + n := rfl

@[simp] theorem declare_bindings : (s.declare name declared found complex).bindings =
    s.bindings.declare name (some declared) found complex := rfl
@[simp] theorem declare_diagnostics :
    (s.declare name declared found complex).diagnostics = s.diagnostics := rfl
@[simp] theorem declare_checks : (s.declare name declared found complex).checks = s.checks := rfl

@[simp] theorem refresh_bindings :
    (s.refresh name found).bindings = s.bindings.refresh name found := rfl
@[simp] theorem refresh_diagnostics : (s.refresh name found).diagnostics = s.diagnostics := rfl
@[simp] theorem refresh_checks : (s.refresh name found).checks = s.checks := rfl

end State

/-! ## One step -/

theorem Effect.pass (ctx : Context) (n : Node) (s : State) : Effect ctx n .pass s s :=
  ⟨rfl, by simp [Visit.reports], by simp [Visit.checks]⟩

theorem annotated_effect (ctx : Context) (s : State) (n : Node) (name : String) (value : Node)
    (a : Annotation) :
    Effect ctx n (.annotated name value a) s (annotated ctx s n name value a) := by
  by_cases h : ctx.accepts s.bindings a.declared a.complex (some value)
  all_goals
    simp only [Context.accepts, Context.typeOf] at h
    constructor <;>
      simp [annotated, Visit.bindings, Visit.reports, Visit.checks, compared, Context.accepts,
        Context.typeOf, h]

theorem unannotated_effect (ctx : Context) (s : State) (n : Node) (name : String) (value : Node) :
    Effect ctx n (.unannotated name value) s (unannotated ctx s name value) := by
  have hany : (value.identifier?.filter s.bindings.contains).isSome =
      value.identifier?.any s.bindings.contains := by
    cases value.identifier? <;> simp [Option.filter, apply_ite Option.isSome]
  cases h : value.identifier?.filter s.bindings.contains with
  | some source =>
    rw [h, Option.isSome_some] at hany
    constructor <;>
      simp [unannotated, Visit.bindings, Visit.reports, Visit.checks, Context.typeOf, h, ← hany]
  | none =>
    rw [h, Option.isSome_none] at hany
    cases hi : ctx.infer
    all_goals
      constructor <;>
        simp [unannotated, Visit.bindings, Visit.reports, Visit.checks, Context.typeOf, h, hi, ← hany]

theorem declarator_effect {ctx : Context} {s : State} {c : Cursor}
    (h : ctx.directives.cutsOff c.node.line = false) :
    Effect ctx c.node (.ofDeclarator ctx c) s (declarator ctx s c) := by
  simp only [declarator, Visit.ofDeclarator, h]
  cases c.node.boundName? with
  | none => exact .pass ..
  | some name =>
    cases c.node.child? .value with
    | none => exact .pass ..
    | some value =>
      cases ctx.source.annotation? c with
      | none => exact unannotated_effect ..
      | some a => exact annotated_effect ..

theorem assignment_effect {ctx : Context} {s : State} {n : Node}
    (h : ctx.directives.cutsOff n.line = false) :
    Effect ctx n (.ofAssignment s.bindings n) s (assignment ctx s n) := by
  simp only [assignment, Visit.ofAssignment, h]
  cases n.targetName? with
  | none => exact .pass ..
  | some name =>
    dsimp only
    cases s.bindings.find? name with
    | none => exact .pass ..
    | some b =>
      obtain ⟨_ | declared, inferred, complex⟩ := b
      · exact .pass ..
      by_cases ha : ctx.accepts s.bindings declared complex (n.child? .right)
      all_goals
        simp only [Context.accepts, Context.typeOf] at ha
        constructor <;>
          simp [Visit.bindings, Visit.reports, Visit.checks, compared, Context.accepts,
            Context.typeOf, ha]

theorem argument_eq (ctx : Context) (s : State) (p : (String × TypeName) × Node) :
    argument ctx s p.1 p.2 = (argumentReport? ctx s.bindings p).elim s s.report := by
  by_cases h : inferType (some p.2) s.bindings ctx.signatures none = p.1.2
  · simp [argument, argumentReport?, Context.typeOf, h]
  · simp [argument, argumentReport?, Context.typeOf, h]

/-- Arguments are compared from left to right, and only mismatches come of it. -/
theorem arguments_effect (ctx : Context) (ps : List ((String × TypeName) × Node)) (s : State) :
    let s' := ps.foldl (fun s p => argument ctx s p.1 p.2) s
    s'.bindings = s.bindings ∧ s'.checks = s.checks ∧
      s'.diagnostics = s.diagnostics ++ ps.filterMap (argumentReport? ctx s.bindings) := by
  induction ps generalizing s with
  | nil => simp
  | cons p ps ih =>
    simp only [List.foldl_cons, argument_eq ctx s p]
    cases hr : argumentReport? ctx s.bindings p with
    | none =>
      rw [List.filterMap_cons_none hr]
      exact ih s
    | some d =>
      obtain ⟨hb, hc, hd⟩ := ih (s.report d)
      rw [List.filterMap_cons_some hr]
      exact ⟨hb, hc, by simpa using hd⟩

theorem call_effect {ctx : Context} {s : State} {n : Node}
    (h : ctx.directives.cutsOff n.line = false) :
    Effect ctx n (.ofCall ctx n) s (call ctx s n) := by
  simp only [call, Visit.ofCall, h, Bool.or_false]
  cases n.callee?.bind ctx.signatures.find? with
  | none => exact .pass ..
  | some f =>
    simp only
    cases hp : f.hasParams with
    | false => exact .pass ..
    | true =>
      obtain ⟨hb, hc, hd⟩ := arguments_effect ctx (f.params.zip n.arguments) s
      exact ⟨hb, hd, congrArg (· + f.params.length) hc⟩

/-- A node that is cut off changes nothing. -/
theorem step_of_cutsOff {ctx : Context} {s : State} {c : Cursor}
    (h : ctx.directives.cutsOff c.node.line = true) : step ctx s c = s := by
  unfold step
  split
  · simp only [declarator, h]
    split <;> rfl
  · simp only [assignment, h]
    split <;> rfl
  · simp only [assignment, h]
    split <;> rfl
  · simp only [call, h, Bool.or_true]
    split <;> rfl
  · rfl

/-- Nodes of kinds without a name of their own change nothing. -/
theorem step_of_other {ctx : Context} {s : State} {c : Cursor} {name : String}
    (h : c.node.kind = .other name) : step ctx s c = s := by
  unfold step
  rw [h]

/-- Looking at a node follows the rules of what the node is taken for. -/
theorem step_effect (ctx : Context) (s : State) (c : Cursor) :
    Effect ctx c.node (visit ctx s.bindings c) s (step ctx s c) := by
  cases h : ctx.directives.cutsOff c.node.line with
  | true =>
    rw [step_of_cutsOff h, visit, h]
    exact .pass ..
  | false =>
    simp only [visit, h, step]
    generalize c.node.kind = kind
    cases kind with
    | variableDeclarator => exact declarator_effect h
    | assignment | compoundAssignment => exact assignment_effect h
    | call => exact call_effect h
    | _ => exact .pass ..

/-! ## New bindings -/

/-- What a visit may come to know of a name. -/
inductive Visit.Makes (ctx : Context) (known : Tracker) : Visit → String → Binding → Prop where
  | annotated (name : String) (value : Node) (a : Annotation) :
    Makes ctx known (.annotated name value a) name
      ⟨some a.declared, ctx.typeOf known (some value) (some a.declared), a.complex⟩
  | unannotated (name : String) (value : Node) :
    Makes ctx known (.unannotated name value) name
      (Tracker.binding (some (ctx.typeOf known (some value) none))
        (ctx.typeOf known (some value) none))
  | assignment (name : String) (declared : TypeName) (complex : Bool) (value : Option Node)
    (accepted : ctx.accepts known declared complex value = true) :
    Makes ctx known (.assignment name declared complex value) name
      ⟨some declared, ctx.typeOf known value (some declared), complex⟩

/-- A binding known after a node was known before, or the visit made it. -/
theorem mem_visit_bindings {ctx : Context} {known : Tracker} {c : Cursor} {name : String}
    {b : Binding} (h : (name, b) ∈ ((visit ctx known c).bindings ctx known).entries) :
    (name, b) ∈ known.entries ∨ (visit ctx known c).Makes ctx known name b := by
  cases hv : visit ctx known c with
  | pass | call => exact .inl (by simpa [hv, Visit.bindings] using h)
  | annotated name' value a =>
    rw [hv] at h
    rcases Tracker.mem_declare h with ho | he
    · exact .inl ho
    · cases he
      exact .inr (.annotated ..)
  | unannotated name' value =>
    rw [hv] at h
    simp only [Visit.bindings] at h
    split at h
    · rcases Tracker.mem_declare h with ho | he
      · exact .inl ho
      · cases he
        exact .inr (.unannotated ..)
    · exact .inl h
  | assignment name' declared complex value =>
    have ht := visit_taken ctx known c
    rw [hv] at h ht
    obtain ⟨inferred, -, -, hf, -⟩ := ht
    simp only [Visit.bindings] at h
    split at h
    · rename_i ha
      rcases Tracker.mem_refresh hf h with ho | he
      · exact .inl ho
      · cases he
        exact .inr (.assignment _ _ _ _ ha)
    · exact .inl h

/-! ## New mismatches -/

/-- What a visit to a node may report. -/
inductive Visit.Finds (ctx : Context) (known : Tracker) (n : Node) : Visit → Diagnostic → Prop where
  | declaration (name : String) (value : Node) (a : Annotation)
    (refused : ctx.accepts known a.declared a.complex (some value) = false) :
    Finds ctx known n (.annotated name value a)
      (mismatch ctx .declaration n name a.declared
        (ctx.typeOf known (some value) (some a.declared)) (some value))
  | assignment (name : String) (declared : TypeName) (complex : Bool) (value : Option Node)
    (refused : ctx.accepts known declared complex value = false) :
    Finds ctx known n (.assignment name declared complex value)
      (mismatch ctx .assignment n name declared (ctx.typeOf known value (some declared)) value)
  | argument (f : Signature) (arguments : List Node) (param : String × TypeName) (value : Node)
    (paired : (param, value) ∈ f.params.zip arguments)
    (refused : ctx.typeOf known (some value) none ≠ param.2) :
    Finds ctx known n (.call f arguments)
      (mismatch ctx .argument value param.1 param.2 (ctx.typeOf known (some value) none)
        (some value))

/-- What is reported is a mismatch that the visit finds. -/
theorem Visit.finds_of_mem_reports {ctx : Context} {known : Tracker} {n : Node} {v : Visit}
    {d : Diagnostic} (h : d ∈ v.reports ctx known n) : v.Finds ctx known n d := by
  cases v with
  | pass | unannotated => cases h
  | annotated name value a =>
    simp only [reports, compared] at h
    split at h
    · cases h
    · rename_i hrefused
      obtain rfl := List.mem_singleton.mp h
      exact .declaration name value a (Bool.eq_false_iff.mpr hrefused)
  | assignment name declared complex value =>
    simp only [reports, compared] at h
    split at h
    · cases h
    · rename_i hrefused
      obtain rfl := List.mem_singleton.mp h
      exact .assignment name declared complex value (Bool.eq_false_iff.mpr hrefused)
  | call f arguments =>
    obtain ⟨⟨param, value⟩, hp, hd⟩ := List.mem_filterMap.mp h
    simp only [argumentReport?] at hd
    split at hd
    · cases hd
    · rename_i hrefused
      cases hd
      exact .argument f arguments param value hp hrefused

/-! ## Walks -/

@[simp]
theorem walk_nil (ctx : Context) (s : State) : walk ctx s [] = s := rfl

@[simp]
theorem walk_cons (ctx : Context) (s : State) (c : Cursor) (cs : List Cursor) :
    walk ctx s (c :: cs) = walk ctx (step ctx s c) cs := rfl

theorem walk_append (ctx : Context) (s : State) (cs ds : List Cursor) :
    walk ctx s (cs ++ ds) = walk ctx (walk ctx s cs) ds :=
  List.foldl_append ..

/-- What every step keeps holds all along a walk. -/
theorem walk_induction {ctx : Context} {P : State → Prop} (hstep : ∀ s c, P s → P (step ctx s c))
    {s : State} (hs : P s) (cs : List Cursor) : P (walk ctx s cs) := by
  induction cs generalizing s with
  | nil => exact hs
  | cons c cs ih => exact ih (hstep s c hs)

/-- What every step keeps at the nodes of a walk holds all along it. -/
theorem walk_induction_of_mem {ctx : Context} {P : State → Prop} {cs : List Cursor}
    (hstep : ∀ c ∈ cs, ∀ s, P s → P (step ctx s c)) {s : State} (hs : P s) :
    P (walk ctx s cs) := by
  induction cs generalizing s with
  | nil => exact hs
  | cons c cs ih =>
    obtain ⟨hc, hcs⟩ := List.forall_mem_cons.mp hstep
    exact ih hcs (hc s hs)

/-- What two steps keep in step, at a node and at the one that takes its place, holds all along two
walks. -/
theorem walk_in_step {ctx ctx' : Context} {R : State → State → Prop} {f : Cursor → Cursor}
    {cs : List Cursor} (hstep : ∀ c ∈ cs, ∀ s t, R s t → R (step ctx s c) (step ctx' t (f c)))
    {s t : State} (h : R s t) : R (walk ctx s cs) (walk ctx' t (cs.map f)) := by
  induction cs generalizing s t with
  | nil => exact h
  | cons c cs ih =>
    obtain ⟨hc, hcs⟩ := List.forall_mem_cons.mp hstep
    exact ih hcs (hc s t h)

/-- The nodes of a walk, each with the state in which the walk reaches it. -/
def visits (ctx : Context) : State → List Cursor → List (State × Cursor)
  | _, [] => []
  | s, c :: cs => (s, c) :: visits ctx (step ctx s c) cs

@[simp]
theorem map_snd_visits (ctx : Context) (s : State) (cs : List Cursor) :
    (visits ctx s cs).map Prod.snd = cs := by
  induction cs generalizing s with
  | nil => rfl
  | cons c cs ih => simp [visits, ih]

/-- A node is reached in the state to which the walk over the nodes before it leads. -/
theorem exists_of_mem_visits {ctx : Context} {s : State} {cs : List Cursor} {v : State × Cursor}
    (h : v ∈ visits ctx s cs) : ∃ before after, cs = before ++ v.2 :: after ∧
      v.1 = walk ctx s before := by
  induction cs generalizing s with
  | nil => cases h
  | cons c cs ih =>
    rcases List.mem_cons.mp h with rfl | hr
    · exact ⟨[], cs, rfl, rfl⟩
    · obtain ⟨before, after, hcs, hv⟩ := ih hr
      exact ⟨c :: before, after, by rw [hcs, List.cons_append], hv⟩

/-- The mismatches of a walk are those of its visits, in their order. -/
theorem walk_diagnostics (ctx : Context) (s : State) (cs : List Cursor) :
    (walk ctx s cs).diagnostics = s.diagnostics ++ (visits ctx s cs).flatMap fun v =>
      (visit ctx v.1.bindings v.2).reports ctx v.1.bindings v.2.node := by
  induction cs generalizing s with
  | nil => simp [visits]
  | cons c cs ih =>
    rw [walk_cons, ih, (step_effect ctx s c).diagnostics, List.append_assoc]
    rfl

/-- The count of a walk is the sum over its visits. -/
theorem walk_checks (ctx : Context) (s : State) (cs : List Cursor) :
    (walk ctx s cs).checks = s.checks +
      total (fun v => (visit ctx v.1.bindings v.2).checks) (visits ctx s cs) := by
  induction cs generalizing s with
  | nil => simp [visits]
  | cons c cs ih =>
    rw [walk_cons, ih, (step_effect ctx s c).checks, Nat.add_assoc]
    rfl

/-! ## Files -/

/-- What the walk over a file works with. -/
def fileContext (infer : Bool) (s : Source) : Context :=
  { source := s, infer, directives := .ofSource s, signatures := .ofTree s.root }

/-- The state at the end of the walk over a file. -/
def fileState (infer : Bool) (s : Source) : State :=
  walk (fileContext infer s) {} s.root.cursors

/-- A file that says so is skipped. -/
theorem source_of_skipped {infer : Bool} {s : Source}
    (h : (Directives.ofSource s).skipped = true) :
    (source infer s).value = { result := { file := s.path, status := .skipped } } := by
  simp [source, h]

/-- The outcome for any other file is what the walk over it finds. -/
theorem source_of_not_skipped {infer : Bool} {s : Source}
    (h : (Directives.ofSource s).skipped = false) :
    (source infer s).value =
      { result :=
          { file := s.path, status := .checked, diagnostics := (fileState infer s).diagnostics
            checks := (fileState infer s).checks }
        bindings := (fileState infer s).bindings
        signatures := .ofTree s.root } := by
  simp only [source, h, Bool.false_eq_true, if_false]
  cases (Directives.ofSource s).cutoff <;> rfl

/-- A text is checked as a source file, unless its tree has a syntax error. -/
theorem text_eq (infer : Bool) (path content : String) (root : Node) :
    (text infer path content root).value = match root.syntaxFault? with
      | some n => .error (Source.malformed path content n)
      | none => .ok (source infer (.ofTree path content root)).value := by
  simp only [text, Source.load, Logged.value_bind]
  cases root.syntaxFault? <;> rfl

end CommentTypes.Check
