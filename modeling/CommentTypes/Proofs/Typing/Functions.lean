import CommentTypes.Proofs.Typing.FirstMention
import CommentTypes.Typing.Signature
import Mathlib.Data.List.Induction

/-!
# The functions of a file

What defines a function is said without the code that looks for it (`Node.DefinesFunction`). The
functions of a tree are met in pre-order, and each gives its name a signature. So the names are
listed by the functions that have them first (`Registry.listsFirst_ofTree`), and the signature of a
name is that of the last function that has it (`Registry.find?_ofTree_eq`), with nothing of an
earlier one.
-/

namespace CommentTypes

/-- An expression of this kind is a function. -/
def Kind.isFunction : Kind → Bool
  | .functionExpression | .function | .arrowFunction | .generatorFunction => true
  | _ => false

namespace Node

/-- The node defines a function of the name: it declares a function or a generator, or it is the
declarator of a variable whose value is, parentheses aside, a function. -/
inductive DefinesFunction (n : Node) (name : String) : Prop
  | declaration {held : Node}
      (kind : n.kind = .functionDeclaration ∨ n.kind = .generatorDeclaration)
      (called : n.child? .name = some held) (text : held.text = name) (ne : name ≠ "")
  | declarator {held value : Node} (kind : n.kind = .variableDeclarator)
      (called : n.child? .name = some held) (identifier : held.kind = .identifier)
      (text : held.text = name) (ne : name ≠ "") (valued : n.child? .value = some value)
      (function : value.unwrap.kind.isFunction = true)

variable {n : Node} {name : String}

theorem isFunction_eq_unwrap (n : Node) : n.isFunction = n.unwrap.kind.isFunction := by
  rw [isFunction, shape, bareShape]
  cases n.unwrap.kind <;> simp only [Kind.isFunction, reduceCtorEq, decide_false, decide_true]
  split <;> simp

theorem declaresFunction_iff {k : Kind} :
    k.declaresFunction = true ↔ k = .functionDeclaration ∨ k = .generatorDeclaration := by
  cases k <;> simp [Kind.declaresFunction]

theorem boundName?_eq_some_iff :
    n.boundName? = some name ↔
      ∃ held, n.child? .name = some held ∧ held.kind = .identifier ∧ held.text = name := by
  unfold boundName? identifierIn?
  cases n.child? .name with
  | none => simp
  | some held => simp

theorem definesFunction_of_functionName? (h : n.functionName? = some name) :
    n.DefinesFunction name := by
  unfold functionName? at h
  obtain ⟨h, hne⟩ := Option.filter_eq_some_iff.mp h
  have hne : name ≠ "" := by simpa using hne
  split at h
  · rename_i hkind
    obtain ⟨held, hheld, rfl⟩ := Option.map_eq_some_iff.mp h
    exact .declaration (declaresFunction_iff.mp hkind) hheld rfl hne
  · split at h
    · rename_i hvalue
      obtain ⟨hkind, hvalue⟩ := Bool.and_eq_true_iff.mp hvalue
      obtain ⟨value, hvalued, hfunction⟩ := (Option.any_eq_true ..).mp hvalue
      obtain ⟨held, hheld, hidentifier, htext⟩ := boundName?_eq_some_iff.mp h
      exact .declarator (of_decide_eq_true hkind) hheld hidentifier htext hne hvalued
        (by rwa [← isFunction_eq_unwrap])
    · cases h

theorem functionName?_of_definesFunction (h : n.DefinesFunction name) :
    n.functionName? = some name := by
  unfold functionName?
  refine Option.filter_eq_some_iff.mpr ?_
  cases h with
  | declaration kind called text ne =>
    rw [if_pos (declaresFunction_iff.mpr kind), nameText?, called]
    exact ⟨congrArg some text, by simpa using ne⟩
  | declarator kind called identifier text ne valued function =>
    have hdeclares : ¬ n.kind.declaresFunction = true := by rw [kind]; decide
    have hvalue : (decide (n.kind = .variableDeclarator) &&
        (n.child? .value).any isFunction) = true := by
      rw [valued, Option.any_some, isFunction_eq_unwrap, function, kind]
      rfl
    rw [if_neg hdeclares, if_pos hvalue]
    exact ⟨boundName?_eq_some_iff.mpr ⟨_, called, identifier, text⟩, by simpa using ne⟩

theorem functionName?_eq_some_iff : n.functionName? = some name ↔ n.DefinesFunction name :=
  ⟨definesFunction_of_functionName?, functionName?_of_definesFunction⟩

theorem functionName?_eq_none_iff : n.functionName? = none ↔ ∀ name, ¬ n.DefinesFunction name := by
  rw [Option.eq_none_iff_forall_ne_some]
  exact forall_congr' fun name => not_congr functionName?_eq_some_iff

instance (n : Node) (name : String) : Decidable (n.DefinesFunction name) :=
  decidable_of_iff _ functionName?_eq_some_iff

end Node

/-- The signature that the comments before a function give it, under a name. -/
def Cursor.signatureAs (c : Cursor) (name : String) : Signature :=
  { name, params := c.tags.params, returns := c.tags.returns }

theorem Cursor.signature?_eq_some_iff {c : Cursor} {f : Signature} :
    c.signature? = some f ↔ c.node.DefinesFunction f.name ∧ f = c.signatureAs f.name := by
  rw [signature?, Option.map_eq_some_iff, ← Node.functionName?_eq_some_iff]
  constructor
  · rintro ⟨name, hname, rfl⟩
    exact ⟨hname, rfl⟩
  · rintro ⟨hname, hf⟩
    exact ⟨f.name, hname, hf.symm⟩

namespace Registry

/-- The names are listed by the functions that have them first. -/
theorem listsFirst_register (cs : List Cursor) :
    ListsFirst (fun (c : Cursor) name => c.node.DefinesFunction name) cs
      ((cs.filterMap Cursor.signature?).foldl register {}).names := by
  induction cs using List.reverseRecOn with
  | nil => exact .nil
  | append_singleton cs c ih =>
    rw [List.filterMap_append, List.foldl_append]
    cases hc : c.signature? with
    | none =>
      have hnone : ∀ name, ¬ c.node.DefinesFunction name := fun name hname => by
        have := Cursor.signature?_eq_some_iff (f := c.signatureAs name).mpr ⟨hname, rfl⟩
        rw [hc] at this
        cases this
      rw [List.filterMap_cons_none hc]
      exact ih.concat_known fun name hname => absurd hname (hnone name)
    | some f =>
      obtain ⟨hf, -⟩ := Cursor.signature?_eq_some_iff.mp hc
      rw [List.filterMap_cons_some hc]
      refine ih.insert (fun name => ⟨fun hname => ?_, fun hname => hname ▸ hf⟩) f
      rw [← Node.functionName?_eq_some_iff] at hname hf
      exact Option.some.inj (hname.symm.trans hf)

theorem listsFirst_ofTree (root : Node) :
    ListsFirst (fun (c : Cursor) name => c.node.DefinesFunction name) root.cursors
      (ofTree root).names :=
  listsFirst_register root.cursors

/-- A name has the signature of the last function that has it. -/
theorem find?_ofTree_eq (root : Node) (name : String) :
    (ofTree root).find? name =
      (root.cursors.reverse.find? fun c => c.node.DefinesFunction name).map
        fun c => c.signatureAs name := by
  have hp : (fun c : Cursor => c.signature?.any fun f => decide (f.name = name)) =
      fun c => decide (c.node.DefinesFunction name) := by
    funext c
    rw [Bool.eq_iff_iff, Option.any_eq_true, decide_eq_true_iff]
    constructor
    · rintro ⟨f, hf, hname⟩
      exact of_decide_eq_true hname ▸ (Cursor.signature?_eq_some_iff.mp hf).1
    · intro h
      exact ⟨c.signatureAs name, Cursor.signature?_eq_some_iff.mpr ⟨h, rfl⟩, decide_eq_true rfl⟩
  rw [find?_ofTree, ← List.filterMap_reverse, List.find?_filterMap, hp]
  cases hfind : root.cursors.reverse.find? fun c => decide (c.node.DefinesFunction name) with
  | none => rfl
  | some c =>
    have hc := List.find?_some hfind
    exact Cursor.signature?_eq_some_iff.mpr ⟨of_decide_eq_true hc, rfl⟩

/-- Each signature stands under its own name, and under no other. -/
theorem entries_ofTree {root : Node} {name : String} {f : Signature}
    (h : (name, f) ∈ (ofTree root).entries) :
    f.name = name ∧ (ofTree root).find? f.name = some f := by
  have hfind := (NameMap.mem_entries_iff (listsFirst_ofTree root).nodup).mp h
  have hname : f.name = name := by
    rw [find?_ofTree_eq] at hfind
    obtain ⟨c, -, rfl⟩ := Option.map_eq_some_iff.mp hfind
    rfl
  exact ⟨hname, hname ▸ hfind⟩

theorem map_name_values (root : Node) :
    (ofTree root).values.map Signature.name = (ofTree root).names := by
  rw [NameMap.values, NameMap.names, List.map_map]
  exact List.map_congr_left fun entry hentry => (entries_ofTree hentry).1

theorem find?_of_mem_values {root : Node} {f : Signature} (h : f ∈ (ofTree root).values) :
    (ofTree root).find? f.name = some f := by
  obtain ⟨entry, hentry, rfl⟩ := List.mem_map.mp h
  exact (entries_ofTree hentry).2

end Registry

end CommentTypes
