import CommentTypes.Proofs.Check.Visit
import CommentTypes.Proofs.Tree.Below

/-!
# Syntax errors

A parser marks a node if there is an error or a missing node in its tree (`Node.FaultsMarked`), and
the search for the first such node starts only at a root that is marked. It always ends at one
(`syntaxFault?_eq_firstFault?`), and since the pre-order is the source order, no other starts
earlier (`start_le_of_firstFault?`). So a file has a syntax error exactly if its tree has a node of
that kind, and the error that is reported is the first one (`first_fault_reported`).
-/

namespace CommentTypes

namespace Node

/-- The node is an error, or was put in where the text lacks it. -/
def IsFault (n : Node) : Prop :=
  n.kind = .error ∨ n.missing = true

instance : DecidablePred IsFault := fun n =>
  inferInstanceAs (Decidable (n.kind = .error ∨ n.missing = true))

/-- A node is marked exactly if there is an error or a missing node in its tree. -/
def FaultsMarked (root : Node) : Prop :=
  ∀ n ∈ root.preorder, n.faulty = true ↔ ∃ m ∈ n.preorder, m.IsFault

instance (root : Node) : Decidable root.FaultsMarked :=
  inferInstanceAs (Decidable (∀ n ∈ root.preorder, n.faulty = true ↔ ∃ m ∈ n.preorder, m.IsFault))

variable {root n : Node}

theorem FaultsMarked.faulty_iff (h : root.FaultsMarked) :
    root.faulty = true ↔ ∃ m ∈ root.preorder, m.IsFault :=
  h root root.mem_preorder_self

/-- The first error or missing node. -/
def firstFault? (root : Node) : Option Node :=
  root.preorder.find? fun m => m.IsFault

theorem isSome_firstFault?_iff (root : Node) :
    root.firstFault?.isSome = true ↔ ∃ m ∈ root.preorder, m.IsFault := by
  simp [firstFault?, List.find?_isSome]

/-- Where the marks are right, the search finds what it looks for, and never falls back on the
root. -/
theorem syntaxFault?_eq_firstFault? (h : root.FaultsMarked) :
    root.syntaxFault? = root.firstFault? := by
  have htest : (fun m : Node => decide (m.kind = .error) || m.missing) = fun m => m.IsFault := by
    funext m
    rw [Bool.eq_iff_iff, Bool.or_eq_true, decide_eq_true_iff, decide_eq_true_iff, IsFault]
  rw [syntaxFault?, htest, ← firstFault?]
  cases hfirst : root.firstFault? with
  | none =>
    have hunmarked : ¬ root.faulty = true := by
      rw [h.faulty_iff, ← isSome_firstFault?_iff, hfirst]
      exact Bool.false_ne_true
    exact if_neg hunmarked
  | some n =>
    have hmarked : root.faulty = true := by
      rw [h.faulty_iff, ← isSome_firstFault?_iff, hfirst]
      rfl
    exact if_pos hmarked

/-- No error and no missing node of an ordered tree starts before the first one. -/
theorem start_le_of_firstFault? (h : root.Ordered) (hn : root.firstFault? = some n) :
    ∀ m ∈ root.preorder, m.IsFault → n.start.byte ≤ m.start.byte := by
  intro m hm hfault
  obtain ⟨-, before, rest, hsplit, hbefore⟩ := List.find?_eq_some_iff_append.mp hn
  have hstarts := preorder_starts h
  rw [hsplit] at hstarts hm
  rcases List.mem_append.mp hm with hm | hm
  · exact absurd hfault (by simpa using hbefore m hm)
  · rcases List.mem_cons.mp hm with rfl | hm
    · exact Nat.le_refl _
    · exact (List.pairwise_cons.mp (List.pairwise_append.mp hstarts).2.1).1 m hm

end Node

/-- A file is loaded unless its tree has a syntax error. -/
theorem Source.load_value (path text : String) (root : Node) :
    (load path text root).value = match root.syntaxFault? with
      | some n => .error (malformed path text n)
      | none => .ok (ofTree path text root) := by
  unfold load
  cases root.syntaxFault? <;> rfl

/-- Syntax errors are reported where the first one is. Let the children of each node lie within it
and follow one another, and let those nodes be marked in whose tree there is an error or a missing
node. Then a file cannot be loaded exactly if there is such a node in its tree; the line and the
column that are reported are those of one before which no other starts; the search that a mark at
the root sets off ends at it; and a walk over a file that was loaded comes to no such node. -/
theorem first_fault_reported (path text : String) (root : Node) (hordered : root.Ordered)
    (hmarked : root.FaultsMarked) :
    ((∃ e, (Source.load path text root).value = .error e) ↔ ∃ n ∈ root.preorder, n.IsFault) ∧
    (∀ e, (Source.load path text root).value = .error e →
      ∃ n ∈ root.preorder, n.IsFault ∧
        (∀ m ∈ root.preorder, m.IsFault → n.start.byte ≤ m.start.byte) ∧
        e = Source.malformed path text n ∧
        e.problem.line = some (Check.locationOf (.ofTree path text root) n).line ∧
        e.problem.column = some (Check.locationOf (.ofTree path text root) n).column) ∧
    (root.faulty = true →
      ∃ n, (root.preorder.find? fun m => m.IsFault) = some n ∧ root.syntaxFault? = some n) ∧
    ∀ s, (Source.load path text root).value = .ok s →
      s = .ofTree path text root ∧ ∀ infer, ∀ v ∈ Check.visits (Check.fileContext infer s) {}
        s.root.cursors, ¬ v.2.node.IsFault := by
  have hsearch := Node.syntaxFault?_eq_firstFault? hmarked
  have hsome := root.isSome_firstFault?_iff
  rw [Source.load_value, hsearch]
  cases hfirst : root.firstFault? with
  | some n =>
    rw [hfirst] at hsome
    have hexists := hsome.mp rfl
    have hn : n ∈ root.preorder := List.mem_of_find?_eq_some hfirst
    have hfault : n.IsFault := of_decide_eq_true
      (List.find?_some (p := fun m => decide (Node.IsFault m)) hfirst)
    refine ⟨iff_of_true ⟨_, rfl⟩ hexists, fun e he => ?_, fun _ => ⟨n, hfirst, rfl⟩, fun s hs => ?_⟩
    · cases he
      exact ⟨n, hn, hfault, Node.start_le_of_firstFault? hordered hfirst, rfl, rfl, rfl⟩
    · cases hs
  | none =>
    rw [hfirst] at hsome
    have hnone : ¬ ∃ m ∈ root.preorder, m.IsFault := fun h => Bool.false_ne_true (hsome.mpr h)
    refine ⟨iff_of_false ?_ hnone, fun e he => ?_, fun h => absurd (hmarked.faulty_iff.mp h) hnone,
      fun s hs => ?_⟩
    · rintro ⟨e, he⟩
      cases he
    · cases he
    · cases hs
      refine ⟨rfl, fun infer v hv hfault => hnone ⟨v.2.node, ?_, hfault⟩⟩
      have hcursor := List.mem_map_of_mem (f := Prod.snd) hv
      rw [Check.map_snd_visits] at hcursor
      exact (Node.cursors_within hcursor).node

/-- An entry of an outline in whose tree there is an error or a missing node. -/
def Outline.Entry.marked (e : Outline.Entry) : Outline.Entry :=
  { e with faulty := true }

/-- Two calls without an end: a bracket is missing on the first line, and the second is an error. -/
def openCalls : Source :=
  .ofOutline "a.js" "f(1;\ng(2"
    [.marked (.rule "program" "" 0 8 2), .marked (.rule "expression_statement" "" 0 4 2),
      .marked (.rule "call_expression" "" 0 3 2), .rule "identifier" "function" 0 1 0,
      .marked (.rule "arguments" "arguments" 1 3 2), .rule "number" "" 2 3 0,
      { Outline.Entry.marked (.rule ")" "" 3 3 0) with missing := true }, .rule ";" "" 3 4 0,
      .marked (.rule "ERROR" "" 5 8 2), .rule "identifier" "" 5 6 0, .rule "number" "" 7 8 0]

/-- The first of the two calls, with its end. -/
def closedCall : Source :=
  .ofOutline "b.js" "f(1)"
    [.rule "program" "" 0 4 1, .rule "call_expression" "" 0 4 2,
      .rule "identifier" "function" 0 1 0, .rule "arguments" "arguments" 1 4 1,
      .rule "number" "" 2 3 0]

theorem openCalls_reported :
    (openCalls.root.Ordered ∧ openCalls.root.FaultsMarked ∧ openCalls.root.faulty = true) ∧
    (∃ n ∈ openCalls.root.preorder, n.missing = true ∧
      (∀ m ∈ openCalls.root.preorder, m.IsFault → n.start.byte ≤ m.start.byte) ∧
      (Source.load "a.js" openCalls.text openCalls.root).value =
        .error (.malformed "a.js" true 1 4 "")) ∧
    (closedCall.root.Ordered ∧ closedCall.root.FaultsMarked) ∧
    (Source.load "b.js" closedCall.text closedCall.root).value = .ok closedCall ∧
    ∀ v ∈ Check.visits (Check.fileContext true closedCall) {} closedCall.root.cursors,
      ¬ v.2.node.IsFault := by
  have hordered : openCalls.root.Ordered := by decide +kernel
  have hmarked : openCalls.root.FaultsMarked := by decide +kernel
  have hfaulty : openCalls.root.faulty = true := by decide +kernel
  have hordered' : closedCall.root.Ordered := by decide +kernel
  have hmarked' : closedCall.root.FaultsMarked := by decide +kernel
  obtain ⟨-, hreported, hsearch, -⟩ :=
    first_fault_reported "a.js" openCalls.text openCalls.root hordered hmarked
  obtain ⟨-, -, -, hloaded⟩ :=
    first_fault_reported "b.js" closedCall.text closedCall.root hordered' hmarked'
  have herror : openCalls.root.syntaxFault?.map (Source.malformed "a.js" openCalls.text) =
      some (.malformed "a.js" true 1 4 "") := by decide +kernel
  have hclosed : (Source.load "b.js" closedCall.text closedCall.root).value = .ok closedCall := by
    have hfound : closedCall.root.syntaxFault?.isNone = true := by decide +kernel
    rw [Source.load_value, Option.isNone_iff_eq_none.mp hfound]
    rfl
  obtain ⟨k, -, hk⟩ := hsearch hfaulty
  rw [hk, Option.map_some, Option.some_inj] at herror
  have hvalue : (Source.load "a.js" openCalls.text openCalls.root).value =
      .error (.malformed "a.js" true 1 4 "") := by
    rw [Source.load_value, hk, ← herror]
  obtain ⟨n, hn, -, hfirst, he, -⟩ := hreported _ hvalue
  refine ⟨⟨hordered, hmarked, hfaulty⟩, ⟨n, hn, ?_, hfirst, hvalue⟩, ⟨hordered', hmarked'⟩, hclosed,
    (hloaded _ hclosed).2 true⟩
  injection he with _ hmissing
  exact hmissing.symm

end CommentTypes
