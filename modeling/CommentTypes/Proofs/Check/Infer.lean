import CommentTypes.Proofs.Check.Count

/-!
# Where types are inferred, more is tracked

A walk that infers types and one that does not see the same declarations and calls, and know
different types, also of the same name. What they know is comparable only in this: a name that the
second tracks, the first tracks too (`step_covers`). That is enough, since an assignment is
compared wherever its target is tracked, whatever is known of it (`checksAt_visit_le`).
-/

namespace CommentTypes

namespace Check

/-- The name that a visit comes to track, if any. -/
def Visit.tracks? (ctx : Context) (known : Tracker) : Visit → Option String
  | pass | assignment _ _ _ _ | call _ _ => none
  | annotated name _ _ => some name
  | unannotated name value =>
    if value.identifier?.any known.contains || ctx.infer then some name else none

/-- A visit tracks what was tracked before and at most one name more. -/
theorem contains_visit_bindings (ctx : Context) (known : Tracker) (v : Visit) (name : String) :
    (v.bindings ctx known).contains name = true ↔
      known.contains name = true ∨ v.tracks? ctx known = some name := by
  cases v with
  | pass | call => simp [Visit.bindings, Visit.tracks?]
  | annotated name' value a =>
    rw [Visit.bindings, Tracker.declare, NameMap.contains_insert, Visit.tracks?, Option.some.injEq]
  | unannotated name' value =>
    simp only [Visit.bindings, Visit.tracks?]
    split
    · rw [Tracker.declare, NameMap.contains_insert, Option.some.injEq]
    · simp
  | assignment name' declared complex value =>
    simp only [Visit.bindings, Visit.tracks?]
    split
    · simp [Tracker.refresh]
    · simp

/-- The site at which a visit compares types, if it does. -/
def Visit.site? : Visit → Option Site
  | pass | unannotated _ _ => none
  | annotated _ _ _ => some .declaration
  | assignment _ _ _ _ => some .assignment
  | call _ _ => some .argument

/-- The number of comparisons that a visit makes at sites of a kind. -/
def Visit.checksAt (site : Site) (v : Visit) : Nat :=
  if v.site? = some site then v.checks else 0

/-- The number of comparisons that a walk from the start makes at sites of a kind. -/
def checksAt (ctx : Context) (site : Site) (cs : List Cursor) : Nat :=
  total (fun v => (visit ctx v.1.bindings v.2).checksAt site) (visits ctx {} cs)

theorem total_add {α : Type} (f g : α → Nat) (as : List α) :
    total (fun a => f a + g a) as = total f as + total g as := by
  induction as with
  | nil => rfl
  | cons a as ih =>
    simp only [total_cons, ih]
    omega

theorem Visit.checks_eq (v : Visit) :
    v.checks = v.checksAt .declaration + v.checksAt .assignment + v.checksAt .argument := by
  cases v <;> simp [checksAt, site?, checks]

/-- The comparisons of a walk are those at the three kinds of sites. -/
theorem walk_checks_by_site (ctx : Context) (cs : List Cursor) :
    (walk ctx {} cs).checks =
      checksAt ctx .declaration cs + checksAt ctx .assignment cs + checksAt ctx .argument cs := by
  rw [walk_checks]
  simp only [checksAt, ← total_add, ← Visit.checks_eq]
  exact Nat.zero_add _

/-! ## Two walks -/

/-- Every name that one tracker has, another has too. -/
def Covers (known' known : Tracker) : Prop :=
  ∀ name, known.contains name = true → known'.contains name = true

/-- The context with types inferred or not. -/
def Context.inferring (ctx : Context) (infer : Bool) : Context :=
  { ctx with infer }

section

variable (ctx : Context) (infer : Bool)

@[simp] theorem inferring_infer : (ctx.inferring infer).infer = infer := rfl
@[simp] theorem inferring_source : (ctx.inferring infer).source = ctx.source := rfl
@[simp] theorem inferring_directives : (ctx.inferring infer).directives = ctx.directives := rfl
@[simp] theorem inferring_signatures : (ctx.inferring infer).signatures = ctx.signatures := rfl

@[simp]
theorem ofDeclarator_inferring (c : Cursor) :
    Visit.ofDeclarator (ctx.inferring infer) c = Visit.ofDeclarator ctx c := by
  simp only [Visit.ofDeclarator, inferring_source]

@[simp]
theorem ofCall_inferring (n : Node) : Visit.ofCall (ctx.inferring infer) n = Visit.ofCall ctx n := by
  simp only [Visit.ofCall, inferring_signatures]

/-- What a node is taken for depends on what is known, and not on whether types are inferred. -/
@[simp]
theorem visit_inferring (known : Tracker) (c : Cursor) :
    visit (ctx.inferring infer) known c = visit ctx known c := by
  simp only [visit, ofDeclarator_inferring, ofCall_inferring, inferring_directives]

end

theorem ofAssignment_cases (known : Tracker) (n : Node) :
    Visit.ofAssignment known n = .pass ∨ ∃ name declared complex value,
      Visit.ofAssignment known n = .assignment name declared complex value := by
  unfold Visit.ofAssignment
  split
  · split
    · exact .inr ⟨_, _, _, _, rfl⟩
    · exact .inl rfl
  · exact .inl rfl

/-- With other things known, a node is taken for the same, or it is an assignment. -/
theorem visit_of_known (ctx : Context) (known known' : Tracker) (c : Cursor) :
    visit ctx known c = visit ctx known' c ∨
      (visit ctx known c = .ofAssignment known c.node ∧
        visit ctx known' c = .ofAssignment known' c.node) := by
  unfold visit
  split
  · exact .inl rfl
  · split
    · exact .inl rfl
    · exact .inr ⟨rfl, rfl⟩
    · exact .inr ⟨rfl, rfl⟩
    · exact .inl rfl
    · exact .inl rfl

/-- Declarations and calls are compared alike, whatever is known. -/
theorem checksAt_visit_eq (ctx : Context) (known known' : Tracker) (c : Cursor) {site : Site}
    (h : site ≠ .assignment) :
    (visit ctx known c).checksAt site = (visit ctx known' c).checksAt site := by
  have hzero : ∀ known, (Visit.ofAssignment known c.node).checksAt site = 0 := by
    intro known
    rcases ofAssignment_cases known c.node with hp | ⟨_, _, _, _, ha⟩
    · rw [hp, Visit.checksAt, if_neg (by nofun)]
    · rw [ha, Visit.checksAt, Visit.site?, if_neg fun e => h (Option.some.inj e).symm]
  rcases visit_of_known ctx known known' c with heq | ⟨hk, hk'⟩
  · rw [heq]
  · rw [hk, hk', hzero, hzero]

/-- An assignment that is compared where less is tracked is compared where more is. -/
theorem checksAt_visit_le (ctx : Context) {known known' : Tracker} (hcov : Covers known' known)
    (hd : ∀ name b, known.find? name = some b → b.declared.isSome = true)
    (hd' : ∀ name b, known'.find? name = some b → b.declared.isSome = true) (c : Cursor) :
    (visit ctx known c).checksAt .assignment ≤ (visit ctx known' c).checksAt .assignment := by
  have hchecks : ∀ known, (Visit.ofAssignment known c.node).checksAt .assignment =
      (Visit.ofAssignment known c.node).checks := by
    intro known
    rcases ofAssignment_cases known c.node with hp | ⟨_, _, _, _, ha⟩
    · rw [hp]; rfl
    · rw [ha]; rfl
  rcases visit_of_known ctx known known' c with heq | ⟨hk, hk'⟩
  · exact Nat.le_of_eq (by rw [heq])
  · rw [hk, hk', hchecks, hchecks, ofAssignment_checks hd, ofAssignment_checks hd']
    cases c.node.targetName? with
    | none => exact Nat.le_refl _
    | some name =>
      rw [Option.any_some, Option.any_some]
      cases ht : known.contains name with
      | false => exact Nat.zero_le _
      | true => exact Nat.le_of_eq (by rw [hcov name ht])

/-- A visit comes to track no less where types are inferred. -/
theorem tracks?_visit (ctx : Context) {known known' : Tracker} {c : Cursor} {name : String}
    (h : (visit ctx known c).tracks? (ctx.inferring false) known = some name) :
    (visit ctx known' c).tracks? (ctx.inferring true) known' = some name := by
  rcases visit_of_known ctx known known' c with heq | ⟨hk, -⟩
  · rw [← heq]
    cases hv : visit ctx known c with
    | pass | assignment | call => rw [hv] at h; cases h
    | annotated name' value a => rw [hv] at h; exact h
    | unannotated name' value =>
      rw [hv, Visit.tracks?] at h
      rw [Visit.tracks?, inferring_infer, Bool.or_true, if_pos rfl]
      split at h
      · exact h
      · cases h
  · rw [hk] at h
    rcases ofAssignment_cases known c.node with hp | ⟨_, _, _, _, ha⟩
    · rw [hp] at h; cases h
    · rw [ha] at h; cases h

/-- One step further, names that are tracked without inferring types are tracked with it. -/
theorem step_covers (ctx : Context) {s t : State} (h : Covers t.bindings s.bindings) (c : Cursor) :
    Covers (step (ctx.inferring true) t c).bindings (step (ctx.inferring false) s c).bindings := by
  intro name
  rw [(step_effect _ s c).bindings, (step_effect _ t c).bindings, contains_visit_bindings,
    contains_visit_bindings, visit_inferring, visit_inferring]
  exact Or.imp (h name) (tracks?_visit ctx)

theorem walk_covers (ctx : Context) {s t : State} (h : Covers t.bindings s.bindings)
    (cs : List Cursor) :
    Covers (walk (ctx.inferring true) t cs).bindings
      (walk (ctx.inferring false) s cs).bindings := by
  induction cs generalizing s t with
  | nil => exact h
  | cons c cs ih => exact ih (step_covers ctx h c)

/-- The declarations and calls that are compared are the same in every walk over the same nodes. -/
theorem checksAt_of_ne (ctx : Context) {site : Site} (h : site ≠ .assignment) (cs : List Cursor) :
    checksAt ctx site cs = total (fun c => (visit ctx {} c).checksAt site) cs := by
  have hsame : (fun v : State × Cursor => (visit ctx v.1.bindings v.2).checksAt site) =
      fun v => (visit ctx {} v.2).checksAt site := by
    funext v
    exact checksAt_visit_eq ctx _ _ v.2 h
  rw [checksAt, hsame, ← total_map (fun c => (visit ctx {} c).checksAt site), map_snd_visits]

/-- No fewer assignments are compared where types are inferred. -/
theorem checksAt_assignment_le (ctx : Context) {s t : State} (hcov : Covers t.bindings s.bindings)
    (hs : s.Accounted) (ht : t.Accounted) (cs : List Cursor) :
    total (fun v => (visit ctx v.1.bindings v.2).checksAt .assignment)
        (visits (ctx.inferring false) s cs) ≤
      total (fun v => (visit ctx v.1.bindings v.2).checksAt .assignment)
        (visits (ctx.inferring true) t cs) := by
  induction cs generalizing s t with
  | nil => exact Nat.le_refl 0
  | cons c cs ih =>
    have hone := checksAt_visit_le ctx hcov hs.declared ht.declared c
    have hrest := ih (step_covers ctx hcov c) (step_accounted _ hs c) (step_accounted _ ht c)
    exact Nat.add_le_add hone hrest

theorem checksAt_inferring_eq (ctx : Context) (site : Site) (h : site ≠ .assignment)
    (cs : List Cursor) :
    checksAt (ctx.inferring false) site cs = checksAt (ctx.inferring true) site cs := by
  rw [checksAt_of_ne _ h, checksAt_of_ne _ h]
  simp only [visit_inferring]

theorem walk_checks_le (ctx : Context) (cs : List Cursor) :
    (walk (ctx.inferring false) {} cs).checks ≤ (walk (ctx.inferring true) {} cs).checks := by
  have hempty : State.Accounted {} := fun _ _ h => by cases h
  have hle := checksAt_assignment_le ctx (s := {}) (t := {}) (fun _ h => h) hempty hempty cs
  rw [walk_checks_by_site, walk_checks_by_site, checksAt_inferring_eq ctx .declaration (by decide),
    checksAt_inferring_eq ctx .argument (by decide)]
  simp only [checksAt, visit_inferring]
  omega

/-- Where types are inferred, more is tracked and no less is compared. At every point of a walk
over a file, the names that are tracked without inferring types are tracked with it, as many
comparisons are made at declarations and at calls, and no fewer at assignments. So the count of the
file is no smaller. -/
theorem inferring_tracks_more (s : Source) :
    (∀ k : Nat,
      (walk (fileContext false s) {} (s.root.cursors.take k)).bindings.names ⊆
        (walk (fileContext true s) {} (s.root.cursors.take k)).bindings.names ∧
      checksAt (fileContext false s) .declaration (s.root.cursors.take k) =
        checksAt (fileContext true s) .declaration (s.root.cursors.take k) ∧
      checksAt (fileContext false s) .argument (s.root.cursors.take k) =
        checksAt (fileContext true s) .argument (s.root.cursors.take k) ∧
      (walk (fileContext false s) {} (s.root.cursors.take k)).checks ≤
        (walk (fileContext true s) {} (s.root.cursors.take k)).checks) ∧
    (∀ (infer : Bool) (k : Nat),
      (walk (fileContext infer s) {} (s.root.cursors.take k)).checks =
        checksAt (fileContext infer s) .declaration (s.root.cursors.take k) +
        checksAt (fileContext infer s) .assignment (s.root.cursors.take k) +
        checksAt (fileContext infer s) .argument (s.root.cursors.take k)) ∧
    (source false s).value.result.checks ≤ (source true s).value.result.checks := by
  obtain ⟨ctx, hctx⟩ : ∃ ctx : Context, ∀ infer, fileContext infer s = ctx.inferring infer :=
    ⟨fileContext false s, fun _ => rfl⟩
  have hresult : (source false s).value.result.checks ≤ (source true s).value.result.checks := by
    cases h : (Directives.ofSource s).skipped with
    | true => exact Nat.le_of_eq (by rw [source_of_skipped h, source_of_skipped h])
    | false =>
      rw [source_of_not_skipped h, source_of_not_skipped h]
      dsimp only
      rw [fileState, fileState, hctx, hctx]
      exact walk_checks_le ctx _
  refine ⟨fun k => ?_, fun infer k => walk_checks_by_site _ _, hresult⟩
  rw [hctx, hctx]
  refine ⟨fun name hname => ?_, checksAt_inferring_eq ctx _ (by decide) _,
    checksAt_inferring_eq ctx _ (by decide) _, walk_checks_le ctx _⟩
  exact NameMap.mem_names.mpr (walk_covers ctx (fun _ h => h) _ name (NameMap.mem_names.mp hname))

end Check

end CommentTypes
