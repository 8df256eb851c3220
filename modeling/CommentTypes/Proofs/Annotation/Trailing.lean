import CommentTypes.Proofs.Annotation.Reach

/-!
# Comments behind a statement

A comment that starts on the line on which the statement before it ends trails that statement
(`Frame.Trails`). It stands in the run of comments before the next statement, and before nothing
else, and there it does not count: it leads no node (`not_mem_leadingComments_of_trails`).

But a documentation comment may also give its type to what starts on the line below it, whatever it
leads (`mem_candidates_iff`). In this way, and in no other (`trailing_comment_reach`), a trailing
comment types the next statement after all (`trailing_comment_supplies`).
-/

namespace CommentTypes

/-- Between the statement `p` and the node of the frame there are only comments, and `m` is one that
starts on the line on which `p` ends. -/
structure Frame.Trails (f : Frame) (p m : Node) : Prop where
  between : ∃ run rest, f.before = run ++ p :: rest ∧ (∀ k ∈ run, k.isComment = true) ∧ m ∈ run
  statement : p.isProper = true
  line : m.start.row = p.stop.row

namespace Frame.Trails

variable {f : Frame} {p m : Node}

/-- The run of comments before the node goes back to the statement. -/
theorem exists_run (h : f.Trails p m) :
    ∃ rest, f.before.dropWhile Node.isComment = p :: rest ∧
      m ∈ f.before.takeWhile Node.isComment := by
  obtain ⟨run, rest, hbefore, hrun, hm⟩ := h.between
  have hp := h.statement
  simp only [Node.isProper, Bool.and_eq_true, Bool.not_eq_true'] at hp
  refine ⟨rest, ?_, ?_⟩
  · rw [hbefore, List.dropWhile_append_of_pos hrun, List.dropWhile_cons_of_neg (by simp [hp.2])]
  · rw [hbefore, List.takeWhile_append_of_pos hrun]
    exact List.mem_append_left _ hm

/-- A comment that trails a statement does not count as one before the node. -/
theorem not_mem_comments (h : f.Trails p m) : m ∉ f.comments := by
  obtain ⟨rest, hdrop, -⟩ := h.exists_run
  have hnamed : p.named = true := (Bool.and_eq_true_iff.mp h.statement).1
  unfold comments
  rw [hdrop]
  dsimp only
  rw [if_pos hnamed]
  intro hm
  exact of_decide_eq_true (List.mem_filter.mp hm).2 h.line

end Frame.Trails

/-- A comment that trails a statement leads no node. -/
theorem not_mem_leadingComments_of_trails {root : Node} (hs : root.Distinct) {t c : Cursor}
    (ht : t ∈ root.cursors) (htc : t.node.isComment = false) (hc : c ∈ root.cursors)
    (hcc : c.node.isComment = false) {f : Frame} {path : List Frame} (hpath : t.path = f :: path)
    {p m : Node} (h : f.Trails p m) : m ∉ c.leadingComments := by
  intro hm
  obtain ⟨u, g, up, huc, hu, hup, hcomment⟩ := Cursor.exists_frame_of_leads hc hm
  obtain ⟨rest, -, hrun⟩ := h.exists_run
  -- the comment is in a run up to both nodes, so they are one
  obtain ⟨k, hk, hkm, hkt⟩ := Cursor.exists_runsUpTo ht hpath hrun
  obtain ⟨l, hl, hlm, hlu⟩ := Cursor.exists_runsUpTo hu hup (g.comments_subset_run hcomment)
  obtain rfl : k = l := hs.cursor_eq hk hl (hkm.trans hlm.symm)
  obtain rfl : t = u := hkt.eq hlu htc (Cursor.not_isComment_of_opens huc hcc)
  obtain ⟨rfl, rfl⟩ := List.cons.inj (hpath.symm.trans hup)
  exact h.not_mem_comments hcomment

/-- The comment is a block comment with a star at the front of its body, and ends on the line above
the node. -/
structure Node.Documents (m n : Node) : Prop where
  block : m.isBlockComment = true
  star : ['*'] <+: Text.trim m.body.toList
  above : m.stop.row + 1 = n.start.row

theorem Node.isDocAbove_iff {m n : Node} : m.isDocAbove n = true ↔ m.Documents n := by
  simp only [isDocAbove, Bool.and_eq_true, beq_iff_eq, List.isPrefixOf_iff_prefix]
  constructor
  · rintro ⟨⟨habove, hblock⟩, hstar⟩
    exact ⟨hblock, hstar, habove⟩
  · rintro ⟨hblock, hstar, habove⟩
    exact ⟨⟨habove, hblock⟩, hstar⟩

namespace Source

variable {s : Source}

/-- Of comments that cover different parts of the text, those that document a node and are not yet
seen are taken. -/
theorem mem_docsAbove_iff {n m : Node} {seen : List (Nat × Nat)} {comments : List Node}
    (h : (comments.map Node.span).Nodup) :
    m ∈ docsAbove n seen comments ↔
      m ∈ comments ∧ m.isDocAbove n = true ∧ m.span ∉ seen := by
  induction comments generalizing seen with
  | nil => simp [docsAbove]
  | cons k comments ih =>
    obtain ⟨hk, hrest⟩ := List.nodup_cons.mp h
    have hlater : ∀ m ∈ comments, m.span ≠ k.span := fun m hm e =>
      hk (e ▸ List.mem_map_of_mem hm)
    rw [docsAbove]
    split
    · rename_i htaken
      simp only [Bool.and_eq_true, Bool.not_eq_true', List.contains_eq_mem,
        decide_eq_false_iff_not] at htaken
      rw [List.mem_cons, ih hrest, List.mem_cons, List.mem_cons]
      constructor
      · rintro (rfl | ⟨hm, hdoc, hseen⟩)
        · exact ⟨.inl rfl, htaken.2, htaken.1⟩
        · exact ⟨.inr hm, hdoc, fun hmem => hseen (.inr hmem)⟩
      · rintro ⟨rfl | hm, hdoc, hseen⟩
        · exact .inl rfl
        · exact .inr ⟨hm, hdoc, fun hmem => hmem.elim (hlater m hm) hseen⟩
    · rename_i hpassed
      rw [ih hrest, List.mem_cons]
      constructor
      · rintro ⟨hm, hdoc, hseen⟩
        exact ⟨.inr hm, hdoc, hseen⟩
      · rintro ⟨rfl | hm, hdoc, hseen⟩
        · exact absurd (by simp [hdoc, hseen]) hpassed
        · exact ⟨hm, hdoc, hseen⟩

/-- What leads a node is a comment of the file. -/
theorem mem_comments_of_leads {c : Cursor} (hc : c ∈ s.root.cursors) {m : Node}
    (hm : m ∈ c.leadingComments) : m ∈ s.comments := by
  obtain ⟨f, -, hcomment⟩ := mem_leadingFrom hm
  have hrun := List.all_eq_true.mp List.all_takeWhile m (f.comments_subset_run hcomment)
  rw [s.comments_eq]
  exact List.mem_filter.mpr ⟨leadingComments_mem_preorder hc hm, hrun⟩

/-- A comment that trails a statement of the file is a comment of the file. -/
theorem mem_comments_of_trails {t : Cursor} (ht : t ∈ s.root.cursors) {f : Frame}
    {path : List Frame} (hpath : t.path = f :: path) {p m : Node} (h : f.Trails p m) :
    m ∈ s.comments := by
  obtain ⟨run, rest, hbefore, hrun, hm⟩ := h.between
  have hmem := (Node.cursors_within ht).before f (by rw [hpath]; exact List.mem_cons_self) m
    (by rw [hbefore]; exact List.mem_append_left _ hm)
  rw [s.comments_eq]
  exact List.mem_filter.mpr ⟨hmem, hrun m hm⟩

/-- The comments that are looked at for a node beside those that lead it are the ones that document
it from the line above. -/
theorem mem_docsAbove_leading_iff (hspans : (s.comments.map Node.span).Nodup) {c : Cursor}
    (hc : c ∈ s.root.cursors) {m : Node} :
    m ∈ docsAbove c.node (c.leadingComments.map Node.span) s.comments ↔
      m ∈ s.comments ∧ m ∉ c.leadingComments ∧ m.Documents c.node := by
  rw [mem_docsAbove_iff hspans, Node.isDocAbove_iff]
  constructor
  · rintro ⟨hm, hdoc, hseen⟩
    exact ⟨hm, fun hlead => hseen (List.mem_map_of_mem hlead), hdoc⟩
  · rintro ⟨hm, hlead, hdoc⟩
    refine ⟨hm, hdoc, fun hseen => ?_⟩
    obtain ⟨k, hk, hspan⟩ := List.mem_map.mp hseen
    exact hlead (List.inj_on_of_nodup_map hspans (mem_comments_of_leads hc hk) hm hspan ▸ hk)

/-- A comment that does not lead a node may hold a tag for it exactly if it documents the node from
the line above. -/
theorem mem_candidates_iff (hspans : (s.comments.map Node.span).Nodup) {c : Cursor}
    (hc : c ∈ s.root.cursors) {m : Node} (hm : m ∈ s.comments) (h : m ∉ c.leadingComments) :
    m ∈ s.candidates c ↔ m.Documents c.node := by
  rw [candidates, List.mem_append, mem_docsAbove_leading_iff hspans hc]
  simp [h, hm]

/-- A comment behind a statement types the next statement only as a documentation comment right
above it. The annotation of a node is the type at one place of the text or in the tag of one
comment. A comment that starts on the line on which the statement before it ends leads no node. Its
tag gives the type of a node only if it is a documentation comment that ends on the line above the
node; and if no two comments of the file cover the same part of the text, exactly then it is one of
those that are looked at for the node. -/
theorem trailing_comment_reach (s : Source) (hs : s.root.Distinct) (t c : Cursor)
    (ht : t ∈ s.root.cursors) (htc : t.node.isComment = false) (hc : c ∈ s.root.cursors)
    (hcc : c.node.isComment = false) (f : Frame) (path : List Frame) (hpath : t.path = f :: path)
    (p m : Node) (h : f.Trails p m) :
    s.annotation? c = ((s.supply? c).bind Supply.type?).map .ofText ∧
    m ∉ c.leadingComments ∧
    (s.supply? c = some (.tag m) → m.Documents c.node) ∧
    ((s.comments.map Node.span).Nodup → (m ∈ s.candidates c ↔ m.Documents c.node)) := by
  have hlead := not_mem_leadingComments_of_trails hs ht htc hc hcc hpath h
  refine ⟨s.annotation?_eq_supply c, hlead, fun hsupply => ?_, fun hspans => ?_⟩
  · rcases List.mem_append.mp (candidate_of_supply? hsupply) with hled | habove
    · exact absurd hled hlead
    · exact Node.isDocAbove_iff.mp (mem_docsAbove habove).2
  · exact mem_candidates_iff hspans hc (mem_comments_of_trails ht hpath h) hlead

/-! ## Comments behind statements that have types -/

/-- Two statements with a comment behind them, of two forms, and a statement on the next line. -/
def commentsBehind : Source :=
  .ofOutline "a.js"
    ("let a = 1; // @type \x7bstring\x7d\nlet b = 2; /** @type \x7bstring\x7d */\n" ++
      "let c = 3;")
    [.rule "program" "" 0 72 5, .rule "lexical_declaration" "" 0 10 1,
      .rule "variable_declarator" "" 4 9 2, .rule "identifier" "name" 4 5 0,
      .rule "number" "value" 8 9 0, .rule "comment" "" 11 28 0,
      .rule "lexical_declaration" "" 29 39 1, .rule "variable_declarator" "" 33 38 2,
      .rule "identifier" "name" 33 34 0, .rule "number" "value" 37 38 0,
      .rule "comment" "" 40 61 0, .rule "lexical_declaration" "" 62 72 1,
      .rule "variable_declarator" "" 66 71 2, .rule "identifier" "name" 66 67 0,
      .rule "number" "value" 70 71 0]

/-- The comment right before a node of a sample, and the statement that it trails. -/
theorem exists_trails_of_any {t : Cursor} {P : Node → Prop} [DecidablePred P]
    (h : (t.path.head?.any fun f => f.before.head?.any fun m => f.before.tail.head?.any fun p =>
      decide (P m ∧ m.isComment = true ∧ p.isProper = true ∧ m.start.row = p.stop.row)) = true) :
    ∃ f path p m, t.path = f :: path ∧ f.Trails p m ∧ P m := by
  obtain ⟨node, _ | ⟨⟨parent, before⟩, path⟩⟩ := t
  · cases h
  · obtain _ | ⟨m, _ | ⟨p, rest⟩⟩ := before
    · cases h
    · cases h
    · obtain ⟨hP, hm, hp, hline⟩ := of_decide_eq_true h
      exact ⟨_, path, p, m, rfl, ⟨⟨[m], rest, rfl, List.forall_mem_singleton.mpr hm,
        List.mem_singleton_self m⟩, hp, hline⟩, hP⟩

namespace commentsBehind

/-- The declaration of `b`. -/
def second : Cursor := commentsBehind.root.cursorAt 6

/-- The declaration of `c`. -/
def third : Cursor := commentsBehind.root.cursorAt 11

/-- The declarator of `b`. -/
def secondDeclarator : Cursor := commentsBehind.root.cursorAt 7

/-- The declarator of `c`. -/
def thirdDeclarator : Cursor := commentsBehind.root.cursorAt 12

end commentsBehind

open commentsBehind

/-- A documentation comment behind a statement types the statement on the next line. -/
theorem trailing_comment_supplies :
    commentsBehind.root.Distinct ∧ third ∈ commentsBehind.root.cursors ∧
    third.node.isComment = false ∧
    thirdDeclarator.path.map (·.parent.id) = [third.node.id, commentsBehind.root.id] ∧
    thirdDeclarator.node.kind = .variableDeclarator ∧
    ∃ f path p m, third.path = f :: path ∧ f.Trails p m ∧
      m.start.row < third.node.start.row ∧
      commentsBehind.supply? thirdDeclarator = some (.tag m) ∧
      commentsBehind.annotation? thirdDeclarator = some (.ofText "string") := by
  have hs : commentsBehind.root.Distinct := by decide +kernel
  have hthird : third ∈ commentsBehind.root.cursors := Node.cursorAt_mem _ _
  obtain ⟨f, path, p, m, hpath, htrails, hid, hline⟩ := exists_trails_of_any (t := third)
    (P := fun m => m.id = 10 ∧ m.start.row < third.node.start.row) (by decide +kernel)
  obtain ⟨k, hk, hkid⟩ := exists_tag_of_any (s := commentsBehind) (c := thirdDeclarator) (i := 10)
    (by decide +kernel)
  -- the comment behind the statement is the one with the tag
  have hm : m ∈ commentsBehind.root.preorder := by
    have hcomment := mem_comments_of_trails hthird hpath htrails
    rw [commentsBehind.comments_eq] at hcomment
    exact (List.mem_filter.mp hcomment).1
  have hk' := candidates_mem_preorder (Node.cursorAt_mem _ _) (candidate_of_supply? hk)
  obtain rfl := List.inj_on_of_nodup_map hs hm hk' (hid.trans hkid.symm)
  exact ⟨hs, hthird, by decide +kernel, by decide +kernel, by decide +kernel, f, path, p, m, hpath,
    htrails, hline, hk, by decide +kernel⟩

theorem commentsBehind_reach :
    (commentsBehind.root.Distinct ∧ (commentsBehind.comments.map Node.span).Nodup ∧
      second.node.isComment = false ∧ third.node.isComment = false ∧
      secondDeclarator.node.isComment = false ∧ thirdDeclarator.node.isComment = false) ∧
    (∃ f path p m, second.path = f :: path ∧ f.Trails p m ∧
      (Form.typeTag.find? m.body).isSome = true ∧ m ∉ secondDeclarator.leadingComments ∧
      commentsBehind.supply? secondDeclarator ≠ some (.tag m)) ∧
    ∃ f path p m, third.path = f :: path ∧ f.Trails p m ∧
      m ∉ thirdDeclarator.leadingComments ∧ m ∈ commentsBehind.candidates thirdDeclarator := by
  have hs : commentsBehind.root.Distinct := by decide +kernel
  have hspans : (commentsBehind.comments.map Node.span).Nodup := by decide +kernel
  have hsecond : second.node.isComment = false := by decide +kernel
  have hthird : third.node.isComment = false := by decide +kernel
  have hsecond' : secondDeclarator.node.isComment = false := by decide +kernel
  have hthird' : thirdDeclarator.node.isComment = false := by decide +kernel
  obtain ⟨f, path, p, m, hpath, htrails, htag, hblock⟩ := exists_trails_of_any (t := second)
    (P := fun m => (Form.typeTag.find? m.body).isSome = true ∧ m.isBlockComment = false)
    (by decide +kernel)
  obtain ⟨g, up, q, k, hup, htrails', hblock', hstar, habove⟩ := exists_trails_of_any (t := third)
    (P := fun m => m.isBlockComment = true ∧ ['*'] <+: Text.trim m.body.toList ∧
      m.stop.row + 1 = thirdDeclarator.node.start.row) (by decide +kernel)
  obtain ⟨-, hlead, honly, -⟩ := trailing_comment_reach commentsBehind hs second secondDeclarator
    (Node.cursorAt_mem _ _) hsecond (Node.cursorAt_mem _ _) hsecond' f path hpath p m htrails
  obtain ⟨-, hlead', -, hcandidate⟩ := trailing_comment_reach commentsBehind hs third
    thirdDeclarator (Node.cursorAt_mem _ _) hthird (Node.cursorAt_mem _ _) hthird' g up hup q k
    htrails'
  refine ⟨⟨hs, hspans, hsecond, hthird, hsecond', hthird'⟩,
    ⟨f, path, p, m, hpath, htrails, htag, hlead, fun hsupply => ?_⟩,
    g, up, q, k, hup, htrails', hlead', (hcandidate hspans).mpr ⟨hblock', hstar, habove⟩⟩
  have hdoc := (honly hsupply).block
  rw [hblock] at hdoc
  cases hdoc

end Source

end CommentTypes
