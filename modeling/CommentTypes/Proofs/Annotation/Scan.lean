import CommentTypes.Annotation.Pattern

/-!
# Reading a text from left to right

A form says how something is written in front of the rest of a text: `form a written rest`. The
places at which it is written in a text (`Place.IsIn`) may overlap. Read from left to right, a text
gives places that do not, and leaves out a place only if it starts inside an earlier one
(`Reading`). There is one such list of places (`Reading.eq`), and it begins with the first place of
all (`Reading.head?_eq_some_iff`).

A pattern that recognises what is written in a form (`Pattern.Reads`) occurs in a text at the places
of that list (`Pattern.exists_reading`), and a search for it finds what is picked out at the first
place (`Pattern.find?_eq_some_iff`).
-/

namespace CommentTypes

/-- A place of a text, in characters, and what is written there. -/
structure Place (α : Type) where
  start : Nat
  stop : Nat
  item : α
  deriving DecidableEq

variable {α : Type} {form : α → List Char → List Char → Prop} {text : List Char}

/-- A form is written at the place. -/
def Place.IsIn (form : α → List Char → List Char → Prop) (text : List Char) (q : Place α) : Prop :=
  ∃ before written rest, text = before ++ (written ++ rest) ∧ form q.item written rest ∧
    q.start = before.length ∧ q.stop = before.length + written.length

/-- The place is of a kind, and no place of that kind starts earlier. -/
def Place.IsFirst (P : Place α → Prop) (q : Place α) : Prop :=
  P q ∧ ∀ r, P r → q.start ≤ r.start

/-- Places come from left to right and do not overlap. Of all places of a kind, one that is left out
starts inside an earlier one. -/
structure Reading (P : Place α → Prop) (places : List (Place α)) : Prop where
  sound : ∀ q ∈ places, P q
  apart : places.Pairwise fun q r => q.stop ≤ r.start
  complete : ∀ q, P q → q ∈ places ∨ ∃ r ∈ places, r.start < q.start ∧ q.start < r.stop

/-- The places of a kind are not empty, and no two of them start together. -/
structure StartApart (P : Place α → Prop) : Prop where
  nonempty : ∀ q, P q → q.start < q.stop
  unique : ∀ q r, P q → P r → q.start = r.start → q = r

namespace Reading

variable {P : Place α → Prop} {q r : Place α} {places places' : List (Place α)}

theorem nil_iff : Reading P [] ↔ ∀ q, ¬ P q := by
  refine ⟨fun h q hq => ?_, fun h => ⟨by simp, .nil, fun q hq => absurd hq (h q)⟩⟩
  simpa using h.complete q hq

theorem congr {Q : Place α → Prop} (h : Reading P places) (hPQ : ∀ q, P q ↔ Q q) :
    Reading Q places :=
  ⟨fun q hq => (hPQ q).mp (h.sound q hq), h.apart, fun q hq => h.complete q ((hPQ q).mpr hq)⟩

/-- Reading goes on behind the first place. -/
theorem cons (hP : StartApart P) (hfirst : q.IsFirst P)
    (h : Reading (fun r => P r ∧ q.stop ≤ r.start) places) : Reading P (q :: places) := by
  obtain ⟨hq, hfirst⟩ := hfirst
  refine ⟨List.forall_mem_cons.mpr ⟨hq, fun r hr => (h.sound r hr).1⟩,
    List.pairwise_cons.mpr ⟨fun r hr => (h.sound r hr).2, h.apart⟩, fun r hr => ?_⟩
  rcases Nat.lt_or_ge r.start q.stop with hlt | hge
  · rcases Nat.eq_or_lt_of_le (hfirst r hr) with heq | hinside
    · exact .inl (hP.unique q r hq hr heq ▸ List.mem_cons_self)
    · exact .inr ⟨q, List.mem_cons_self, hinside, hlt⟩
  · rcases h.complete r ⟨hr, hge⟩ with hmem | ⟨k, hk, hover⟩
    · exact .inl (List.mem_cons_of_mem _ hmem)
    · exact .inr ⟨k, List.mem_cons_of_mem _ hk, hover⟩

theorem tail (hP : StartApart P) (h : Reading P (q :: places)) :
    Reading (fun r => P r ∧ q.stop ≤ r.start) places := by
  obtain ⟨hq, hsound⟩ := List.forall_mem_cons.mp h.sound
  obtain ⟨hapart, hrest⟩ := List.pairwise_cons.mp h.apart
  refine ⟨fun r hr => ⟨hsound r hr, hapart r hr⟩, hrest, fun r ⟨hr, hge⟩ => ?_⟩
  have hpos := hP.nonempty q hq
  rcases h.complete r hr with hmem | ⟨k, hk, hover⟩
  · rcases List.mem_cons.mp hmem with rfl | hmem
    · omega
    · exact .inl hmem
  · rcases List.mem_cons.mp hk with rfl | hk
    · omega
    · exact .inr ⟨k, hk, hover⟩

/-- A reading begins with the first place. -/
theorem start_le (hP : StartApart P) (h : Reading P (q :: places)) (hr : P r) :
    q.start ≤ r.start := by
  have hpos := hP.nonempty q (h.sound q List.mem_cons_self)
  have hlater : ∀ k ∈ q :: places, q.start ≤ k.start := by
    refine List.forall_mem_cons.mpr ⟨Nat.le_refl _, fun k hk => ?_⟩
    have := (List.pairwise_cons.mp h.apart).1 k hk
    omega
  rcases h.complete r hr with hmem | ⟨k, hk, hover⟩
  · exact hlater r hmem
  · have := hlater k hk
    omega

/-- A text is read in one way. -/
theorem eq (hP : StartApart P) (h : Reading P places) (h' : Reading P places') :
    places = places' := by
  induction places generalizing P places' with
  | nil =>
    cases places' with
    | nil => rfl
    | cons r places' => exact absurd (h'.sound r List.mem_cons_self) (nil_iff.mp h r)
  | cons q places ih =>
    have hq := h.sound q List.mem_cons_self
    cases places' with
    | nil => exact absurd hq (nil_iff.mp h' q)
    | cons r places' =>
      have hr := h'.sound r List.mem_cons_self
      obtain rfl := hP.unique q r hq hr (Nat.le_antisymm (h.start_le hP hr) (h'.start_le hP hq))
      have hrest : StartApart fun r => P r ∧ q.stop ≤ r.start :=
        ⟨fun k hk => hP.nonempty k hk.1, fun k l hk hl => hP.unique k l hk.1 hl.1⟩
      rw [ih hrest (h.tail hP) (h'.tail hP)]

theorem head?_eq_some_iff (hP : StartApart P) (h : Reading P places) :
    places.head? = some q ↔ q.IsFirst P := by
  cases places with
  | nil =>
    refine ⟨nofun, fun ⟨hq, _⟩ => ?_⟩
    exact absurd hq (nil_iff.mp h q)
  | cons k places =>
    rw [List.head?_cons, Option.some.injEq]
    have hk := h.sound k List.mem_cons_self
    constructor
    · rintro rfl
      exact ⟨hk, fun r => h.start_le hP⟩
    · rintro ⟨hq, hfirst⟩
      exact hP.unique k q hk hq (Nat.le_antisymm (h.start_le hP hq) (hfirst k hk))

end Reading

/-! ## Patterns -/

/-- The pattern recognises exactly what is written in the form, and picks out some texts of it. -/
structure Pattern.Reads (p : Pattern) (form : α → List Char → List Char → Prop)
    (pick : α → List String) : Prop where
  recognises : ∀ cs parts rest, p cs = some (parts, rest) ↔
    ∃ a written, form a written rest ∧ cs = written ++ rest ∧ parts = pick a
  nonempty : ∀ a written rest, form a written rest → written ≠ []
  unique : ∀ a b written written' rest rest', form a written rest → form b written' rest' →
    written ++ rest = written' ++ rest' → a = b

/-- The place as an occurrence of a pattern that picks out some texts. -/
def Place.occurrence (pick : α → List String) (q : Place α) : Occurrence :=
  ⟨q.start, q.stop, pick q.item⟩

namespace Pattern

variable {p : Pattern} {pick : α → List String}

theorem Reads.startApart (h : p.Reads form pick) (text : List Char) :
    StartApart (Place.IsIn form text) := by
  refine ⟨fun q hq => ?_, fun q r hq hr hstart => ?_⟩
  · obtain ⟨before, written, rest, -, hform, hstart, hstop⟩ := hq
    have := List.length_pos_iff.mpr (h.nonempty _ _ _ hform)
    omega
  · obtain ⟨before, written, rest, rfl, hform, hbefore, hstop⟩ := hq
    obtain ⟨before', written', rest', htext, hform', hbefore', hstop'⟩ := hr
    obtain ⟨rfl, hrest⟩ := List.append_inj htext (by omega)
    have hitem := h.unique _ _ _ _ _ _ hform hform' hrest
    -- what follows is the same too, since the pattern leaves one rest
    have hp := (h.recognises (written ++ rest) _ _).mpr ⟨_, _, hform, rfl, rfl⟩
    have hp' := (h.recognises (written ++ rest) _ _).mpr ⟨_, _, hform', hrest, rfl⟩
    rw [hp] at hp'
    obtain ⟨-, rfl⟩ := Prod.mk.inj (Option.some.inj hp')
    obtain rfl := List.append_cancel_right hrest
    obtain ⟨start, stop, item⟩ := q
    obtain ⟨start', stop', item'⟩ := r
    simp_all

theorem occurrencesFrom_skip (p : Pattern) (offset skip : Nat) (cs : List Char) :
    p.occurrencesFrom offset skip cs = p.occurrencesFrom (offset + skip) 0 (cs.drop skip) := by
  induction cs generalizing offset skip with
  | nil => rw [List.drop_nil, occurrencesFrom, occurrencesFrom]
  | cons c cs ih =>
    cases skip with
    | zero => rfl
    | succ skip =>
      rw [occurrencesFrom, ih, List.drop_succ_cons, Nat.add_assoc, Nat.add_comm 1 skip]

/-- Behind an occurrence the search goes on. -/
theorem occurrencesFrom_of_some {written rest : List Char} {parts : List String}
    (h : p (written ++ rest) = some (parts, rest)) (hne : written ≠ []) (offset : Nat) :
    p.occurrencesFrom offset 0 (written ++ rest) =
      ⟨offset, offset + written.length, parts⟩ ::
        p.occurrencesFrom (offset + written.length) 0 rest := by
  obtain ⟨c, cs, rfl⟩ := List.exists_cons_of_ne_nil hne
  rw [List.cons_append] at h ⊢
  have hlength : (c :: (cs ++ rest)).length - rest.length = cs.length + 1 := by
    rw [List.length_cons, List.length_append]
    omega
  rw [occurrencesFrom, h]
  dsimp only
  rw [hlength, Nat.add_sub_cancel, occurrencesFrom_skip, List.drop_left, List.length_cons,
    Nat.add_assoc, Nat.add_comm 1]

theorem occurrencesFrom_of_none {c : Char} {cs : List Char} (h : p (c :: cs) = none)
    (offset : Nat) :
    p.occurrencesFrom offset 0 (c :: cs) = p.occurrencesFrom (offset + 1) 0 cs := by
  rw [occurrencesFrom, h]

/-- A pattern occurs in the rest of a text at the places that are read there. -/
theorem exists_readingFrom (h : p.Reads form pick) (before cs : List Char) :
    ∃ places, Reading (fun q => q.IsIn form (before ++ cs) ∧ before.length ≤ q.start) places ∧
      p.occurrencesFrom before.length 0 cs = places.map (Place.occurrence pick) := by
  induction hn : cs.length using Nat.strongRecOn generalizing before cs with
  | _ n ih =>
    have hapart := h.startApart (before ++ cs)
    have hapart' : StartApart fun q =>
        Place.IsIn form (before ++ cs) q ∧ before.length ≤ q.start :=
      ⟨fun q hq => hapart.nonempty q hq.1, fun q r hq hr => hapart.unique q r hq.1 hr.1⟩
    cases cs with
    | nil =>
      -- a place behind the end would be empty
      refine ⟨[], Reading.nil_iff.mpr fun q ⟨hq, hle⟩ => ?_, rfl⟩
      have hpos := hapart.nonempty q hq
      obtain ⟨before', written, rest, htext, -, hstart, hstop⟩ := hq
      have hlength := congrArg List.length htext
      simp only [List.length_append, List.length_nil] at hlength
      omega
    | cons c cs =>
      cases hp : p (c :: cs) with
      | none =>
        obtain ⟨places, hreading, hoccurrences⟩ :=
          ih cs.length (by rw [← hn]; exact Nat.lt_succ_self _) (before ++ [c]) cs rfl
        rw [List.append_assoc, List.singleton_append] at hreading
        refine ⟨places, hreading.congr fun q => ?_, ?_⟩
        · -- no place starts at the character that is passed over
          refine and_congr_right fun hq => ?_
          rw [List.length_append, List.length_singleton]
          refine ⟨fun hle => by omega, fun hle => Nat.lt_of_le_of_ne hle fun heq => ?_⟩
          obtain ⟨before', written, rest, htext, hform, hstart, -⟩ := hq
          obtain ⟨rfl, hcs⟩ := List.append_inj htext (by omega)
          rw [(h.recognises _ _ _).mpr ⟨_, _, hform, hcs, rfl⟩] at hp
          cases hp
        · rw [occurrencesFrom_of_none hp, ← hoccurrences, List.length_append,
            List.length_singleton]
      | some found =>
        obtain ⟨parts, rest⟩ := found
        obtain ⟨a, written, hform, hcs, rfl⟩ := (h.recognises _ _ _).mp hp
        have hne := h.nonempty _ _ _ hform
        rw [hcs] at hp hn hapart' ⊢
        rw [List.length_append] at hn
        have hpos := List.length_pos_iff.mpr hne
        obtain ⟨places, hreading, hoccurrences⟩ :=
          ih rest.length (by omega) (before ++ written) rest rfl
        rw [List.append_assoc, List.length_append] at hreading
        rw [List.length_append] at hoccurrences
        refine ⟨⟨before.length, before.length + written.length, a⟩ :: places,
          .cons hapart' ⟨⟨⟨before, written, rest, rfl, hform, rfl, rfl⟩, Nat.le_refl _⟩,
            fun r hr => hr.2⟩ (hreading.congr fun q => ?_), ?_⟩
        · exact ⟨fun ⟨hq, hle⟩ => ⟨⟨hq, by omega⟩, hle⟩, fun ⟨⟨hq, _⟩, hle⟩ => ⟨hq, hle⟩⟩
        · rw [occurrencesFrom_of_some hp hne, hoccurrences]
          rfl

/-- A pattern occurs in a text at the places that are read there. -/
theorem exists_reading (h : p.Reads form pick) (text : String) :
    ∃ places, Reading (Place.IsIn form text.toList) places ∧
      p.occurrences text = places.map (Place.occurrence pick) := by
  obtain ⟨places, hreading, hoccurrences⟩ := exists_readingFrom h [] text.toList
  exact ⟨places, hreading.congr fun q => by simp, hoccurrences⟩

/-- What is found first is what is picked out at the first occurrence. -/
theorem firstFrom_eq_head? (p : Pattern) (offset : Nat) (cs : List Char) :
    firstFrom p cs = (occurrencesFrom p offset 0 cs).head?.map Occurrence.parts := by
  induction cs generalizing offset with
  | nil => rfl
  | cons c cs ih =>
    rw [firstFrom, occurrencesFrom]
    cases p (c :: cs) with
    | none => exact ih (offset + 1)
    | some found => rfl

/-- A search finds what is picked out at the first place. -/
theorem find?_eq_some_iff (h : p.Reads form pick) {text part : String} :
    p.find? text = some part ↔
      ∃ q : Place α, q.IsFirst (Place.IsIn form text.toList) ∧ (pick q.item).head? = some part := by
  obtain ⟨places, hreading, hoccurrences⟩ := exists_reading h text
  have hfind : p.find? text = places.head?.bind fun q => (pick q.item).head? := by
    rw [find?, firstFrom_eq_head? p 0, ← occurrences, hoccurrences, List.head?_map, Option.map_map,
      Option.bind_map]
    rfl
  rw [hfind, Option.bind_eq_some_iff]
  simp only [hreading.head?_eq_some_iff (h.startApart _)]

/-- Where a form is written in a text, there is a first place. -/
theorem Reads.exists_isFirst (h : p.Reads form pick) {text : String} {q : Place α}
    (hq : q.IsIn form text.toList) :
    ∃ r : Place α, r.IsFirst (Place.IsIn form text.toList) := by
  obtain ⟨places, hreading, -⟩ := exists_reading h text
  cases places with
  | nil => exact absurd hq (Reading.nil_iff.mp hreading q)
  | cons r places => exact ⟨r, (hreading.head?_eq_some_iff (h.startApart _)).mp rfl⟩

end Pattern

end CommentTypes
