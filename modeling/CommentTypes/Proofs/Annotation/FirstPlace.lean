import CommentTypes.Proofs.Annotation.Supply

/-!
# The type that is written first

A search for the inline form or for a type tag finds the type at the first place of the text at
which the form is written, and finds nothing only if it is written nowhere (`FindsFirst`). The text
of a type has no blank in it and none of the marks that end the forms (`Form.Bare`).
-/

namespace CommentTypes

namespace Form

/-- A type tag as it is written, with blanks between its parts. -/
def IsTypeTag (type : String) (cs : List Char) : Prop :=
  IsMarked "@type".toList ['\x7b'] ['\x7d'] type cs

theorem reads_inline : inline.Reads (ended IsInline) fun type => [type] :=
  reads_marked (by decide) (by decide) (by decide +kernel)

theorem reads_typeTag : typeTag.Reads (ended IsTypeTag) fun type => [type] :=
  reads_marked (by decide) (by decide) (by decide +kernel)

/-- The text of a type: not empty, without blanks, and without a character that ends a form. -/
def Bare (type : String) : Prop :=
  type.toList ≠ [] ∧ ∀ c ∈ type.toList, Text.isBlank c = false ∧ c ≠ '*' ∧ c ≠ '\x7d'

theorem IsMarked.bare {opening mark closing cs : List Char} {type : String}
    (h : IsMarked opening mark closing type cs) : Bare type := by
  obtain ⟨_, _, _, -, -, -, hne, htype, -⟩ := h
  refine ⟨hne, fun c hc => ⟨not_isBlank_of_isTypeChar (htype c hc), ?_, ?_⟩⟩
  · rintro rfl
    exact absurd (htype _ hc) (by decide +kernel)
  · rintro rfl
    exact absurd (htype _ hc) (by decide +kernel)

/-- The type is written in a form in the text, at a place before which the form does not start. -/
def WrittenFirst (form : String → List Char → Prop) (text type : String) : Prop :=
  ∃ q : Place String, q.IsFirst (Place.IsIn (ended form) text.toList) ∧ q.item = type

/-- Some type is written in a form in the text. -/
def Written (form : String → List Char → Prop) (text : String) : Prop :=
  ∃ type written, form type written ∧ written <:+: text.toList

theorem written_iff {form : String → List Char → Prop} {text : String} :
    Written form text ↔ ∃ q : Place String, q.IsIn (ended form) text.toList := by
  constructor
  · rintro ⟨type, written, hform, before, rest, htext⟩
    refine ⟨⟨before.length, before.length + written.length, type⟩, before, written, rest, ?_, hform,
      rfl, rfl⟩
    rw [← htext, List.append_assoc]
  · rintro ⟨q, before, written, rest, htext, hform, -, -⟩
    exact ⟨q.item, written, hform, before, rest, by rw [htext, List.append_assoc]⟩

end Form

namespace Pattern

open Form (ended WrittenFirst Written)

/-- A search for the pattern finds the first place at which a type is written in a form. -/
structure FindsFirst (p : Pattern) (form : String → List Char → Prop) : Prop where
  found : ∀ text, (p.find? text).isSome = true ↔ Written form text
  type : ∀ text type, p.find? text = some type ↔ WrittenFirst form text type
  place : ∀ text (q : Place String),
    (p.occurrences text).head? = some ⟨q.start, q.stop, [q.item]⟩ ↔
      q.IsFirst (Place.IsIn (ended form) text.toList)
  unique : ∀ text (q r : Place String),
    q.IsIn (ended form) text → r.IsIn (ended form) text → q.start = r.start → q = r

variable {p : Pattern} {form : String → List Char → Prop}

theorem find?_eq_some_iff_writtenFirst (h : p.Reads (ended form) fun type => [type])
    {text type : String} : p.find? text = some type ↔ WrittenFirst form text type := by
  simp only [find?_eq_some_iff h, WrittenFirst, List.head?_cons, Option.some.injEq]

theorem head?_occurrences_iff (h : p.Reads (ended form) fun type => [type]) {text : String}
    {q : Place String} :
    (p.occurrences text).head? = some ⟨q.start, q.stop, [q.item]⟩ ↔
      q.IsFirst (Place.IsIn (ended form) text.toList) := by
  obtain ⟨places, hreading, hoccurrences⟩ := exists_reading h text
  -- a place is known from its occurrence
  have hinj : ∀ q r : Place String, q.occurrence (fun type => [type]) =
      r.occurrence (fun type => [type]) → q = r := by
    rintro ⟨_, _, _⟩ ⟨_, _, _⟩ heq
    simp only [Place.occurrence, Occurrence.mk.injEq, List.cons.injEq, and_true] at heq
    simpa using heq
  rw [hoccurrences, List.head?_map, ← hreading.head?_eq_some_iff (h.startApart _),
    show (⟨q.start, q.stop, [q.item]⟩ : Occurrence) = q.occurrence fun type => [type] from rfl,
    ← Option.map_some]
  exact Option.map_inj_right hinj

theorem Reads.findsFirst (h : p.Reads (ended form) fun type => [type]) : p.FindsFirst form where
  found text := by
    rw [Option.isSome_iff_exists, Form.written_iff]
    simp only [find?_eq_some_iff_writtenFirst h]
    constructor
    · rintro ⟨type, q, hq, -⟩
      exact ⟨q, hq.1⟩
    · rintro ⟨q, hq⟩
      obtain ⟨r, hr⟩ := h.exists_isFirst hq
      exact ⟨r.item, r, hr, rfl⟩
  type _ _ := find?_eq_some_iff_writtenFirst h
  place _ _ := head?_occurrences_iff h
  unique text := (h.startApart text).unique

end Pattern

namespace Source

open Form (ended WrittenFirst Written IsInline IsTypeTag Bare)

/-- The type tag of a node is the first one in the first comment that has one. -/
theorem tagType?_eq_some_iff {s : Source} {c : Cursor} {type : String} :
    s.tagType? c = some type ↔ ∃ before comment after,
      s.candidates c = before ++ comment :: after ∧
      WrittenFirst IsTypeTag comment.body type ∧ ∀ m ∈ before, ¬ Written IsTypeTag m.body := by
  have hfinds := Form.reads_typeTag.findsFirst
  simp only [tagType?, List.findSome?_eq_some_iff, ← hfinds.found, ← hfinds.type,
    Option.not_isSome_iff_eq_none]

/-- A search for the inline form or for a type tag finds the first place at which a type is written
in that form. The inline type of a node is the first one on its lines, and its tag the first one in
the first comment that has one. In both cases the text of the type is bare. -/
theorem first_written_type :
    Form.inline.FindsFirst IsInline ∧ Form.typeTag.FindsFirst IsTypeTag ∧
    (∀ (s : Source) (n : Node) (type : String),
      (s.inlineType? n = some type ↔ WrittenFirst IsInline (s.spanText n) type) ∧
      (s.inlineType? n = some type → Bare type)) ∧
    ∀ (s : Source) (c : Cursor) (type : String),
      (s.tagType? c = some type ↔ ∃ before comment after,
        s.candidates c = before ++ comment :: after ∧
        WrittenFirst IsTypeTag comment.body type ∧ ∀ m ∈ before, ¬ Written IsTypeTag m.body) ∧
      (s.tagType? c = some type → Bare type) := by
  have hinline := Form.reads_inline.findsFirst
  refine ⟨hinline, Form.reads_typeTag.findsFirst, fun s n type => ⟨hinline.type _ _, fun h => ?_⟩,
    fun s c type => ⟨tagType?_eq_some_iff, fun h => ?_⟩⟩
  · obtain ⟨q, ⟨⟨_, _, _, -, hform, -⟩, -⟩, rfl⟩ := (hinline.type _ _).mp h
    exact Form.IsMarked.bare hform
  · obtain ⟨_, _, _, -, ⟨q, ⟨⟨_, _, _, -, hform, -⟩, -⟩, rfl⟩, -⟩ := tagType?_eq_some_iff.mp h
    exact Form.IsMarked.bare hform

/-- Marks that begin a form and do not go on, before the form and in it. -/
theorem first_written_type_behind_marks :
    let inlines := "/* /* : /*:\n number | */ /* : string[] */ /*: any */"
    let tags := "@type string @type \x7b @type\x7b\n Map<a> \x7d @type \x7bany\x7d"
    (Written IsInline inlines ∧ WrittenFirst IsInline inlines "string[]" ∧
      (⟨25, 41, "string[]"⟩ : Place String).IsFirst
        (Place.IsIn (ended IsInline) inlines.toList)) ∧
    Written IsTypeTag tags ∧ WrittenFirst IsTypeTag tags "Map<a>" ∧
      (⟨21, 37, "Map<a>"⟩ : Place String).IsFirst
        (Place.IsIn (ended IsTypeTag) tags.toList) := by
  intro inlines tags
  obtain ⟨hinline, htag, -⟩ := first_written_type
  exact ⟨⟨(hinline.found _).mp (by decide +kernel), (hinline.type _ _).mp (by decide +kernel),
      (hinline.place _ _).mp (by decide +kernel)⟩,
    (htag.found _).mp (by decide +kernel), (htag.type _ _).mp (by decide +kernel),
    (htag.place _ _).mp (by decide +kernel)⟩

end Source

end CommentTypes
