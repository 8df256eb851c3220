import CommentTypes.Annotation.Tags
import CommentTypes.Proofs.Annotation.FirstPlace
import Mathlib.Data.List.DropRight

/-!
# The tags of functions as they are written

A parameter tag and a tag for what is returned hold braces with some text between them
(`IsBraces`). What is taken from the braces depends on the blanks in front (`taken`), but without
the blanks around it is the text between the braces (`trimmed_taken`). The tags are recognised
exactly where they are written (`reads_paramTag`, `reads_returnsTag`). So the parameters of a
comment are those of its tags, read from left to right, and the type returned is that of the first
tag (`tags_as_written`).
-/

namespace CommentTypes

namespace Text

theorem trim_eq_nil {cs : List Char} (h : ∀ c ∈ cs, isBlank c = true) : trim cs = [] := by
  rw [trim, List.dropWhile_eq_nil_iff.mpr h]
  rfl

theorem trim_dropWhile (cs : List Char) : trim (cs.dropWhile isBlank) = trim cs := by
  rw [trim, List.dropWhile_idempotent, trim]

end Text

namespace Form

/-! ## Braces -/

/-- Braces with some text between them, and blanks before them. -/
def IsBraces (content : String) (cs : List Char) : Prop :=
  ∃ a : List Char, (∀ c ∈ a, Text.isBlank c = true) ∧ content.toList ≠ [] ∧
    '\x7d' ∉ content.toList ∧ cs = a ++ '\x7b' :: (content.toList ++ ['\x7d'])

/-- What is taken of the text between braces: all of it but the blanks in front, and one blank
where there is nothing else. -/
def taken (content : String) : String :=
  match skipBlanks content.toList with
  | [] => String.ofList content.toList.getLast?.toList
  | cs => String.ofList cs

theorem trimmed_taken (content : String) : Text.trimmed (taken content) = Text.trimmed content := by
  unfold taken Text.trimmed
  split
  · rename_i hblank
    have hall := List.dropWhile_eq_nil_iff.mp hblank
    have hlast : ∀ c ∈ content.toList.getLast?.toList, Text.isBlank c = true := fun c hc =>
      hall c (List.mem_of_getLast? (Option.mem_toList.mp hc))
    rw [String.toList_ofList, Text.trim_eq_nil hall, Text.trim_eq_nil hlast]
  · rw [String.toList_ofList, skipBlanks, Text.trim_dropWhile]

theorem taken_of_blanks {content : String} (hne : content.toList ≠ [])
    (h : ∀ c ∈ content.toList, Text.isBlank c = true) :
    ∃ c ∈ content.toList, taken content = String.ofList [c] := by
  refine ⟨content.toList.getLast hne, List.getLast_mem hne, ?_⟩
  rw [taken, skipBlanks, List.dropWhile_eq_nil_iff.mpr h]
  simp [List.getLast?_eq_some_getLast hne]

theorem bne_brace {cs : List Char} : (∀ c ∈ cs, (c != '\x7d') = true) ↔ '\x7d' ∉ cs := by
  simp only [bne_iff_ne, ne_eq]
  exact ⟨fun h hmem => h _ hmem rfl, fun h c hc heq => h (heq ▸ hc)⟩

theorem braced?_of_content {content : String} (hne : content.toList ≠ [])
    (hbrace : '\x7d' ∉ content.toList) (rest : List Char) :
    braced? (content.toList ++ '\x7d' :: rest) = some (taken content, rest) := by
  have hall := bne_brace.mpr hbrace
  unfold braced? taken
  rw [takeWhile_append_cons hall (by decide), dropWhile_append_cons hall (by decide)]
  dsimp only
  cases skipBlanks content.toList with
  | nil =>
    rw [List.getLast?_eq_some_getLast hne]
    rfl
  | cons c cs => rfl

/-- What is taken is taken from the text before the first closing brace. -/
theorem braced?_eq_some_iff {cs rest : List Char} {type : String} :
    braced? cs = some (type, rest) ↔ ∃ content : String, content.toList ≠ [] ∧
      '\x7d' ∉ content.toList ∧ cs = content.toList ++ '\x7d' :: rest ∧ type = taken content := by
  constructor
  · intro h
    have hnone : '\x7d' ∉ cs.takeWhile (· != '\x7d') :=
      bne_brace.mp (List.all_eq_true.mp List.all_takeWhile)
    have hcs := (List.takeWhile_append_dropWhile (p := (· != '\x7d')) (l := cs)).symm
    cases hd : cs.dropWhile (· != '\x7d') with
    | nil =>
      rw [braced?, hd] at h
      cases h
    | cons c more =>
      obtain rfl : c = '\x7d' := by
        have hc := List.head_dropWhile_not (· != '\x7d') (l := cs) (by simp [hd])
        simpa [hd] using hc
      rw [hd] at hcs
      have hne : cs.takeWhile (· != '\x7d') ≠ [] := by
        intro hnil
        rw [braced?, hd, hnil] at h
        cases h
      let content := String.ofList (cs.takeWhile (· != '\x7d'))
      have hcontent : content.toList = cs.takeWhile (· != '\x7d') := String.toList_ofList
      rw [← hcontent] at hne hnone hcs
      rw [hcs, braced?_of_content hne hnone] at h
      cases h
      exact ⟨content, hne, hnone, hcs, rfl⟩
  · rintro ⟨content, hne, hbrace, rfl, rfl⟩
    exact braced?_of_content hne hbrace rest

/-- What is taken from braces with blanks before them. -/
def braces? (cs : List Char) : Option (String × List Char) :=
  (after? ['\x7b'] (skipBlanks cs)).bind braced?

theorem braces?_eq_some_iff {cs rest : List Char} {type : String} :
    braces? cs = some (type, rest) ↔
      ∃ content written, IsBraces content written ∧ cs = written ++ rest ∧
        type = taken content := by
  simp only [braces?, Option.bind_eq_some_iff, after?_eq_some, braced?_eq_some_iff]
  constructor
  · rintro ⟨_, hopened, content, hne, hbrace, rfl, rfl⟩
    obtain ⟨a, ha, rfl⟩ := skipBlanks_eq hopened
    exact ⟨content, _, ⟨a, ha, hne, hbrace, rfl⟩, by simp, rfl⟩
  · rintro ⟨content, _, ⟨a, ha, hne, hbrace, rfl⟩, rfl, rfl⟩
    refine ⟨content.toList ++ '\x7d' :: rest, ?_, content, hne, hbrace, rfl, rfl⟩
    simp only [List.append_assoc, List.cons_append, List.nil_append]
    exact dropWhile_append_cons ha (by decide)

theorem append_cons_inj {p : Char → Bool} {xs xs' ys ys' : List Char} {c c' : Char}
    (hxs : ∀ x ∈ xs, p x = true) (hc : p c = false) (hxs' : ∀ x ∈ xs', p x = true)
    (hc' : p c' = false) (h : xs ++ c :: ys = xs' ++ c' :: ys') : xs = xs' ∧ ys = ys' := by
  have htake := congrArg (List.takeWhile p) h
  have hdrop := congrArg (List.dropWhile p) h
  rw [takeWhile_append_cons hxs hc, takeWhile_append_cons hxs' hc'] at htake
  rw [dropWhile_append_cons hxs hc, dropWhile_append_cons hxs' hc'] at hdrop
  exact ⟨htake, (List.cons.inj hdrop).2⟩

/-- Braces at the front of a text are read in one way. -/
theorem IsBraces.unique {content content' : String} {written written' rest rest' : List Char}
    (h : IsBraces content written) (h' : IsBraces content' written')
    (heq : written ++ rest = written' ++ rest') : content = content' ∧ rest = rest' := by
  obtain ⟨a, ha, -, hbrace, rfl⟩ := h
  obtain ⟨a', ha', -, hbrace', rfl⟩ := h'
  simp only [List.append_assoc, List.cons_append, List.nil_append] at heq
  obtain ⟨-, hinside⟩ := append_cons_inj ha (by decide) ha' (by decide) heq
  obtain ⟨hcontent, hrest⟩ := append_cons_inj (p := (· != '\x7d'))
    (bne_brace.mpr hbrace) (by decide) (bne_brace.mpr hbrace') (by decide) hinside
  exact ⟨String.toList_inj.mp hcontent, hrest⟩

/-! ## Parameters -/

/-- A parameter as it is tagged: the text between the braces, and the name behind them. -/
structure ParamTag where
  content : String
  name : String
  deriving DecidableEq

/-- The parameter that the tag is for, with its type. -/
def ParamTag.param (tag : ParamTag) : String × TypeName :=
  (tag.name, Text.lower (Text.trimmed tag.content))

/-- A parameter tag as it is written. Its name goes on as far as there are word characters. -/
def IsParam (tag : ParamTag) (cs rest : List Char) : Prop :=
  ∃ braces b : List Char, IsBraces tag.content braces ∧ (∀ c ∈ b, Text.isBlank c = true) ∧
    tag.name.toList ≠ [] ∧ (∀ c ∈ tag.name.toList, Text.isWord c = true) ∧
    (∀ c ∈ rest.head?, Text.isWord c = false) ∧
    cs = "@param".toList ++ (braces ++ (b ++ tag.name.toList))

theorem paramTag_eq_some {cs rest : List Char} {parts : List String} :
    paramTag cs = some (parts, rest) ↔ ∃ opened type named name,
      after? "@param".toList cs = some opened ∧ braces? opened = some (type, named) ∧
      run? Text.isWord (skipBlanks named) = some (name, rest) ∧ parts = [type, name] := by
  simp only [paramTag, braces?, Option.bind_eq_bind, Option.bind_eq_some_iff, Option.pure_def,
    Option.some.injEq, Prod.mk.injEq, Prod.exists]
  constructor
  · rintro ⟨opened, ho, inside, hi, type, named, hb, name, _, hn, rfl, rfl⟩
    exact ⟨opened, type, named, name, ho, ⟨inside, hi, hb⟩, hn, rfl⟩
  · rintro ⟨opened, type, named, name, ho, ⟨inside, hi, hb⟩, hn, rfl⟩
    exact ⟨opened, ho, inside, hi, type, named, hb, name, rest, hn, rfl, rfl⟩

/-- A run goes on as far as there are characters of the class. -/
theorem run?_eq_some_iff {p : Char → Bool} {cs rest : List Char} {run : String} :
    run? p cs = some (run, rest) ↔ run.toList ≠ [] ∧ (∀ c ∈ run.toList, p c = true) ∧
      (∀ c ∈ rest.head?, p c = false) ∧ cs = run.toList ++ rest := by
  constructor
  · intro h
    obtain ⟨hne, hrun, hcs⟩ := run?_eq_some h
    refine ⟨hne, hrun, fun c hc => ?_, hcs⟩
    have hrest : cs.dropWhile p = rest := by
      unfold run? at h
      split at h
      · cases h
      · exact (Prod.mk.inj (Option.some.inj h)).2
    have hnot := List.head?_dropWhile_not p cs
    rw [hrest, Option.mem_def.mp hc] at hnot
    simpa using hnot
  · rintro ⟨hne, hrun, hrest, rfl⟩
    cases rest with
    | nil =>
      unfold run?
      rw [List.append_nil, List.takeWhile_eq_self_iff.mpr hrun, List.dropWhile_eq_nil_iff.mpr hrun]
      split
      · rename_i hnil
        exact absurd hnil hne
      · rw [String.ofList_toList]
    | cons c rest => exact run?_append_cons hne hrun (hrest c rfl)

/-- No blank is a word character. -/
theorem not_isBlank_of_isWord {c : Char} (h : Text.isWord c = true) : Text.isBlank c = false :=
  not_isBlank_of_isTypeChar (by rw [isTypeChar, h, Bool.true_or])

theorem skipBlanks_name {b name : List Char} (hb : ∀ c ∈ b, Text.isBlank c = true)
    (hne : name ≠ []) (hname : ∀ c ∈ name, Text.isWord c = true) (rest : List Char) :
    skipBlanks (b ++ (name ++ rest)) = name ++ rest := by
  obtain ⟨c, cs, rfl⟩ := List.exists_cons_of_ne_nil hne
  exact dropWhile_append_cons hb (not_isBlank_of_isWord (hname c List.mem_cons_self))

/-- A search reads the places at which parameter tags are written. -/
theorem reads_paramTag : paramTag.Reads IsParam fun tag => [taken tag.content, tag.name] where
  recognises cs parts rest := by
    simp only [paramTag_eq_some, after?_eq_some, braces?_eq_some_iff, run?_eq_some_iff]
    constructor
    · rintro ⟨_, _, named, name, rfl, ⟨content, braces, hbraces, rfl, rfl⟩,
        ⟨hne, hname, hrest, hnamed⟩, rfl⟩
      obtain ⟨b, hb, rfl⟩ := skipBlanks_eq hnamed
      exact ⟨⟨content, name⟩, _, ⟨braces, b, hbraces, hb, hne, hname, hrest, rfl⟩, by simp, rfl⟩
    · rintro ⟨tag, _, ⟨braces, b, hbraces, hb, hne, hname, hrest, rfl⟩, rfl, rfl⟩
      exact ⟨_, _, b ++ (tag.name.toList ++ rest), tag.name, List.append_assoc ..,
        ⟨tag.content, braces, hbraces, by simp, rfl⟩,
        ⟨hne, hname, hrest, skipBlanks_name hb hne hname rest⟩, rfl⟩
  nonempty tag written rest h := by
    obtain ⟨_, _, -, -, -, -, -, rfl⟩ := h
    simp
  unique tag tag' written written' rest rest' h h' heq := by
    obtain ⟨braces, b, hbraces, hb, hne, hname, hrest, rfl⟩ := h
    obtain ⟨braces', b', hbraces', hb', hne', hname', hrest', rfl⟩ := h'
    simp only [List.append_assoc] at heq
    obtain ⟨hcontent, hnamed⟩ := hbraces.unique hbraces' (List.append_cancel_left heq)
    have hskip := congrArg skipBlanks hnamed
    rw [skipBlanks_name hb hne hname, skipBlanks_name hb' hne' hname'] at hskip
    have hrun := run?_eq_some_iff.mpr ⟨hne, hname, hrest, rfl⟩
    rw [hskip, run?_eq_some_iff.mpr ⟨hne', hname', hrest', rfl⟩] at hrun
    obtain ⟨content, name⟩ := tag
    obtain ⟨content', name'⟩ := tag'
    obtain rfl : content = content' := hcontent
    obtain rfl : name' = name := (Prod.mk.inj (Option.some.inj hrun)).1
    rfl

/-! ## What is returned -/

/-- A tag for what is returned as it is written, in one of its two spellings. -/
def IsReturns (content : String) (cs : List Char) : Prop :=
  ∃ braces : List Char, IsBraces content braces ∧
    (cs = "@return".toList ++ braces ∨ cs = "@returns".toList ++ braces)

theorem returnsTag_eq_some {cs rest : List Char} {parts : List String} :
    returnsTag cs = some (parts, rest) ↔ ∃ opened type,
      after? "@return".toList cs = some opened ∧
      braces? ((after? ['s'] opened).getD opened) = some (type, rest) ∧ parts = [type] := by
  simp only [returnsTag, braces?, Option.bind_eq_bind, Option.bind_eq_some_iff, Option.pure_def,
    Option.some.injEq, Prod.mk.injEq, Prod.exists]
  constructor
  · rintro ⟨opened, ho, inside, hi, type, _, hb, rfl, rfl⟩
    exact ⟨opened, type, ho, ⟨inside, hi, hb⟩, rfl⟩
  · rintro ⟨opened, type, ho, ⟨inside, hi, hb⟩, rfl⟩
    exact ⟨opened, ho, inside, hi, type, rest, hb, rfl, rfl⟩

/-- Behind the shorter spelling no letter follows that would make it the longer one. -/
theorem IsBraces.after?_s {content : String} {braces : List Char} (h : IsBraces content braces)
    (rest : List Char) : after? ['s'] (braces ++ rest) = none := by
  obtain ⟨a, ha, -, -, rfl⟩ := h
  rw [← Option.not_isSome_iff_eq_none, Option.isSome_iff_exists]
  rintro ⟨more, hmore⟩
  have heq := after?_eq_some.mp hmore
  cases a with
  | nil => exact absurd (List.cons.inj heq).1 (by decide)
  | cons c a =>
    obtain rfl : c = 's' := (List.cons.inj heq).1
    exact absurd (ha _ List.mem_cons_self) (by decide)

/-- Where a tag is written, its braces come behind one of the two spellings. -/
theorem IsReturns.exists_braces {content : String} {written : List Char}
    (h : IsReturns content written) (rest : List Char) : ∃ opened braces : List Char,
      written ++ rest = "@return".toList ++ opened ∧ IsBraces content braces ∧
      (after? ['s'] opened).getD opened = braces ++ rest := by
  obtain ⟨braces, hbraces, rfl | rfl⟩ := h
  · refine ⟨braces ++ rest, braces, List.append_assoc .., hbraces, ?_⟩
    rw [hbraces.after?_s, Option.getD_none]
  · refine ⟨'s' :: (braces ++ rest), braces, by simp, hbraces, ?_⟩
    have hs : after? ['s'] ('s' :: (braces ++ rest)) = some (braces ++ rest) :=
      after?_eq_some.mpr rfl
    rw [hs, Option.getD_some]

/-- A search reads the places at which tags for what is returned are written. -/
theorem reads_returnsTag : returnsTag.Reads (ended IsReturns) fun content => [taken content] where
  recognises cs parts rest := by
    simp only [returnsTag_eq_some, after?_eq_some, braces?_eq_some_iff]
    constructor
    · rintro ⟨opened, _, rfl, ⟨content, braces, hbraces, hopened, rfl⟩, rfl⟩
      cases hs : after? ['s'] opened with
      | none =>
        rw [hs, Option.getD_none] at hopened
        exact ⟨content, _, ⟨braces, hbraces, .inl rfl⟩, by rw [hopened, List.append_assoc], rfl⟩
      | some more =>
        rw [hs, Option.getD_some] at hopened
        refine ⟨content, _, ⟨braces, hbraces, .inr rfl⟩, ?_, rfl⟩
        rw [after?_eq_some.mp hs, hopened]
        simp
    · rintro ⟨content, written, hwritten, rfl, rfl⟩
      obtain ⟨opened, braces, hcs, hbraces, hopened⟩ := hwritten.exists_braces rest
      exact ⟨opened, _, hcs, ⟨content, braces, hbraces, hopened, rfl⟩, rfl⟩
  nonempty content written rest h := by
    obtain ⟨_, -, rfl | rfl⟩ := h <;> simp
  unique content content' written written' rest rest' h h' heq := by
    obtain ⟨opened, braces, hcs, hbraces, hopened⟩ := IsReturns.exists_braces h rest
    obtain ⟨opened', braces', hcs', hbraces', hopened'⟩ := IsReturns.exists_braces h' rest'
    obtain rfl : opened = opened' := List.append_cancel_left (hcs.symm.trans (heq.trans hcs'))
    exact (hbraces.unique hbraces' (hopened.symm.trans hopened')).1

end Form

namespace Tags

open Form (ended ParamTag IsParam IsReturns Written)

/-- The parameters tagged in a comment are those of the tags that are read in it. -/
theorem paramsOf_of_reading {body : String} {places : List (Place ParamTag)}
    (h : Reading (Place.IsIn IsParam body.toList) places) :
    paramsOf body = places.map fun q => q.item.param := by
  obtain ⟨places', hreading, hoccurrences⟩ := Pattern.exists_reading Form.reads_paramTag body
  obtain rfl := h.eq (Form.reads_paramTag.startApart _) hreading
  have hparam : ∀ q : Place ParamTag,
      param? [Form.taken q.item.content, q.item.name] = some q.item.param := fun q => by
    rw [param?, cleaned, Form.trimmed_taken, ParamTag.param]
  rw [paramsOf, hoccurrences, List.filterMap_map, ← List.filterMap_eq_map]
  exact List.filterMap_congr fun q _ => hparam q

theorem returnsOf_eq_some_iff {body : String} {type : TypeName} :
    returnsOf body = some type ↔ ∃ q : Place String,
      q.IsFirst (Place.IsIn (ended IsReturns) body.toList) ∧
      type = Text.lower (Text.trimmed q.item) := by
  simp only [returnsOf, Option.map_eq_some_iff, Pattern.find?_eq_some_iff Form.reads_returnsTag,
    List.head?_cons, Option.some.injEq]
  constructor
  · rintro ⟨_, ⟨q, hq, rfl⟩, rfl⟩
    exact ⟨q, hq, by rw [cleaned, Form.trimmed_taken]⟩
  · rintro ⟨q, hq, rfl⟩
    exact ⟨_, ⟨q, hq, rfl⟩, by rw [cleaned, Form.trimmed_taken]⟩

theorem returnsOf_eq_none_iff {body : String} :
    returnsOf body = none ↔ ¬ Written IsReturns body := by
  rw [← not_iff_not, not_not, ← ne_eq, Option.ne_none_iff_exists', Form.written_iff]
  simp only [returnsOf_eq_some_iff]
  constructor
  · rintro ⟨_, q, hq, -⟩
    exact ⟨q, hq.1⟩
  · rintro ⟨q, hq⟩
    obtain ⟨r, hr⟩ := Form.reads_returnsTag.exists_isFirst hq
    exact ⟨_, r, hr, rfl⟩

/-- The tags of some comments are those that are written in them. Each comment is read in one way
from left to right, and the parameters are those read in one comment after the other. The type
returned is that of the first tag in the first comment that has one. The type of a tag is the text
between its braces, without the blanks around and in lower case; it is empty if there are only
blanks, of which one is taken then. -/
theorem tags_as_written (bodies : List String) :
    (∃ read : String → List (Place ParamTag),
      (∀ body places, Reading (Place.IsIn IsParam body.toList) places ↔ places = read body) ∧
      (ofBodies bodies).params =
        bodies.flatMap fun body => (read body).map fun q => q.item.param) ∧
    (∀ type, (ofBodies bodies).returns = some type ↔ ∃ before body after,
      bodies = before ++ body :: after ∧
      (∃ q : Place String, q.IsFirst (Place.IsIn (ended IsReturns) body.toList) ∧
        type = Text.lower (Text.trimmed q.item)) ∧
      ∀ b ∈ before, ¬ Written IsReturns b) ∧
    ((ofBodies bodies).returns = none ↔ ∀ body ∈ bodies, ¬ Written IsReturns body) ∧
    ∀ content : String, content.toList ≠ [] → (∀ c ∈ content.toList, Text.isBlank c = true) →
      Text.lower (Text.trimmed content) = "" ∧
      ∀ rest, ∃ c ∈ content.toList,
        Form.braced? (content.toList ++ '\x7d' :: rest) = some (String.ofList [c], rest) := by
  refine ⟨?_, fun type => ?_, ?_, fun content hne hblank => ⟨?_, fun rest => ?_⟩⟩
  · have hread : ∀ body : String, ∃ places, Reading (Place.IsIn IsParam body.toList) places :=
      fun body => (Pattern.exists_reading Form.reads_paramTag body).imp fun _ h => h.1
    choose read hread using hread
    refine ⟨read, fun body places => ⟨fun h => ?_, fun h => h ▸ hread body⟩, ?_⟩
    · exact h.eq (Form.reads_paramTag.startApart _) (hread body)
    · exact congrArg bodies.flatMap (funext fun body => paramsOf_of_reading (hread body))
  · simp only [ofBodies, List.findSome?_eq_some_iff, returnsOf_eq_some_iff, returnsOf_eq_none_iff]
  · simp only [ofBodies, List.findSome?_eq_none_iff, returnsOf_eq_none_iff]
  · rw [Text.trimmed, Text.trim_eq_nil hblank]
    rfl
  · have hbrace : '\x7d' ∉ content.toList := fun hmem => absurd (hblank _ hmem) (by decide)
    obtain ⟨c, hc, htaken⟩ := Form.taken_of_blanks hne hblank
    exact ⟨c, hc, by rw [Form.braced?_of_content hne hbrace, htaken]⟩

/-- Tags in the braces of another one, without a type, with a blank one, and without braces. -/
def crossedTags : List String :=
  ["* @param \x7b@param \x7bA\x7d b @param \x7b\x7d c @param \x7b \x7d d",
    "@return string @returns\x7b\n Number \x7d @return \x7bany\x7d"]

theorem crossedTags_as_written :
    (∃ read : String → List (Place ParamTag),
      (∀ body places, Reading (Place.IsIn IsParam body.toList) places ↔ places = read body) ∧
      (crossedTags.flatMap fun body => (read body).map fun q => q.item.param) =
        [("b", "@param \x7ba"), ("d", "")]) ∧
    (∃ before body after, crossedTags = before ++ body :: after ∧
      (∃ q : Place String, q.IsFirst (Place.IsIn (ended IsReturns) body.toList) ∧
        "number" = Text.lower (Text.trimmed q.item)) ∧
      ∀ b ∈ before, ¬ Written IsReturns b) ∧
    (¬ ∀ body ∈ crossedTags, ¬ Written IsReturns body) ∧
    Text.lower (Text.trimmed " ") = "" ∧
      ∀ rest, ∃ c ∈ " ".toList,
        Form.braced? (" ".toList ++ '\x7d' :: rest) = some (String.ofList [c], rest) := by
  obtain ⟨⟨read, hread, hparams⟩, hreturns, hnone, hblank⟩ := tags_as_written crossedTags
  have htype : (ofBodies crossedTags).returns = some "number" := by decide +kernel
  have hspace : ∀ c ∈ [' '], Text.isBlank c = true := List.forall_mem_singleton.mpr rfl
  refine ⟨⟨read, hread, hparams.symm.trans (by decide +kernel)⟩, (hreturns _).mp htype,
    fun hall => ?_, hblank " " (List.cons_ne_nil ' ' []) hspace⟩
  rw [hnone.mpr hall] at htype
  cases htype

end Tags

end CommentTypes
