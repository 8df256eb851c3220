import CommentTypes.Proofs.Json.Quoted
import CommentTypes.Proofs.Text.Lines

/-!
# Values in JSON

A value of strings, lists and objects (`Textual`) is read back as it was written, on one line
(`parse_compact`) and over several lines (`parse_pretty`). The two ways to write differ only in the
blanks between the parts. `Spells` says of a text what both of them share: it is read as the
value whatever follows. It passes from the parts of a list or an object to the whole for any blanks
(`Spells.arr`, `Spells.obj`), so each way to write needs one short induction over values.
-/

namespace CommentTypes

namespace NameMap

variable {α κ : Type} [DecidableEq κ]

theorem setEntry_of_not_mem {name : κ} {value : α} {entries : List (κ × α)}
    (h : name ∉ entries.map Prod.fst) :
    setEntry name value entries = entries ++ [(name, value)] := by
  induction entries with
  | nil => rfl
  | cons entry rest ih =>
    rw [List.map_cons, List.mem_cons, not_or] at h
    rw [setEntry, if_neg (Ne.symm h.1), ih h.2, List.cons_append]

end NameMap

namespace Json

/-- Fields with different names are kept as they are. -/
theorem foldl_setEntry {fields kept : Fields} (h : ((kept ++ fields).map Prod.fst).Nodup) :
    fields.foldl (fun kept f => NameMap.setEntry f.1 f.2 kept) kept = kept ++ fields := by
  induction fields generalizing kept with
  | nil => rw [List.foldl_nil, List.append_nil]
  | cons f fields ih =>
    have hsplit : kept ++ f :: fields = (kept ++ [f]) ++ fields := by simp
    have hnew : f.1 ∉ kept.map Prod.fst := by
      rw [List.map_append, List.map_cons] at h
      intro hmem
      exact (List.nodup_append.mp h).2.2 f.1 hmem f.1 List.mem_cons_self rfl
    rw [hsplit] at h ⊢
    rw [List.foldl_cons, NameMap.setEntry_of_not_mem hnew]
    exact ih h

theorem lastWins_of_nodup {fields : Fields} (h : (fields.map Prod.fst).Nodup) :
    lastWins fields = fields := by
  rw [← List.nil_append fields] at h
  exact foldl_setEntry h

/-! ## Blanks -/

/-- Blanks and line feeds. -/
def IsGap (cs : List Char) : Prop :=
  ∀ c ∈ cs, c = ' ' ∨ c = '\n'

/-- A character that is printed, or ends a line. -/
def IsShown (c : Char) : Prop :=
  IsPrintable c ∨ c = '\n'

theorem IsGap.isShown {gap : List Char} (h : IsGap gap) {c : Char} (hc : c ∈ gap) : IsShown c := by
  rcases h c hc with rfl | rfl
  · exact .inl (by decide)
  · exact .inr rfl

theorem isGap_nil : IsGap [] := nofun

theorem isGap_newline (depth : Nat) : IsGap (newline depth) := by
  intro c hc
  rcases List.mem_cons.mp hc with rfl | hc
  · exact .inr rfl
  · exact .inl (List.eq_of_mem_replicate hc)

theorem skipBlanks_append {gap : List Char} (h : IsGap gap) (cs : List Char) :
    skipBlanks (gap ++ cs) = skipBlanks cs := by
  refine List.dropWhile_append_of_pos fun c hc => ?_
  rcases h c hc with rfl | rfl <;> decide

theorem skipBlanks_cons {c : Char} (h : c ∉ [' ', '\t', '\n', '\r']) (cs : List Char) :
    skipBlanks (c :: cs) = c :: cs := by
  rw [skipBlanks, List.dropWhile_cons_of_neg]
  simpa [and_assoc] using h

/-- The text starts as a value does, and so neither with a blank nor with a closing bracket. -/
def Opens (cs : List Char) : Prop :=
  ∃ c rest, cs = c :: rest ∧ c ∈ ['"', '[', '\x7b']

namespace Opens

variable {cs : List Char}

theorem append (h : Opens cs) (rest : List Char) : Opens (cs ++ rest) := by
  obtain ⟨c, cs, rfl, hc⟩ := h
  exact ⟨c, cs ++ rest, rfl, hc⟩

theorem intercalate (h : Opens cs) (sep : List Char) (more : List (List Char)) :
    Opens (sep.intercalate (cs :: more)) := by
  cases more with
  | nil => rwa [List.intercalate_singleton]
  | cons l more =>
    rw [List.intercalate_cons_cons]
    exact (h.append _).append _

theorem skipBlanks_eq (h : Opens cs) : skipBlanks cs = cs := by
  obtain ⟨c, cs, rfl, hc⟩ := h
  have hall : ∀ c ∈ ['"', '[', '\x7b'], c ∉ [' ', '\t', '\n', '\r'] := by simp
  exact skipBlanks_cons (hall c hc) cs

theorem head?_ne (h : Opens cs) {closing : Char} (hclosing : closing ∉ ['"', '[', '\x7b']) :
    cs.head? ≠ some closing := by
  obtain ⟨c, cs, rfl, hc⟩ := h
  intro hhead
  exact hclosing (Option.some.inj hhead ▸ hc)

end Opens

/-! ## Texts of values -/

/-- The text is read as the value, whatever follows it. The budget counts the calls of readers, of
which a character causes two at most. -/
structure Spells (limit : Limit) (cs : List Char) (v : Json) : Prop where
  opens : Opens cs
  reads : ∀ budget rest, 2 * cs.length ≤ budget →
    readValue budget limit (cs ++ rest) = .ok (v, rest)
  shown : ∀ c ∈ cs, IsShown c

/-- A string between quotes. -/
theorem Spells.str (limit : Limit) (s : String) : Spells limit (quotedChars s) (.str s) := by
  refine ⟨⟨'"', _, quotedChars_string s, by simp⟩, fun budget rest hb => ?_,
    fun c hc => .inl (isPrintable_of_mem_quotedChars hc)⟩
  have hlength := length_le_length_escaped s.toList
  rw [quotedChars_string] at hb ⊢
  simp only [List.length_cons, List.length_append, List.length_nil] at hb
  obtain ⟨budget, rfl⟩ : ∃ b, budget = b + 1 := ⟨budget - 1, by omega⟩
  rw [List.cons_append, List.append_assoc, List.singleton_append, readValue,
    readString_quoted _ _ _ (by omega)]
  show Except.ok (Json.str (Text.Loose.ofPoints (Text.Loose.points s)), rest) = _
  rw [Text.Loose.ofPoints_points]

/-! ## Lists -/

theorem readValue_list {limit : Limit} (hlimit : limit.allows 1) {budget : Nat}
    {cs rest : List Char} {items : List Json} (hopen : (skipBlanks cs).head? ≠ some ']')
    (h : readItems budget limit.inside (skipBlanks cs) = .ok (items, rest)) :
    readValue (budget + 1) limit ('[' :: cs) = .ok (.arr items, rest) := by
  simp only [readValue, hlimit, Bool.not_true, Bool.false_eq_true, if_false]
  split
  · rename_i hclosed
    exact absurd (congrArg List.head? hclosed) hopen
  · rw [h]
    rfl

theorem readItems_last {limit : Limit} {budget : Nat} {cs left rest : List Char} {v : Json}
    (hv : readValue budget limit cs = .ok (v, left)) (hleft : skipBlanks left = ']' :: rest) :
    readItems (budget + 1) limit cs = .ok ([v], rest) := by
  simp only [readItems, hv, bind, Except.bind, hleft]
  rfl

theorem readItems_more {limit : Limit} {budget : Nat} {cs left more rest : List Char} {v : Json}
    {items : List Json} (hv : readValue budget limit cs = .ok (v, left))
    (hleft : skipBlanks left = ',' :: more)
    (hmore : readItems budget limit (skipBlanks more) = .ok (items, rest)) :
    readItems (budget + 1) limit cs = .ok (v :: items, rest) := by
  simp only [readItems, hv, bind, Except.bind, hleft, hmore]
  rfl

section Parts

variable {limit : Limit} {gap before after : List Char} {write : Json → List Char}

/-- Items with a comma and blanks between each two are read one after the other. -/
theorem readItems_intercalate (hgap : IsGap gap) (hafter : IsGap after) (rest : List Char)
    {v : Json} {items : List Json} (h : ∀ x ∈ v :: items, Spells limit (write x) x)
    {budget : Nat} (hb : 2 * ((',' :: gap).intercalate ((v :: items).map write)).length < budget) :
    readItems budget limit
      ((',' :: gap).intercalate ((v :: items).map write) ++ (after ++ ']' :: rest)) =
      .ok (v :: items, rest) := by
  induction items generalizing v budget with
  | nil =>
    obtain ⟨budget, rfl⟩ : ∃ b, budget = b + 1 := ⟨budget - 1, by omega⟩
    rw [List.map_singleton, List.intercalate_singleton] at hb ⊢
    refine readItems_last ((h v List.mem_cons_self).reads budget _ (by omega)) ?_
    rw [skipBlanks_append hafter, skipBlanks_cons (by decide)]
  | cons w items ih =>
    obtain ⟨hv, hitems⟩ := List.forall_mem_cons.mp h
    have hopens := (hitems w List.mem_cons_self).opens.intercalate (',' :: gap) (items.map write)
    obtain ⟨budget, rfl⟩ : ∃ b, budget = b + 1 := ⟨budget - 1, by omega⟩
    rw [List.map_cons, List.map_cons, List.intercalate_cons_cons] at hb ⊢
    simp only [List.length_append, List.length_cons] at hb
    rw [List.append_assoc, List.append_assoc, List.cons_append]
    refine readItems_more (hv.reads budget _ (by omega)) (skipBlanks_cons (by decide) _) ?_
    rw [skipBlanks_append hgap, (hopens.append _).skipBlanks_eq]
    exact ih hitems (by rw [List.map_cons]; omega)

/-- Brackets around texts that are shown, with commas and blanks between them. -/
theorem isShown_of_mem_bracketed (hbefore : IsGap before) (hgap : IsGap gap) (hafter : IsGap after)
    {opening closing : Char} (hopening : IsPrintable opening) (hclosing : IsPrintable closing)
    {α : Type} {parts : List α} {text : α → List Char} (h : ∀ x ∈ parts, ∀ c ∈ text x, IsShown c)
    {c : Char}
    (hc : c ∈ opening ::
      (before ++ ((',' :: gap).intercalate (parts.map text) ++ (after ++ [closing])))) :
    IsShown c := by
  simp only [List.mem_cons, List.mem_append, List.not_mem_nil, or_false] at hc
  rcases hc with rfl | hc | hc | hc | rfl
  · exact .inl hopening
  · exact hbefore.isShown hc
  · rcases mem_of_mem_intercalate hc with hc | ⟨l, hl, hc⟩
    · rcases List.mem_cons.mp hc with rfl | hc
      · exact .inl (by decide)
      · exact hgap.isShown hc
    · obtain ⟨x, hx, rfl⟩ := List.mem_map.mp hl
      exact h x hx c hc
  · exact hafter.isShown hc
  · exact .inl hclosing

/-- A list, with any blanks after its bracket, after the commas and before the closing bracket. -/
theorem Spells.arr (hlimit : limit.allows 1) (hbefore : IsGap before) (hgap : IsGap gap)
    (hafter : IsGap after) {items : List Json} (h : ∀ v ∈ items, Spells limit.inside (write v) v) :
    Spells limit
      ('[' :: (before ++ ((',' :: gap).intercalate (items.map write) ++ (after ++ [']']))))
      (.arr items) := by
  refine ⟨⟨'[', _, rfl, by simp⟩, fun budget rest hb => ?_, fun c hc => ?_⟩
  · simp only [List.length_cons, List.length_append, List.length_nil] at hb
    obtain ⟨budget, rfl⟩ : ∃ b, budget = b + 1 := ⟨budget - 1, by omega⟩
    simp only [List.cons_append, List.append_assoc, List.nil_append]
    cases items with
    | nil =>
      have hskip : skipBlanks (before ++ (after ++ ']' :: rest)) = ']' :: rest := by
        rw [skipBlanks_append hbefore, skipBlanks_append hafter, skipBlanks_cons (by decide)]
      simp only [List.map_nil, List.intercalate_nil, List.nil_append, readValue, hlimit,
        Bool.not_true, Bool.false_eq_true, if_false, hskip]
    | cons v items =>
      have hopens := ((h v List.mem_cons_self).opens.intercalate (',' :: gap)
        (items.map write)).append (after ++ ']' :: rest)
      have hskip := (skipBlanks_append hbefore _).trans hopens.skipBlanks_eq
      refine readValue_list hlimit ?_ ?_
      · rw [List.map_cons, hskip]
        exact hopens.head?_ne (by decide)
      · rw [List.map_cons, hskip]
        exact readItems_intercalate hgap hafter rest h (by omega)
  · exact isShown_of_mem_bracketed hbefore hgap hafter (by decide) (by decide)
      (fun v hv => (h v hv).shown) hc

/-! ## Objects -/

/-- A field: its name, and its value after a colon and a blank. -/
def fieldChars (write : Json → List Char) (f : Text.Loose × Json) : List Char :=
  quotedChars f.1 ++ ':' :: ' ' :: write f.2

theorem readValue_object (hlimit : limit.allows 1) {budget : Nat} {cs rest : List Char}
    {fields : Fields} (hopen : (skipBlanks cs).head? ≠ some '\x7d')
    (h : readFields budget limit.inside (skipBlanks cs) = .ok (fields, rest)) :
    readValue (budget + 1) limit ('\x7b' :: cs) = .ok (.obj (lastWins fields), rest) := by
  simp only [readValue, hlimit, Bool.not_true, Bool.false_eq_true, if_false]
  split
  · rename_i hclosed
    exact absurd (congrArg List.head? hclosed) hopen
  · rw [h]
    rfl

/-- The name of a field is a string, and its value is read as it is written. -/
structure SpellsField (limit : Limit) (write : Json → List Char) (f : Text.Loose × Json) : Prop where
  name : ∃ s : String, f.1 = s
  value : Spells limit (write f.2) f.2

namespace SpellsField

variable {f : Text.Loose × Json}

theorem fieldChars_append {s : String} (hs : f.1 = s) (left : List Char) :
    fieldChars write f ++ left =
      '"' :: (s.toList.flatMap escapedChar ++ '"' :: ':' :: ' ' :: (write f.2 ++ left)) := by
  simp [fieldChars, hs, quotedChars_string]

variable (h : SpellsField limit write f)
include h

theorem opens : Opens (fieldChars write f) := by
  obtain ⟨s, hs⟩ := h.name
  rw [fieldChars, hs]
  exact (Spells.str none s).opens.append _

theorem shown : ∀ c ∈ fieldChars write f, IsShown c := by
  obtain ⟨s, hs⟩ := h.name
  intro c hc
  rw [fieldChars, hs] at hc
  simp only [List.mem_append, List.mem_cons] at hc
  rcases hc with hc | rfl | rfl | hc
  · exact (Spells.str none s).shown c hc
  · exact .inl (by decide)
  · exact .inl (by decide)
  · exact h.value.shown c hc

variable {budget : Nat} (hb : 2 * (fieldChars write f).length ≤ budget) {left more rest : List Char}
include hb

omit h in
theorem readString_name {s : String} (hs : f.1 = s) (opening : List Char) :
    readString opening budget (s.toList.flatMap escapedChar ++ '"' :: rest) =
      .ok (Text.Loose.points s, rest) := by
  have hlength := length_le_length_escaped s.toList
  simp only [fieldChars, hs, quotedChars_string, List.length_append, List.length_cons] at hb
  exact readString_quoted opening _ _ (by omega)

theorem readValue_value :
    readValue budget limit (skipBlanks (' ' :: (write f.2 ++ rest))) = .ok (f.2, rest) := by
  have hblank : IsGap [' '] := by simp [IsGap]
  simp only [fieldChars, List.length_append, List.length_cons] at hb
  rw [← List.singleton_append, skipBlanks_append hblank, (h.value.opens.append _).skipBlanks_eq]
  exact h.value.reads budget rest (by omega)

theorem readFields_last (hleft : skipBlanks left = '\x7d' :: rest) :
    readFields (budget + 1) limit (fieldChars write f ++ left) = .ok ([f], rest) := by
  obtain ⟨s, hs⟩ := h.name
  rw [fieldChars_append hs]
  simp only [readFields, readString_name hb hs, bind, Except.bind, h.readValue_value hb,
    skipBlanks_cons (c := ':') (by decide), hleft, Text.Loose.ofPoints_points, ← hs]
  rfl

theorem readFields_more {fields : Fields} (hleft : skipBlanks left = ',' :: more)
    (hmore : readFields budget limit (skipBlanks more) = .ok (fields, rest)) :
    readFields (budget + 1) limit (fieldChars write f ++ left) = .ok (f :: fields, rest) := by
  obtain ⟨s, hs⟩ := h.name
  rw [fieldChars_append hs]
  simp only [readFields, readString_name hb hs, bind, Except.bind, h.readValue_value hb,
    skipBlanks_cons (c := ':') (by decide), hleft, hmore, Text.Loose.ofPoints_points, ← hs]
  rfl

end SpellsField

/-- Fields with a comma and blanks between each two are read one after the other. -/
theorem readFields_intercalate (hgap : IsGap gap) (hafter : IsGap after) (rest : List Char)
    {f : Text.Loose × Json} {fields : Fields} (h : ∀ x ∈ f :: fields, SpellsField limit write x)
    {budget : Nat}
    (hb : 2 * ((',' :: gap).intercalate ((f :: fields).map (fieldChars write))).length < budget) :
    readFields budget limit
      ((',' :: gap).intercalate ((f :: fields).map (fieldChars write)) ++
        (after ++ '\x7d' :: rest)) = .ok (f :: fields, rest) := by
  induction fields generalizing f budget with
  | nil =>
    obtain ⟨budget, rfl⟩ : ∃ b, budget = b + 1 := ⟨budget - 1, by omega⟩
    rw [List.map_singleton, List.intercalate_singleton] at hb ⊢
    refine (h f List.mem_cons_self).readFields_last (by omega) ?_
    rw [skipBlanks_append hafter, skipBlanks_cons (by decide)]
  | cons g fields ih =>
    obtain ⟨hf, hfields⟩ := List.forall_mem_cons.mp h
    have hopens := (hfields g List.mem_cons_self).opens.intercalate (',' :: gap)
      (fields.map (fieldChars write))
    obtain ⟨budget, rfl⟩ : ∃ b, budget = b + 1 := ⟨budget - 1, by omega⟩
    rw [List.map_cons, List.map_cons, List.intercalate_cons_cons] at hb ⊢
    simp only [List.length_append, List.length_cons] at hb
    rw [List.append_assoc, List.append_assoc, List.cons_append]
    refine hf.readFields_more (by omega) (skipBlanks_cons (by decide) _) ?_
    rw [skipBlanks_append hgap, (hopens.append _).skipBlanks_eq]
    exact ih hfields (by rw [List.map_cons]; omega)

/-- An object, with any blanks after its brace, after the commas and before the closing brace. -/
theorem Spells.obj (hlimit : limit.allows 1) (hbefore : IsGap before) (hgap : IsGap gap)
    (hafter : IsGap after) {fields : Fields} (h : ∀ f ∈ fields, SpellsField limit.inside write f)
    (hdistinct : (fields.map Prod.fst).Nodup) :
    Spells limit
      ('\x7b' :: (before ++ ((',' :: gap).intercalate (fields.map (fieldChars write)) ++
        (after ++ ['\x7d']))))
      (.obj fields) := by
  refine ⟨⟨'\x7b', _, rfl, by simp⟩, fun budget rest hb => ?_, fun c hc => ?_⟩
  · simp only [List.length_cons, List.length_append, List.length_nil] at hb
    obtain ⟨budget, rfl⟩ : ∃ b, budget = b + 1 := ⟨budget - 1, by omega⟩
    simp only [List.cons_append, List.append_assoc, List.nil_append]
    cases fields with
    | nil =>
      have hskip : skipBlanks (before ++ (after ++ '\x7d' :: rest)) = '\x7d' :: rest := by
        rw [skipBlanks_append hbefore, skipBlanks_append hafter, skipBlanks_cons (by decide)]
      simp only [List.map_nil, List.intercalate_nil, List.nil_append, readValue, hlimit,
        Bool.not_true, Bool.false_eq_true, if_false, hskip]
    | cons f fields =>
      have hopens := ((h f List.mem_cons_self).opens.intercalate (',' :: gap)
        (fields.map (fieldChars write))).append (after ++ '\x7d' :: rest)
      have hskip := (skipBlanks_append hbefore _).trans hopens.skipBlanks_eq
      have hkept := congrArg Json.obj (lastWins_of_nodup hdistinct)
      refine hkept ▸ readValue_object hlimit ?_ ?_
      · rw [List.map_cons, hskip]
        exact hopens.head?_ne (by decide)
      · rw [List.map_cons, hskip]
        exact readFields_intercalate hgap hafter rest h (by omega)
  · exact isShown_of_mem_bracketed hbefore hgap hafter (by decide) (by decide)
      (fun f hf => (h f hf).shown) hc

end Parts

/-! ## Values of texts -/

/-- A value of strings, lists and objects that stand in each other at most `room` deep, the names in
an object different from each other. -/
inductive Textual : Nat → Json → Prop where
  | str (room : Nat) (s : String) : Textual room (.str s)
  | arr {room : Nat} {items : List Json} (h : ∀ v ∈ items, Textual room v) :
    Textual (room + 1) (.arr items)
  | obj {room : Nat} {fields : Fields} (names : ∀ f ∈ fields, ∃ s : String, f.1 = s)
    (distinct : (fields.map Prod.fst).Nodup) (h : ∀ f ∈ fields, Textual room f.2) :
    Textual (room + 1) (.obj fields)

theorem compactItems_eq (items : List Json) :
    compactItems items = [',', ' '].intercalate (items.map compactChars) := by
  induction items with
  | nil => rfl
  | cons v items ih =>
    cases items with
    | nil => simp [compactItems]
    | cons w items => simp [compactItems, ih]

theorem compactFields_eq (fields : Fields) :
    compactFields fields = [',', ' '].intercalate (fields.map (fieldChars compactChars)) := by
  induction fields with
  | nil => rfl
  | cons f fields ih =>
    cases fields with
    | nil => simp [compactFields, fieldChars]
    | cons g fields => simp [compactFields, fieldChars, ih]

theorem prettyItems_eq (depth : Nat) (items : List Json) :
    prettyItems depth items =
      (',' :: newline depth).intercalate (items.map (prettyChars depth)) := by
  induction items with
  | nil => rfl
  | cons v items ih =>
    cases items with
    | nil => simp [prettyItems]
    | cons w items => simp [prettyItems, ih]

theorem prettyFields_eq (depth : Nat) (fields : Fields) :
    prettyFields depth fields =
      (',' :: newline depth).intercalate (fields.map (fieldChars (prettyChars depth))) := by
  induction fields with
  | nil => rfl
  | cons f fields ih =>
    cases fields with
    | nil => simp [prettyFields, fieldChars]
    | cons g fields => simp [prettyFields, fieldChars, ih]

namespace Textual

variable {room : Nat} {v : Json} {limit : Limit}

theorem spells_compact (h : Textual room v) (hlimit : limit.allows room) :
    Spells limit (compactChars v) v := by
  have hblank : IsGap [' '] := by simp [IsGap]
  induction h generalizing limit with
  | str room s => exact .str limit s
  | arr h ih =>
    obtain ⟨hone, hinside⟩ := Limit.allows_succ.mp hlimit
    have hspells := Spells.arr hone isGap_nil hblank isGap_nil fun v hv => ih v hv hinside
    simpa [compactChars, compactItems_eq] using hspells
  | obj names distinct h ih =>
    obtain ⟨hone, hinside⟩ := Limit.allows_succ.mp hlimit
    have hspells := Spells.obj hone isGap_nil hblank isGap_nil
      (fun f hf => ⟨names f hf, ih f hf hinside⟩) distinct
    simpa [compactChars, compactFields_eq] using hspells

theorem spells_pretty (h : Textual room v) (hlimit : limit.allows room) (depth : Nat) :
    Spells limit (prettyChars depth v) v := by
  induction h generalizing limit depth with
  | str room s => exact .str limit s
  | @arr room items h ih =>
    obtain ⟨hone, hinside⟩ := Limit.allows_succ.mp hlimit
    have hspells {before after : List Char} (hbefore : IsGap before) (hafter : IsGap after) :=
      Spells.arr hone hbefore (isGap_newline (depth + 1)) hafter fun v hv =>
        ih v hv hinside (depth + 1)
    cases items with
    | nil => exact hspells isGap_nil isGap_nil
    | cons v items =>
      simpa [prettyChars, prettyItems_eq] using
        hspells (isGap_newline (depth + 1)) (isGap_newline depth)
  | @obj room fields names distinct h ih =>
    obtain ⟨hone, hinside⟩ := Limit.allows_succ.mp hlimit
    have hspells {before after : List Char} (hbefore : IsGap before) (hafter : IsGap after) :=
      Spells.obj hone hbefore (isGap_newline (depth + 1)) hafter
        (fun f hf => ⟨names f hf, ih f hf hinside (depth + 1)⟩) distinct
    cases fields with
    | nil => exact hspells isGap_nil isGap_nil
    | cons f fields =>
      simpa [prettyChars, prettyFields_eq] using
        hspells (isGap_newline (depth + 1)) (isGap_newline depth)

end Textual

section Parse

variable {limit : Limit} {room : Nat} {v : Json}

theorem Spells.readDocument_append {cs gap : List Char} (h : Spells limit cs v)
    (hgap : IsGap gap) : readDocument limit (cs ++ gap) = .ok v := by
  have hopens := h.opens.append gap
  have hend : skipBlanks gap = [] := by simpa [skipBlanks] using skipBlanks_append hgap []
  have hlength : 2 * cs.length ≤ 2 * (cs ++ gap).length + 2 := by
    rw [List.length_append]
    omega
  rw [readDocument, if_neg (hopens.head?_ne (by decide)), hopens.skipBlanks_eq,
    h.reads _ gap hlength]
  simp only [bind, Except.bind, hend]
  rfl

theorem parse_compact (h : Textual room v) (hlimit : limit.allows room) :
    parse v.compact limit = .ok v := by
  have hread := (h.spells_compact hlimit).readDocument_append isGap_nil
  rw [List.append_nil] at hread
  rw [parse, compact, String.toList_ofList, hread]
  rfl

theorem parse_pretty (h : Textual room v) (hlimit : limit.allows room) :
    parse (v.pretty ++ "\n") limit = .ok v := by
  have hend : "\n".toList = ['\n'] := rfl
  have hgap : IsGap ['\n'] := by simp [IsGap]
  have hread := (h.spells_pretty hlimit 0).readDocument_append hgap
  rw [parse, pretty, String.toList_append, String.toList_ofList, hend, hread]
  rfl

theorem isShown_of_mem_compact (h : Textual room v) {c : Char} (hc : c ∈ v.compact.toList) :
    IsShown c := by
  rw [compact, String.toList_ofList] at hc
  have hspells : Spells none _ v := h.spells_compact rfl
  exact hspells.shown c hc

theorem isShown_of_mem_pretty (h : Textual room v) {c : Char} (hc : c ∈ v.pretty.toList) :
    IsShown c := by
  rw [pretty, String.toList_ofList] at hc
  have hspells : Spells none _ v := h.spells_pretty rfl 0
  exact hspells.shown c hc

end Parse

end Json

end CommentTypes
