import CommentTypes.Proofs.Typing.Tracker

/-!
# Names in the order of their first mention

Items come one after the other, and each may mention a name. A list of names follows them if it has
the names that were mentioned, by the items that mentioned them first (`ListsFirst`). Such a list
has no name twice (`ListsFirst.nodup`), and a map whose names are such a list keeps it so when the
next item gives a name its value (`ListsFirst.insert`).
-/

namespace CommentTypes

/-- The names that some items mention, in the order of the first items that mention them. -/
structure ListsFirst {ι : Type} (Mentions : ι → String → Prop)
    [∀ i, DecidablePred (Mentions i)] (items : List ι) (names : List String) : Prop where
  mem_iff : ∀ a, a ∈ names ↔ ∃ i ∈ items, Mentions i a
  ordered : names.Pairwise fun a b =>
    items.findIdx (fun i => Mentions i a) < items.findIdx fun i => Mentions i b

namespace ListsFirst

variable {ι : Type} {Mentions : ι → String → Prop} [∀ i, DecidablePred (Mentions i)]
  {items : List ι} {names : List String} {i : ι} {a : String}

theorem nil : ListsFirst Mentions [] [] :=
  ⟨by simp, .nil⟩

theorem nodup (h : ListsFirst Mentions items names) : names.Nodup := by
  refine List.nodup_iff_pairwise_ne.mpr (h.ordered.imp fun hlt => ?_)
  rintro rfl
  exact Nat.lt_irrefl _ hlt

theorem findIdx_lt (h : ListsFirst Mentions items names) (ha : a ∈ names) :
    items.findIdx (fun i => Mentions i a) < items.length := by
  obtain ⟨i, hi, hmentions⟩ := (h.mem_iff a).mp ha
  exact List.findIdx_lt_length_of_exists ⟨i, hi, decide_eq_true hmentions⟩

/-- One more item does not move the first mention of a name that was mentioned. -/
theorem findIdx_concat (h : ListsFirst Mentions items names) (ha : a ∈ names) (i : ι) :
    (items ++ [i]).findIdx (fun i => Mentions i a) = items.findIdx fun i => Mentions i a := by
  rw [List.findIdx_append, if_pos (h.findIdx_lt ha)]

theorem ordered_concat (h : ListsFirst Mentions items names) (i : ι) :
    names.Pairwise fun a b => (items ++ [i]).findIdx (fun i => Mentions i a) <
      (items ++ [i]).findIdx fun i => Mentions i b :=
  h.ordered.imp_of_mem fun ha hb hlt => by
    rwa [h.findIdx_concat ha, h.findIdx_concat hb]

/-- An item that mentions nothing new leaves the list as it is. -/
theorem concat_known (h : ListsFirst Mentions items names) (hi : ∀ a, Mentions i a → a ∈ names) :
    ListsFirst Mentions (items ++ [i]) names := by
  refine ⟨fun a => ?_, h.ordered_concat i⟩
  rw [h.mem_iff]
  constructor
  · rintro ⟨j, hj, hmentions⟩
    exact ⟨j, List.mem_append_left _ hj, hmentions⟩
  · rintro ⟨j, hj, hmentions⟩
    rcases List.mem_append.mp hj with hj | hj
    · exact ⟨j, hj, hmentions⟩
    · obtain rfl := List.mem_singleton.mp hj
      exact (h.mem_iff a).mp (hi a hmentions)

/-- An item that mentions a new name puts it at the end. -/
theorem concat_new (h : ListsFirst Mentions items names) (hi : ∀ b, Mentions i b ↔ b = a)
    (ha : a ∉ names) : ListsFirst Mentions (items ++ [i]) (names ++ [a]) := by
  refine ⟨fun b => ?_, List.pairwise_append.mpr
    ⟨h.ordered_concat i, List.pairwise_singleton .., fun b hb c hc => ?_⟩⟩
  · simp only [List.mem_append, List.mem_singleton, h.mem_iff]
    constructor
    · rintro (⟨j, hj, hmentions⟩ | rfl)
      · exact ⟨j, .inl hj, hmentions⟩
      · exact ⟨i, .inr rfl, (hi b).mpr rfl⟩
    · rintro ⟨j, hj | rfl, hmentions⟩
      · exact .inl ⟨j, hj, hmentions⟩
      · exact .inr ((hi b).mp hmentions)
  · obtain rfl := List.mem_singleton.mp hc
    -- no item before the last one mentions the new name
    have hlast : ¬ items.findIdx (fun i => Mentions i c) < items.length := fun hlt => by
      obtain ⟨j, hj, hmentions⟩ := List.findIdx_lt_length.mp hlt
      exact ha ((h.mem_iff c).mpr ⟨j, hj, of_decide_eq_true hmentions⟩)
    have hlt := h.findIdx_lt hb
    rw [h.findIdx_concat hb, List.findIdx_append, if_neg hlast]
    omega

/-- A map whose names are listed by their first mentions, and an item that gives a name its
value. -/
theorem insert {α : Type} {m : NameMap α} (h : ListsFirst Mentions items m.names)
    (hi : ∀ b, Mentions i b ↔ b = a) (value : α) :
    ListsFirst Mentions (items ++ [i]) (m.insert a value).names := by
  rw [NameMap.names_insert]
  split
  · rename_i ha
    exact h.concat_known fun b hb => (hi b).mp hb ▸ ha
  · rename_i ha
    exact h.concat_new hi ha

end ListsFirst

end CommentTypes
