import CommentTypes.Proofs.Typing.FirstMention
import Mathlib.Data.List.Induction

/-!
# What a tracker has been told

A tracker is used in some way, again and again (`Tracker.Use`), and what it knows in the end is read
off the uses since the last reset: the last declaration of a name and the last refresh after it
(`Recorded`), and the order in which names were declared first (`ListsFirst`).

The uses are taken from the end: one more use adds to what is recorded or replaces it
(`recorded_concat`), and the tracker changes in the same way (`Follows.use`), so after any uses the
two agree (`follows_after`).
-/

namespace CommentTypes.Tracker

/-- Something that is done with a tracker. -/
inductive Use where
  | declare (name : String) (declared : Option TypeName) (inferred : TypeName)
      (complex : Option Bool)
  | refresh (name : String) (inferred : TypeName)
  | get (name : String)
  | resolve (name : String)
  | contains (name : String)
  | reset
  deriving DecidableEq

/-- The tracker after a use. Asking for something changes nothing. -/
def use (t : Tracker) : Use → Tracker
  | .declare name declared inferred complex => t.declare name declared inferred complex
  | .refresh name inferred => t.refresh name inferred
  | .get _ | .resolve _ | .contains _ => t
  | .reset => t.reset

/-- A new tracker after some uses. -/
def after (uses : List Use) : Tracker :=
  uses.foldl use {}

theorem after_concat (uses : List Use) (u : Use) : after (uses ++ [u]) = (after uses).use u :=
  List.foldl_append

/-! ## The history -/

namespace Use

/-- The use declares the name. -/
def Declares : Use → String → Prop
  | declare name _ _ _, a => a = name
  | refresh _ _, _ | get _, _ | resolve _, _ | contains _, _ | reset, _ => False

instance (u : Use) : DecidablePred u.Declares := fun a =>
  match u with
  | declare name _ _ _ => inferInstanceAs (Decidable (a = name))
  | refresh _ _ | get _ | resolve _ | contains _ | reset => inferInstanceAs (Decidable False)

/-- The type that the use refreshes the name with, if it does. -/
def refreshed? (name : String) : Use → Option TypeName
  | refresh a inferred => if a = name then some inferred else none
  | declare _ _ _ _ | get _ | resolve _ | contains _ | reset => none

/-- The use asks for something. -/
def isLookup : Use → Bool
  | get _ | resolve _ | contains _ => true
  | declare _ _ _ _ | refresh _ _ | reset => false

/-- The uses after the last reset. -/
def sinceReset (uses : List Use) : List Use :=
  (uses.reverse.takeWhile (· ≠ reset)).reverse

theorem sinceReset_concat (uses : List Use) (u : Use) :
    sinceReset (uses ++ [u]) = if u = reset then [] else sinceReset uses ++ [u] := by
  unfold sinceReset
  rw [List.reverse_append, List.reverse_singleton, List.singleton_append, List.takeWhile_cons]
  by_cases h : u = reset
  · simp [h]
  · simp [h]

/-- The type of the last refresh of the name. -/
def lastRefresh? (name : String) (uses : List Use) : Option TypeName :=
  uses.reverse.findSome? (refreshed? name)

theorem lastRefresh?_concat (name : String) (uses : List Use) (u : Use) :
    lastRefresh? name (uses ++ [u]) = (u.refreshed? name).or (lastRefresh? name uses) := by
  rw [lastRefresh?, List.reverse_append, List.findSome?_append, List.reverse_singleton,
    List.findSome?_singleton]
  rfl

end Use

/-- The binding that some uses leave for a name: that of the last declaration of the name, with the
type of the last refresh after it if there is one. -/
def Recorded (uses : List Use) (name : String) (b : Binding) : Prop :=
  ∃ before declared inferred complex rest,
    uses = before ++ .declare name declared inferred complex :: rest ∧
    (∀ u ∈ rest, ¬ u.Declares name) ∧
    b = { binding declared inferred complex with
          inferred := (Use.lastRefresh? name rest).getD inferred }

variable {uses : List Use} {u : Use} {name : String} {b : Binding} {t : Tracker}

theorem not_recorded_nil : ¬ Recorded [] name b := by
  rintro ⟨before, declared, inferred, complex, rest, h, -⟩
  cases before <;> cases h

/-- An item of a list with one more item at its end is that item, or it was there before. -/
theorem concat_eq_append_cons {α : Type} {xs before rest : List α} {x a : α}
    (h : xs ++ [x] = before ++ a :: rest) :
    a = x ∧ rest = [] ∨ ∃ front, rest = front ++ [x] ∧ xs = before ++ a :: front := by
  cases rest using List.reverseRecOn with
  | nil =>
    obtain ⟨-, hlast⟩ := List.append_inj' h rfl
    exact .inl ⟨(List.cons.inj hlast).1.symm, rfl⟩
  | append_singleton front y =>
    rw [← List.cons_append, ← List.append_assoc] at h
    obtain ⟨hfront, hlast⟩ := List.append_inj' h rfl
    exact .inr ⟨front, by rw [hlast], hfront⟩

/-- A declaration replaces what was recorded. -/
theorem recorded_concat_declare {declared : Option TypeName} {inferred : TypeName}
    {complex : Option Bool} :
    Recorded (uses ++ [.declare name declared inferred complex]) name b ↔
      b = binding declared inferred complex := by
  constructor
  · rintro ⟨before, declared', inferred', complex', rest, huses, hrest, rfl⟩
    rcases concat_eq_append_cons huses with ⟨hlast, rfl⟩ | ⟨front, rfl, -⟩
    · cases hlast
      rfl
    · exact absurd rfl (hrest _ (List.mem_append_right _ List.mem_cons_self))
  · rintro rfl
    exact ⟨uses, declared, inferred, complex, [], rfl, by simp, rfl⟩

/-- A use that does not declare a name leaves its binding, with another type if it refreshes the
name. -/
theorem recorded_concat (h : ¬ u.Declares name) :
    Recorded (uses ++ [u]) name b ↔ ∃ old, Recorded uses name old ∧
      b = { old with inferred := (u.refreshed? name).getD old.inferred } := by
  constructor
  · rintro ⟨before, declared, inferred, complex, rest, huses, hrest, rfl⟩
    rcases concat_eq_append_cons huses with ⟨rfl, -⟩ | ⟨front, rfl, hfront⟩
    · exact absurd rfl h
    · refine ⟨_, ⟨before, declared, inferred, complex, front, hfront,
        fun v hv => hrest v (List.mem_append_left _ hv), rfl⟩, ?_⟩
      rw [Use.lastRefresh?_concat, Option.getD_or]
  · rintro ⟨-, ⟨before, declared, inferred, complex, rest, rfl, hrest, rfl⟩, rfl⟩
    refine ⟨before, declared, inferred, complex, rest ++ [u], List.append_assoc .., ?_, ?_⟩
    · intro v hv
      rcases List.mem_append.mp hv with hv | hv
      · exact hrest v hv
      · exact List.mem_singleton.mp hv ▸ h
    · rw [Use.lastRefresh?_concat, Option.getD_or]

/-- A use that does not concern a name leaves its binding. -/
theorem recorded_concat_of_other (h : ¬ u.Declares name) (hr : u.refreshed? name = none) :
    Recorded (uses ++ [u]) name b ↔ Recorded uses name b := by
  rw [recorded_concat h, hr]
  constructor
  · rintro ⟨old, hold, rfl⟩
    exact hold
  · exact fun hb => ⟨b, hb, rfl⟩

/-! ## The tracker follows the history -/

/-- A tracker knows what some uses record, and has their names in order. -/
structure Follows (uses : List Use) (t : Tracker) : Prop where
  find? : ∀ name b, t.find? name = some b ↔ Recorded uses name b
  names : ListsFirst Use.Declares uses t.names

theorem follows_nil : Follows [] {} :=
  ⟨fun _ _ => iff_of_false (by simp [NameMap.find?]) not_recorded_nil, .nil⟩

/-- Asking for something is no news. -/
theorem Follows.lookup (h : Follows uses t) (hu : u.isLookup = true) : Follows (uses ++ [u]) t := by
  have hdeclares : ∀ a, ¬ u.Declares a := by
    cases u <;> simp_all [Use.isLookup, Use.Declares]
  refine ⟨fun name b => ?_, h.names.concat_known fun a ha => absurd ha (hdeclares a)⟩
  have hrefreshed : u.refreshed? name = none := by
    cases u <;> simp_all [Use.isLookup, Use.refreshed?]
  rw [h.find?, recorded_concat_of_other (hdeclares name) hrefreshed]

theorem Follows.declare (h : Follows uses t) (name : String) (declared : Option TypeName)
    (inferred : TypeName) (complex : Option Bool) :
    Follows (uses ++ [.declare name declared inferred complex])
      (t.declare name declared inferred complex) := by
  refine ⟨fun a b => ?_, h.names.insert (fun _ => Iff.rfl) _⟩
  rw [Tracker.declare, NameMap.find?_insert]
  by_cases ha : a = name
  · subst ha
    rw [if_pos rfl, recorded_concat_declare, Option.some_inj, eq_comm]
  · rw [if_neg ha, h.find?,
      recorded_concat_of_other (u := .declare name declared inferred complex) ha rfl]

theorem Follows.refresh (h : Follows uses t) (name : String) (inferred : TypeName) :
    Follows (uses ++ [.refresh name inferred]) (t.refresh name inferred) := by
  refine ⟨fun a b => ?_, ?_⟩
  · rw [Tracker.refresh, NameMap.find?_modify]
    by_cases ha : a = name
    · subst ha
      rw [if_pos rfl, Option.map_eq_some_iff, recorded_concat (u := .refresh a inferred) id]
      simp only [h.find?, Use.refreshed?, if_true, Option.getD_some]
      exact exists_congr fun old => and_congr_right fun _ => eq_comm
    · rw [if_neg ha, h.find?, recorded_concat_of_other (u := .refresh name inferred) id
        (if_neg (Ne.symm ha))]
  · rw [Tracker.refresh, NameMap.names_modify]
    exact h.names.concat_known fun a ha => ha.elim

/-- What one use does, the tracker follows. -/
theorem Follows.use (h : Follows uses t) (u : Use) :
    Follows (if u = .reset then [] else uses ++ [u]) (t.use u) := by
  cases u with
  | declare name declared inferred complex => exact h.declare ..
  | refresh name inferred => exact h.refresh ..
  | get name | resolve name | contains name => exact h.lookup rfl
  | reset => exact follows_nil

/-- A tracker knows what it was told since the last reset. -/
theorem follows_after (uses : List Use) : Follows (Use.sinceReset uses) (after uses) := by
  induction uses using List.reverseRecOn with
  | nil => exact follows_nil
  | append_singleton uses u ih =>
    rw [Use.sinceReset_concat, after_concat]
    exact ih.use u

theorem refresh_of_not_contains (h : t.contains name = false) (inferred : TypeName) :
    t.refresh name inferred = t := by
  rw [refresh, NameMap.modify, Option.not_isSome_iff_eq_none.mp (Bool.eq_false_iff.mp h)]

/-- A tracker keeps what it was told since the last reset. A name is tracked if it was declared
since then, with the binding of its last declaration and the type of the last refresh after that.
The names are listed once each, in the order of their first declarations, and each with its binding.
Asking for something changes nothing, and neither does a refresh of a name that is not tracked. -/
theorem tracker_keeps_history (uses : List Use) :
    (∀ name, (after uses).contains name = true ↔ ∃ u ∈ Use.sinceReset uses, u.Declares name) ∧
    (∀ name b, (after uses).find? name = some b ↔ Recorded (Use.sinceReset uses) name b) ∧
    ((after uses).names.Nodup ∧
      ListsFirst Use.Declares (Use.sinceReset uses) (after uses).names ∧
      (after uses).size = (after uses).names.length ∧
      ∀ name b, (name, b) ∈ (after uses).entries ↔ (after uses).find? name = some b) ∧
    ∀ u : Use, (u.isLookup = true ∨
        ∃ name inferred, u = .refresh name inferred ∧ (after uses).contains name = false) →
      after (uses ++ [u]) = after uses := by
  have hfollows := follows_after uses
  have hnodup := hfollows.names.nodup
  refine ⟨fun name => ?_, hfollows.find?, ⟨hnodup, hfollows.names, ?_, fun name b => ?_⟩,
    fun u hu => ?_⟩
  · rw [← NameMap.mem_names, hfollows.names.mem_iff]
  · rw [NameMap.size, NameMap.names, List.length_map]
  · exact NameMap.mem_entries_iff hnodup
  · rw [after_concat]
    rcases hu with hlookup | ⟨name, inferred, rfl, huntracked⟩
    · cases u with
      | get name | resolve name | contains name => rfl
      | declare name declared inferred complex => cases hlookup
      | refresh name inferred => cases hlookup
      | reset => cases hlookup
    · exact refresh_of_not_contains huntracked inferred

/-- A variable that a reset forgets, two that are declared after it, and one of them again, with
refreshes before and after. -/
def redeclared : List Use :=
  [.declare "z" (some "string") "string" none, .reset,
    .declare "a" (some "number") "number" none, .declare "b" none "array" (some true),
    .refresh "a" "null", .declare "a" (some "string|number") "object" none,
    .refresh "a" "number", .refresh "z" "number", .refresh "a" "string", .get "a"]

theorem redeclared_kept :
    ((after redeclared).contains "a" = true ∧ (after redeclared).contains "z" = false) ∧
    (∃ u ∈ Use.sinceReset redeclared, u.Declares "a") ∧
    Recorded (Use.sinceReset redeclared) "a" ⟨some "string|number", "string", true⟩ ∧
    (after redeclared).names = ["a", "b"] ∧
    after (redeclared ++ [.refresh "z" "number"]) = after redeclared ∧
    after (redeclared ++ [.resolve "z"]) = after redeclared := by
  obtain ⟨htracked, hrecorded, -, hsame⟩ := tracker_keeps_history redeclared
  have ha : (after redeclared).contains "a" = true := by decide +kernel
  have hz : (after redeclared).contains "z" = false := by decide +kernel
  refine ⟨⟨ha, hz⟩, (htracked "a").mp ha, (hrecorded ..).mp (by decide +kernel),
    by decide +kernel, hsame _ (.inr ⟨"z", "number", rfl, hz⟩), hsame _ (.inl rfl)⟩

end CommentTypes.Tracker
