import Mathlib.Data.List.DropRight
import Mathlib.Data.List.Infix

/-
Texts without outer blanks, and joining them with a separator.

The alphabet, the blanks and the separator are parameters. Joined trimmed texts are trimmed
again, so that joining in groups is joining at once, and more texts only add at the end.
-/

namespace Library

variable {A : Type} (blank : A → Bool) (sep : A)

def strip (text : List A) : List A := (text.dropWhile blank).rdropWhile blank

def join (texts : List (List A)) : List A := [sep].intercalate texts

structure Trimmed (text : List A) : Prop where
  nonempty : text ≠ []
  first : ∀ letter ∈ text.head?, blank letter = false
  last : ∀ letter ∈ text.getLast?, blank letter = false

/-! ### Stripping -/

section Strip

variable {blank} {text : List A}

@[simp]
theorem strip_nil : strip blank [] = [] := rfl

theorem Trimmed.strip (left : Library.strip blank text ≠ []) :
    Trimmed blank (Library.strip blank text) where
  nonempty := left
  first := by
    intro letter first
    obtain ⟨rest, kept⟩ := List.rdropWhile_prefix blank (text.dropWhile blank)
    change Library.strip blank text ++ rest = text.dropWhile blank at kept
    have leading : letter ∈ (text.dropWhile blank).head? := by
      rw [← kept, List.head?_append_of_ne_nil _ left]
      exact first
    have nonblank := List.head?_dropWhile_not blank text
    rw [Option.mem_def.mp leading] at nonblank
    exact nonblank
  last := by
    intro letter last
    have nonblank := List.rdropWhile_last_not blank (text.dropWhile blank) left
    obtain ⟨_, same⟩ := List.mem_getLast?_eq_getLast last
    rw [same]
    exact eq_false_of_ne_true nonblank

theorem Trimmed.strip_eq (trimmed : Trimmed blank text) : Library.strip blank text = text := by
  have leading : text.dropWhile blank = text := by
    cases text with
    | nil => rfl
    | cons letter rest =>
        have first : blank letter = false := trimmed.first letter rfl
        rw [List.dropWhile_cons_of_neg (Bool.not_eq_true _ ▸ first)]
  unfold Library.strip
  rw [leading, List.rdropWhile_eq_self_iff]
  intro nonempty
  rw [trimmed.last _ (List.getLast?_eq_some_getLast nonempty)]
  decide

end Strip

/-! ### Joining -/

section Join

variable {blank} {sep} {text : List A} {texts more : List (List A)}

@[simp]
theorem join_nil : join sep [] = [] := rfl

@[simp]
theorem join_singleton : join sep [text] = text := List.intercalate_singleton

theorem join_cons (nonempty : texts ≠ []) :
    join sep (text :: texts) = text ++ sep :: join sep texts := by
  unfold join
  rw [List.intercalate_cons_of_ne_nil nonempty, List.append_assoc, List.singleton_append]

theorem join_append (nonempty : texts ≠ []) (moreNonempty : more ≠ []) :
    join sep (texts ++ more) = join sep texts ++ sep :: join sep more := by
  induction texts with
  | nil => exact absurd rfl nonempty
  | cons text rest ih =>
      cases rest with
      | nil => rw [List.singleton_append, join_cons moreNonempty, join_singleton]
      | cons second rest =>
          rw [List.cons_append, join_cons (List.cons_ne_nil _ _),
            join_cons (List.append_ne_nil_of_left_ne_nil (List.cons_ne_nil _ _) _),
            ih (List.cons_ne_nil _ _), List.append_assoc, List.cons_append]

theorem join_prefix (texts more : List (List A)) : join sep texts <+: join sep (texts ++ more) := by
  by_cases nonempty : texts = []
  · rw [nonempty, join_nil]
    exact List.nil_prefix
  · by_cases moreNonempty : more = []
    · rw [moreNonempty, List.append_nil]
    · rw [join_append nonempty moreNonempty]
      exact List.prefix_append _ _

theorem Trimmed.head_append (trimmed : Trimmed blank text) (rest : List A) :
    ∀ letter ∈ (text ++ rest).head?, blank letter = false := by
  rw [List.head?_append_of_ne_nil _ trimmed.nonempty]
  exact trimmed.first

theorem Trimmed.join (nonempty : texts ≠ []) (trimmed : ∀ text ∈ texts, Trimmed blank text) :
    Trimmed blank (join sep texts) := by
  induction texts with
  | nil => exact absurd rfl nonempty
  | cons text rest ih =>
      have here := trimmed text List.mem_cons_self
      by_cases single : rest = []
      · rw [single, join_singleton]
        exact here
      · have later := ih single (fun other member => trimmed other (List.mem_cons_of_mem _ member))
        rw [join_cons single]
        refine ⟨by simp, here.head_append _, ?_⟩
        intro letter last
        rw [List.getLast?_append_of_ne_nil _ (List.cons_ne_nil _ _),
          List.getLast?_cons_of_ne_nil later.nonempty] at last
        exact later.last letter last

theorem strip_join (trimmed : ∀ text ∈ texts, Trimmed blank text) :
    strip blank (join sep texts) = join sep texts := by
  by_cases nonempty : texts = []
  · rw [nonempty, join_nil, strip_nil]
  · exact (Trimmed.join nonempty trimmed).strip_eq

theorem join_eq_nil_iff (trimmed : ∀ text ∈ texts, Trimmed blank text) :
    join sep texts = [] ↔ texts = [] := by
  constructor
  · intro joined
    by_contra nonempty
    have whole : Trimmed blank (join sep texts) := Trimmed.join nonempty trimmed
    exact whole.nonempty joined
  · intro none
    rw [none, join_nil]

theorem join_flatten {groups : List (List (List A))} (nonempty : ∀ group ∈ groups, group ≠ []) :
    join sep (groups.map (join sep)) = join sep groups.flatten := by
  induction groups with
  | nil => rfl
  | cons group rest ih =>
      have here := nonempty group List.mem_cons_self
      have later := ih (fun other member => nonempty other (List.mem_cons_of_mem _ member))
      by_cases single : rest = []
      · rw [single, List.map_singleton, join_singleton, List.flatten_singleton]
      · have flat : rest.flatten ≠ [] := by
          cases rest with
          | nil => exact absurd rfl single
          | cons second rest =>
              rw [List.flatten_cons]
              exact List.append_ne_nil_of_left_ne_nil
                (nonempty second (List.mem_cons_of_mem _ List.mem_cons_self)) _
        rw [List.map_cons, join_cons (by simpa using single), later, List.flatten_cons,
          join_append here flat]

end Join
end Library
