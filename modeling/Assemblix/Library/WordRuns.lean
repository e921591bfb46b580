import Assemblix.Library.Words

/-
The words of a text, and cutting a text into pieces.

A word is a longest run of letters that are no blanks. The pieces of a text have its words
exactly where no cut has such a letter on both sides.
-/

namespace Library

variable {A : Type} (blank : A → Bool)

def startsSolid (text : List A) : Bool := text.head?.any (fun letter => !blank letter)

def endsSolid (text : List A) : Bool := text.getLast?.any (fun letter => !blank letter)

/-- No word goes on over the cut between two texts. -/
def Clean (before after : List A) : Prop :=
  endsSolid blank before = true → startsSolid blank after = false

def solid (text : List A) : List A := text.filter (fun letter => !blank letter)

def lengthen (letter : A) (goesOn : Bool) : List (List A) → List (List A)
  | word :: rest => if goesOn then (letter :: word) :: rest else [letter] :: word :: rest
  | [] => [[letter]]

def words : List A → List (List A)
  | [] => []
  | letter :: rest =>
      if blank letter then words rest
      else lengthen letter (startsSolid blank rest) (words rest)

variable {blank}

/-! ### Words of two texts -/

theorem startsSolid_append {before after : List A} (nonempty : before ≠ []) :
    startsSolid blank (before ++ after) = startsSolid blank before := by
  unfold startsSolid
  rw [List.head?_append_of_ne_nil _ nonempty]

theorem endsSolid_cons {letter : A} {rest : List A} (nonempty : rest ≠ []) :
    endsSolid blank (letter :: rest) = endsSolid blank rest := by
  unfold endsSolid
  rw [List.getLast?_cons_of_ne_nil nonempty]

theorem Clean.nil_right (before : List A) : Clean blank before [] := fun _ => rfl

theorem Clean.nil_left (after : List A) : Clean blank [] after := fun ends => nomatch ends

theorem Clean.of_starts {before after : List A} (starts : startsSolid blank after = false) :
    Clean blank before after := fun _ => starts

theorem Clean.of_ends {before after : List A} (ends : endsSolid blank before = false) :
    Clean blank before after := fun other => absurd (ends.symm.trans other) Bool.false_ne_true

theorem words_ne_nil {text : List A} (starts : startsSolid blank text = true) :
    words blank text ≠ [] := by
  cases text with
  | nil => cases starts
  | cons letter rest =>
      have first : blank letter = false := by simpa [startsSolid] using starts
      rw [words, first, if_neg Bool.false_ne_true]
      cases words blank rest with
      | nil => exact List.cons_ne_nil _ _
      | cons word others =>
          cases startsSolid blank rest <;> exact List.cons_ne_nil _ _

theorem lengthen_append (letter : A) (goesOn : Bool) {some more : List (List A)}
    (nonempty : some ≠ []) :
    lengthen letter goesOn (some ++ more) = lengthen letter goesOn some ++ more := by
  cases some with
  | nil => exact absurd rfl nonempty
  | cons word rest =>
      unfold lengthen
      dsimp only [List.cons_append]
      split <;> rfl

theorem lengthen_stop (letter : A) (some : List (List A)) :
    lengthen letter false some = [letter] :: some := by
  cases some <;> rfl

theorem length_lengthen (letter : A) {some : List (List A)} (nonempty : some ≠ []) :
    (lengthen letter true some).length = some.length := by
  cases some with
  | nil => exact absurd rfl nonempty
  | cons word rest => rfl

theorem words_append {before after : List A} (clean : Clean blank before after) :
    words blank (before ++ after) = words blank before ++ words blank after := by
  induction before with
  | nil => rfl
  | cons letter rest ih =>
      rw [List.cons_append, words, words]
      by_cases single : rest = []
      · subst single
        rw [List.nil_append, words]
        split
        · rfl
        · rename_i letterSolid
          have starts : startsSolid blank after = false := by
            refine clean ?_
            simpa [endsSolid] using letterSolid
          rw [starts, lengthen_stop]
          rfl
      · have earlier := ih (fun ends => clean ((endsSolid_cons single).trans ends))
        split
        · exact earlier
        · rw [startsSolid_append single, earlier]
          cases starts : startsSolid blank rest with
          | true => exact lengthen_append _ _ (words_ne_nil starts)
          | false => rw [lengthen_stop, lengthen_stop, List.cons_append]

theorem length_words_append {before after : List A} (cut : ¬ Clean blank before after) :
    (words blank (before ++ after)).length + 1 =
      (words blank before).length + (words blank after).length := by
  induction before with
  | nil => exact absurd (Clean.nil_left after) cut
  | cons letter rest ih =>
      rw [List.cons_append, words, words]
      by_cases single : rest = []
      · subst single
        have ends : blank letter = false := by
          by_contra blankLetter
          refine cut (Clean.of_ends ?_)
          simpa [endsSolid] using blankLetter
        have starts : startsSolid blank after = true := by
          by_contra stops
          exact cut (Clean.of_starts (eq_false_of_ne_true stops))
        rw [List.nil_append, words, ends, if_neg Bool.false_ne_true, if_neg Bool.false_ne_true,
          starts, length_lengthen letter (words_ne_nil starts), lengthen, List.length_singleton]
        exact Nat.add_comm _ 1
      · have earlier := ih (fun clean =>
          cut (fun ends => clean ((endsSolid_cons single).symm.trans ends)))
        split
        · exact earlier
        · rw [startsSolid_append single]
          cases starts : startsSolid blank rest with
          | true =>
              have solidRest := words_ne_nil starts
              have both : words blank (rest ++ after) ≠ [] :=
                words_ne_nil ((startsSolid_append single).trans starts)
              rw [length_lengthen letter both, length_lengthen letter solidRest]
              exact earlier
          | false =>
              rw [lengthen_stop, lengthen_stop, List.length_cons, List.length_cons]
              omega

theorem length_words_append_le (before after : List A) :
    (words blank (before ++ after)).length ≤
      (words blank before).length + (words blank after).length := by
  by_cases clean : Clean blank before after
  · rw [words_append clean, List.length_append]
  · have counted := length_words_append clean
    omega

theorem flatten_words (text : List A) : (words blank text).flatten = solid blank text := by
  induction text with
  | nil => rfl
  | cons letter rest ih =>
      unfold solid at ih ⊢
      rw [words]
      cases here : blank letter with
      | true => rw [if_pos rfl, List.filter_cons_of_neg (by simp [here]), ih]
      | false =>
          rw [if_neg Bool.false_ne_true, List.filter_cons_of_pos (by simp [here]), ← ih]
          cases words blank rest with
          | nil => rfl
          | cons word others => cases startsSolid blank rest <;> rfl

theorem flatten_flatMap_words (pieces : List (List A)) :
    (pieces.flatMap (words blank)).flatten = solid blank pieces.flatten := by
  induction pieces with
  | nil => rfl
  | cons piece rest ih =>
      rw [List.flatMap_cons, List.flatten_append, flatten_words, ih, List.flatten_cons]
      exact (List.filter_append piece rest.flatten).symm

/-! ### Words and blanks -/

theorem blank_of_solid {text : List A} (none : solid blank text = []) :
    ∀ letter ∈ text, blank letter = true := by
  intro letter member
  simpa using List.filter_eq_nil_iff.mp none letter member

theorem words_of_blanks {text : List A} (blanks : ∀ letter ∈ text, blank letter = true) :
    words blank text = [] := by
  induction text with
  | nil => rfl
  | cons letter rest ih =>
      rw [words, if_pos (blanks letter List.mem_cons_self)]
      exact ih (fun other member => blanks other (List.mem_cons_of_mem letter member))

theorem words_dropWhile (text : List A) : words blank (text.dropWhile blank) = words blank text := by
  induction text with
  | nil => rfl
  | cons letter rest ih =>
      cases here : blank letter with
      | true => rw [List.dropWhile_cons_of_pos here, words, if_pos here, ih]
      | false => rw [List.dropWhile_cons_of_neg (by simp [here])]

theorem words_rdropWhile (text : List A) :
    words blank (text.rdropWhile blank) = words blank text := by
  induction text using List.reverseRecOn with
  | nil => rfl
  | append_singleton rest letter ih =>
      cases here : blank letter with
      | true =>
          have starts : startsSolid blank [letter] = false := by simp [startsSolid, here]
          have none : words blank [letter] = [] := if_pos here
          rw [List.rdropWhile_concat_pos _ _ _ here, ih, words_append (Clean.of_starts starts),
            none, List.append_nil]
      | false => rw [List.rdropWhile_concat_neg _ _ _ (by simp [here])]

theorem words_strip (text : List A) : words blank (strip blank text) = words blank text := by
  unfold strip
  rw [words_rdropWhile, words_dropWhile]

/-! ### Pieces -/

theorem length_words_flatten_le (pieces : List (List A)) :
    (words blank pieces.flatten).length ≤ (pieces.flatMap (words blank)).length := by
  induction pieces with
  | nil => exact Nat.le_refl 0
  | cons piece rest ih =>
      have here : _ ≤ (words blank piece).length + _ :=
        length_words_append_le piece rest.flatten
      rw [List.flatten_cons, List.flatMap_cons, List.length_append]
      omega

def CleanCuts (blank : A → Bool) : List (List A) → List A → Prop
  | [], _ => True
  | piece :: rest, after => Clean blank piece (rest.flatten ++ after) ∧ CleanCuts blank rest after

theorem Clean.of_append {before last after : List A} (clean : Clean blank (before ++ last) after)
    (nonempty : last ≠ []) : Clean blank last after := by
  unfold Clean endsSolid at clean ⊢
  rwa [List.getLast?_append_of_ne_nil _ nonempty] at clean

theorem Clean.append_left {last after : List A} (clean : Clean blank last after)
    (nonempty : last ≠ []) (before : List A) : Clean blank (before ++ last) after := by
  unfold Clean endsSolid at clean ⊢
  rwa [List.getLast?_append_of_ne_nil _ nonempty]

theorem Clean.append_right {before first : List A} (clean : Clean blank before first)
    (nonempty : first ≠ []) (after : List A) : Clean blank before (first ++ after) := by
  unfold Clean at clean ⊢
  rwa [startsSolid_append nonempty]

namespace CleanCuts

variable {pieces more : List (List A)} {after later : List A}

theorem append_iff :
    CleanCuts blank (pieces ++ more) after ↔
      CleanCuts blank pieces (more.flatten ++ after) ∧ CleanCuts blank more after := by
  induction pieces with
  | nil => exact (and_iff_right trivial).symm
  | cons piece rest ih =>
      rw [List.cons_append, CleanCuts, CleanCuts, ih, List.flatten_append, List.append_assoc,
        and_assoc]

theorem last (clean : CleanCuts blank pieces after) : Clean blank pieces.flatten after := by
  induction pieces with
  | nil => exact Clean.nil_left after
  | cons piece rest ih =>
      obtain ⟨first, others⟩ := clean
      rw [List.flatten_cons]
      by_cases none : rest.flatten = []
      · rw [none, List.append_nil]
        rwa [none] at first
      · exact (ih others).append_left none piece

theorem append_right (clean : CleanCuts blank pieces after)
    (goesOn : after = [] → Clean blank pieces.flatten later) :
    CleanCuts blank pieces (after ++ later) := by
  induction pieces with
  | nil => exact trivial
  | cons piece rest ih =>
      obtain ⟨first, others⟩ := clean
      refine ⟨?_, ih others (fun none => ?_)⟩
      · rw [← List.append_assoc]
        by_cases none : rest.flatten ++ after = []
        · obtain ⟨noRest, noAfter⟩ := List.append_eq_nil_iff.mp none
          have whole := goesOn noAfter
          rw [List.flatten_cons, noRest, List.append_nil] at whole
          rwa [none]
        · exact first.append_right none later
      · by_cases noRest : rest.flatten = []
        · rw [noRest]
          exact Clean.nil_left later
        · exact (List.flatten_cons ▸ goesOn none).of_append noRest

end CleanCuts

theorem words_pieces_iff (pieces : List (List A)) :
    pieces.flatMap (words blank) = words blank pieces.flatten ↔ CleanCuts blank pieces [] := by
  induction pieces with
  | nil => exact ⟨fun _ => trivial, fun _ => rfl⟩
  | cons piece rest ih =>
      rw [List.flatMap_cons, List.flatten_cons, CleanCuts, List.append_nil, ← ih]
      by_cases clean : Clean blank piece rest.flatten
      · rw [words_append clean, List.append_cancel_left_eq, and_iff_right clean]
      · have counted := length_words_append clean
        have others : _ ≤ (rest.flatMap (words blank)).length := length_words_flatten_le rest
        refine ⟨fun same => ?_, fun both => absurd both.1 clean⟩
        have lengths := congrArg List.length same
        rw [List.length_append] at lengths
        omega

end Library
