import Assemblix.Library.Words
import Assemblix.Execution.SetVariableNode

/-
Templates (`core/template_evaluator.py`): the values of expressions between double braces are put
into a text.

A template is cut into its pieces first. What an expression evaluates to is not looked at again.
-/

namespace Assemblix.Templates

open Library

/-- A character of the text around the expressions, or what stands between double braces. -/
inductive Piece
  | text (char : Char)
  | expression (group : List Char)
  deriving DecidableEq, Repr

def Piece.source : Piece → List Char
  | .text char => [char]
  | .expression group => '{' :: '{' :: group ++ ['}', '}']

def source (parts : List Piece) : List Char := parts.flatMap Piece.source

/-- The rest of a group, up to the first double brace on its line. -/
def groupRest : List Char → Option (List Char)
  | '}' :: '}' :: _ => some []
  | char :: rest => if char = '\n' then none else (groupRest rest).map (char :: ·)
  | [] => none

/-- The group of a match of `_TEMPLATE_PATTERN` right here. -/
def groupAt : List Char → Option (List Char)
  | '{' :: '{' :: char :: rest =>
      if char = '\n' then none else (groupRest rest).map (char :: ·)
  | _ => none

/-- The pieces after `skip` characters that belong to a match. -/
def piecesAfter : Nat → List Char → List Piece
  | _, [] => []
  | skip + 1, _ :: rest => piecesAfter skip rest
  | 0, char :: rest =>
      match groupAt (char :: rest) with
      | some group => .expression group :: piecesAfter (group.length + 3) rest
      | none => .text char :: piecesAfter 0 rest

def pieces (template : List Char) : List Piece := piecesAfter 0 template

section Render

variable (cel : CelEvaluator) (fallbackOnError : Bool) (input : NodeInput)

def expressionOf (group : List Char) : String :=
  String.ofList (strip SetVariableNode.isSpace group)

/-- `replace`, and the text between the matches. -/
def replace : Piece → Except String (List Char)
  | .text char => .ok [char]
  | .expression group =>
      match cel.evaluate (expressionOf group) input with
      | .ok value => .ok (cel.text value).toList
      | .error error =>
          if fallbackOnError then .ok (Piece.expression group).source else .error error

def renderPieces (parts : List Piece) : Except String (List Char) :=
  (parts.mapM (replace cel fallbackOnError input)).map List.flatten

def render (template : List Char) : Except String (List Char) :=
  renderPieces cel fallbackOnError input (pieces template)

end Render

/-! ### Cutting a template -/

theorem groupRest_eq {text group : List Char} (found : groupRest text = some group) :
    ∃ after, text = group ++ '}' :: '}' :: after := by
  fun_induction groupRest text generalizing group with
  | case1 after =>
      cases found
      exact ⟨after, rfl⟩
  | case2 => cases found
  | case3 char rest _ _ ih =>
      obtain ⟨group, known, rfl⟩ := Option.map_eq_some_iff.mp found
      obtain ⟨after, same⟩ := ih known
      exact ⟨after, congrArg (char :: ·) same⟩
  | case4 => cases found

theorem groupAt_eq {text group : List Char} (found : groupAt text = some group) :
    ∃ after, text = (Piece.expression group).source ++ after := by
  unfold groupAt at found
  split at found
  case h_1 char rest =>
    split_ifs at found
    obtain ⟨group, known, rfl⟩ := Option.map_eq_some_iff.mp found
    obtain ⟨after, same⟩ := groupRest_eq known
    exact ⟨after, by rw [same]; simp [Piece.source]⟩
  case h_2 => cases found

theorem piecesAfter_drop (skip : Nat) (text : List Char) :
    piecesAfter skip text = pieces (text.drop skip) := by
  induction skip generalizing text with
  | zero => rfl
  | succ skip ih =>
      cases text with
      | nil => rfl
      | cons first rest => exact ih rest

theorem pieces_of_group {text group : List Char} (found : groupAt text = some group) :
    pieces text = .expression group :: pieces (text.drop (group.length + 4)) := by
  cases text with
  | nil => cases found
  | cons first rest =>
      rw [pieces, piecesAfter, found]
      exact congrArg (Piece.expression group :: ·) (piecesAfter_drop (group.length + 3) rest)

theorem pieces_of_none {char : Char} {rest : List Char} (absent : groupAt (char :: rest) = none) :
    pieces (char :: rest) = .text char :: pieces rest := by
  rw [pieces, piecesAfter, absent]
  rfl

/-- A template is cut without loss. -/
theorem source_pieces (template : List Char) : source (pieces template) = template := by
  induction length : template.length using Nat.strong_induction_on generalizing template with
  | _ count ih =>
      cases found : groupAt template with
      | some group =>
          obtain ⟨after, rfl⟩ := groupAt_eq found
          have size : (Piece.expression group).source.length = group.length + 4 := by
            simp [Piece.source]
          have shorter : after.length < count := by
            rw [← length, List.length_append]
            omega
          rw [pieces_of_group found, List.drop_left' size]
          exact congrArg ((Piece.expression group).source ++ ·) (ih _ shorter after rfl)
      | none =>
          cases template with
          | nil => rfl
          | cons char rest =>
              rw [pieces_of_none found]
              exact congrArg (char :: ·) (ih _ (by rw [← length]; simp) rest rfl)

/-- An expression of one line that does not end early. -/
def Legible (group : List Char) : Prop :=
  group ≠ [] ∧ '\n' ∉ group ∧ ¬ ['}', '}'] <:+: group.tail ++ ['}']

/-- A template as it is put together: a brace of the text is not followed by another. -/
def Assembled : List Piece → Prop
  | [] => True
  | .text char :: rest => (char = '{' → (source rest).head? ≠ some '{') ∧ Assembled rest
  | .expression group :: rest => Legible group ∧ Assembled rest

theorem groupRest_append {group : List Char} (oneLine : '\n' ∉ group)
    (closes : ¬ ['}', '}'] <:+: group ++ ['}']) (after : List Char) :
    groupRest (group ++ '}' :: '}' :: after) = some group := by
  induction group with
  | nil => rfl
  | cons char rest ih =>
      have tail : ¬ ['}', '}'] <:+: rest ++ ['}'] :=
        fun found => closes (found.trans (List.suffix_cons char _).isInfix)
      have known := ih (fun found => oneLine (List.mem_cons_of_mem char found)) tail
      have line : char ≠ '\n' := fun same => oneLine (same ▸ List.mem_cons_self)
      have apart : char = '}' → (rest ++ '}' :: '}' :: after).head? ≠ some '}' := by
        rintro rfl next
        cases rest with
        | nil => exact closes ⟨[], [], rfl⟩
        | cons second more =>
            cases next
            exact closes ⟨[], more ++ ['}'], rfl⟩
      rw [List.cons_append]
      unfold groupRest
      split
      case h_1 after' same =>
        obtain ⟨rfl, next⟩ := List.cons.inj same
        exact absurd (congrArg List.head? next) (apart rfl)
      case h_2 first more _ same =>
        obtain ⟨rfl, rfl⟩ := List.cons.inj same
        rw [if_neg line, known]
        rfl
      case h_3 same => cases same

theorem groupAt_of_legible {group : List Char} (legible : Legible group) (after : List Char) :
    groupAt ((Piece.expression group).source ++ after) = some group := by
  obtain ⟨nonempty, oneLine, closes⟩ := legible
  cases group with
  | nil => exact absurd rfl nonempty
  | cons char rest =>
      have line : char ≠ '\n' := fun same => oneLine (same ▸ List.mem_cons_self)
      have known := groupRest_append (fun found => oneLine (List.mem_cons_of_mem char found))
        closes after
      have written : (Piece.expression (char :: rest)).source ++ after =
          '{' :: '{' :: char :: (rest ++ '}' :: '}' :: after) := by
        simp [Piece.source]
      rw [written, groupAt, if_neg line, known]
      rfl

theorem groupAt_of_plain {char : Char} {rest : List Char}
    (plain : char = '{' → rest.head? ≠ some '{') : groupAt (char :: rest) = none := by
  unfold groupAt
  split
  case h_1 first more same =>
    obtain ⟨rfl, rfl⟩ := List.cons.inj same
    exact absurd rfl (plain rfl)
  case h_2 => rfl

theorem pieces_source {parts : List Piece} (assembled : Assembled parts) :
    pieces (source parts) = parts := by
  induction parts with
  | nil => rfl
  | cons part rest ih =>
      cases part with
      | text char =>
          rw [show source (.text char :: rest) = char :: source rest from rfl,
            pieces_of_none (groupAt_of_plain assembled.1), ih assembled.2]
      | expression group =>
          have size : (Piece.expression group).source.length = group.length + 4 := by
            simp [Piece.source]
          rw [show source (.expression group :: rest) =
              (Piece.expression group).source ++ source rest from rfl,
            pieces_of_group (groupAt_of_legible assembled.1 _), List.drop_left' size,
            ih assembled.2]

/-! ### Rendering -/

section Rendering

variable (cel : CelEvaluator) (input : NodeInput)

/-- A piece with its value, if it has one. -/
def filled : Piece → List Char
  | .text char => [char]
  | .expression group =>
      match cel.evaluate (expressionOf group) input with
      | .ok value => (cel.text value).toList
      | .error _ => (Piece.expression group).source

theorem replace_fallback (piece : Piece) :
    replace cel true input piece = .ok (filled cel input piece) := by
  cases piece with
  | text char => rfl
  | expression group =>
      simp only [replace, filled]
      cases cel.evaluate (expressionOf group) input with
      | ok value => rfl
      | error error => rfl

theorem renderPieces_fallback (parts : List Piece) :
    renderPieces cel true input parts = .ok (parts.flatMap (filled cel input)) := by
  unfold renderPieces
  induction parts with
  | nil => rfl
  | cons piece rest ih =>
      rw [List.mapM_cons, replace_fallback]
      cases texts : rest.mapM (replace cel true input) with
      | error error =>
          rw [texts] at ih
          cases ih
      | ok texts =>
          rw [texts] at ih
          exact congrArg (fun text => Except.ok (filled cel input piece ++ text))
            (Except.ok.inj ih)

theorem filled_of_failing {parts : List Piece}
    (failing : ∀ group, .expression group ∈ parts →
      ∃ error, cel.evaluate (expressionOf group) input = .error error) :
    parts.flatMap (filled cel input) = source parts := by
  refine List.flatMap_congr ?_
  intro piece member
  cases piece with
  | text char => rfl
  | expression group =>
      obtain ⟨error, failed⟩ := failing group member
      rw [filled, failed]

/-- Templates are cut without loss. One that is put together from text and expressions renders
piece by piece, whatever the values look like. With the fallback there is always a text, and only
expressions that have a value are changed. -/
theorem render_templates :
    (∀ template, source (pieces template) = template) ∧
      (∀ parts, Assembled parts → ∀ fallbackOnError,
        render cel fallbackOnError input (source parts) =
          (parts.mapM (replace cel fallbackOnError input)).map List.flatten) ∧
      ∀ template, ∃ text, render cel true input template = .ok text ∧
        ((∀ group, .expression group ∈ pieces template →
          ∃ error, cel.evaluate (expressionOf group) input = .error error) → text = template) := by
  refine ⟨source_pieces, ?_, ?_⟩
  · intro parts assembled fallbackOnError
    rw [render, pieces_source assembled]
    rfl
  · intro template
    refine ⟨_, renderPieces_fallback cel input (pieces template), ?_⟩
    intro failing
    rw [filled_of_failing cel input failing, source_pieces]

end Rendering

/-! A value that looks like an expression, and an expression without a value. -/

def echo : CelEvaluator where
  text := fun value => if value = .str "x" then "\x7b\x7b x \x7d\x7d" else ""
  evaluate := fun expression _ =>
    if expression = "x" then .ok (.str "x") else .error "undeclared reference"
  round := id

def quoted : List Piece :=
  [.text '{', .text 'a', .expression [' ', 'x', ' '], .expression ['y'], .text '}']

theorem quoted_assembled : Assembled quoted := by
  simp only [quoted, Assembled, Legible]
  decide

theorem render_quoted :
    render echo true ⟨Dict.empty, Dict.empty, Dict.empty, 1⟩ (source quoted) =
      .ok (source quoted) :=
  ((render_templates echo _).2.1 quoted quoted_assembled true).trans (by decide +kernel)

end Assemblix.Templates
