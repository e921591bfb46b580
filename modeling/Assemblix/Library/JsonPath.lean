import Assemblix.Library.Dict
import Assemblix.Library.Json

/-
Paths into nested JSON objects.

A path names a field of a field of an object. Writing a path creates the missing objects
on the way and replaces the last field only, so a path that is neither a prefix nor an
extension of the written one reads as before.
-/

namespace Library

abbrev JsonPath := List String

namespace Json

def field (name : String) : Json → Option Json
  | .obj fields => Dict.find name fields
  | _ => none

def isObject : Json → Bool
  | .obj _ => true
  | _ => false

def read (value : Json) : JsonPath → Option Json
  | [] => some value
  | name :: rest => (value.field name).bind (fun inner => inner.read rest)

/-- Write below the fields of an object. `null` counts as missing; an intermediate that is
neither missing nor an object is refused with the names walked so far. -/
def setNested (fields : List (String × Json)) : JsonPath → Json →
    Except (JsonPath × Json) (List (String × Json))
  | [], _ => .ok fields
  | [name], value => .ok (Dict.assign name value fields)
  | name :: next :: rest, value =>
      match Dict.find name fields with
      | none | some .null =>
          (setNested [] (next :: rest) value).map (fun inner =>
            Dict.assign name (.obj inner) fields) |>.mapError (fun error =>
            (name :: error.1, error.2))
      | some (.obj inner) =>
          (setNested inner (next :: rest) value).map (fun inner =>
            Dict.assign name (.obj inner) fields) |>.mapError (fun error =>
            (name :: error.1, error.2))
      | some other => .error ([name], other)

end Json

def JsonPath.Apart (left right : JsonPath) : Prop := ¬ left <+: right ∧ ¬ right <+: left

namespace JsonPath.Apart

theorem symm {left right : JsonPath} (apart : Apart left right) : Apart right left :=
  ⟨apart.2, apart.1⟩

theorem of_cons {name : String} {left right : JsonPath}
    (apart : Apart (name :: left) (name :: right)) : Apart left right := by
  constructor
  · intro leads
    exact apart.1 (List.cons_prefix_cons.mpr ⟨rfl, leads⟩)
  · intro leads
    exact apart.2 (List.cons_prefix_cons.mpr ⟨rfl, leads⟩)

theorem ne_nil {left right : JsonPath} (apart : Apart left right) : right ≠ [] := by
  intro empty
  rw [empty] at apart
  exact apart.2 (List.nil_prefix)

end JsonPath.Apart

namespace Json

@[simp] theorem read_null (name : String) (rest : JsonPath) : read .null (name :: rest) = none :=
  rfl

theorem read_obj (fields : List (String × Json)) (name : String) (rest : JsonPath) :
    read (.obj fields) (name :: rest) =
      (Dict.find name fields).bind (fun inner => inner.read rest) := rfl

theorem read_append (value : Json) (path more : JsonPath) :
    value.read (path ++ more) = (value.read path).bind (fun inner => inner.read more) := by
  induction path generalizing value with
  | nil => rfl
  | cons name rest ih =>
      rw [List.cons_append, read, read, Option.bind_assoc]
      congr 1
      funext inner
      exact ih inner

theorem isObject_of_read {value inner : Json} {name : String} {rest : JsonPath}
    (found : value.read (name :: rest) = some inner) : value.isObject = true := by
  cases value with
  | obj fields => rfl
  | _ => cases found

theorem read_assign (fields : List (String × Json)) (name other : String) (value : Json)
    (rest : JsonPath) :
    read (.obj (Dict.assign name value fields)) (other :: rest) =
      if name = other then value.read rest else read (.obj fields) (other :: rest) := by
  rw [read_obj, Dict.find_assign]
  split
  · rfl
  · rfl

theorem setNested_cons {fields after : List (String × Json)} {name next : String}
    {rest : JsonPath} {value : Json}
    (written : setNested fields (name :: next :: rest) value = .ok after) :
    ∃ held inner, setNested held (next :: rest) value = .ok inner ∧
      after = Dict.assign name (.obj inner) fields ∧
      ((Dict.find name fields = some (.obj held)) ∨
        (held = [] ∧ (Dict.find name fields = none ∨ Dict.find name fields = some .null))) := by
  have unfolds : ∀ held,
      ((setNested held (next :: rest) value).map (fun inner =>
        Dict.assign name (.obj inner) fields)).mapError (fun error : JsonPath × Json =>
          (name :: error.1, error.2)) = .ok after →
      ∃ inner, setNested held (next :: rest) value = .ok inner ∧
        after = Dict.assign name (.obj inner) fields := by
    intro held done
    cases below : setNested held (next :: rest) value with
    | error error =>
        rw [below] at done
        cases done
    | ok inner =>
        rw [below] at done
        cases done
        exact ⟨inner, rfl, rfl⟩
  unfold setNested at written
  split at written
  case h_1 missing =>
    obtain ⟨inner, below, same⟩ := unfolds [] written
    exact ⟨[], inner, below, same, .inr ⟨rfl, .inl missing⟩⟩
  case h_2 empty =>
    obtain ⟨inner, below, same⟩ := unfolds [] written
    exact ⟨[], inner, below, same, .inr ⟨rfl, .inr empty⟩⟩
  case h_3 held found =>
    obtain ⟨inner, below, same⟩ := unfolds held written
    exact ⟨held, inner, below, same, .inl found⟩
  case h_4 => cases written

theorem read_setNested_self {fields after : List (String × Json)} {path : JsonPath} {value : Json}
    (named : path ≠ []) (written : setNested fields path value = .ok after) :
    read (.obj after) path = some value := by
  induction path generalizing fields after with
  | nil => exact absurd rfl named
  | cons name rest ih =>
      cases rest with
      | nil =>
          cases written
          rw [read_assign, if_pos rfl]
          rfl
      | cons next rest =>
          obtain ⟨held, inner, below, rfl, _⟩ := setNested_cons written
          rw [read_assign, if_pos rfl]
          exact ih (List.cons_ne_nil next rest) below

theorem read_setNested_apart {fields after : List (String × Json)} {path other : JsonPath}
    {value : Json} (apart : path.Apart other)
    (written : setNested fields path value = .ok after) :
    read (.obj after) other = read (.obj fields) other := by
  induction path generalizing fields after other with
  | nil => exact absurd List.nil_prefix apart.1
  | cons name rest ih =>
      cases other with
      | nil => exact absurd List.nil_prefix apart.2
      | cons head tail =>
          cases rest with
          | nil =>
              cases written
              have different : name ≠ head := by
                intro same
                apply apart.1
                exact List.cons_prefix_cons.mpr ⟨same, List.nil_prefix⟩
              rw [read_assign, if_neg different]
          | cons next rest =>
              obtain ⟨held, inner, below, rfl, origin⟩ := setNested_cons written
              rw [read_assign]
              split
              case isFalse => rfl
              case isTrue same =>
                subst same
                have smaller := apart.of_cons
                rw [ih smaller below, read_obj]
                obtain ⟨tailHead, tailRest, rfl⟩ := List.exists_cons_of_ne_nil smaller.ne_nil
                rcases origin with found | ⟨rfl, missing | null⟩
                · rw [found]
                  rfl
                · rw [missing]
                  rfl
                · rw [null]
                  rfl

end Json
end Library
