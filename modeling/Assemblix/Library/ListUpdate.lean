import Mathlib.Algebra.BigOperators.Group.List.Basic
import Mathlib.Data.List.Nodup

/-
What a list looks like after one of its items has changed or one was added.
-/

namespace Library

variable {A : Type} {items : List A} {change : A → A} {index other : Nat}

theorem get_modify {after : A} (found : (items.modify index change)[other]? = some after) :
    ∃ before, items[other]? = some before ∧
      (index = other ∧ after = change before ∨ index ≠ other ∧ after = before) := by
  rw [List.getElem?_modify] at found
  cases known : items[other]? with
  | none =>
      rw [known] at found
      cases found
  | some before =>
      rw [known, Option.map_eq_map, Option.map_some] at found
      refine ⟨before, rfl, ?_⟩
      by_cases same : index = other
      · rw [if_pos same] at found
        cases found
        exact Or.inl ⟨same, rfl⟩
      · rw [if_neg same] at found
        cases found
        exact Or.inr ⟨same, rfl⟩

theorem get_modify_self {before : A} (change : A → A) (known : items[index]? = some before) :
    (items.modify index change)[index]? = some (change before) := by
  rw [List.getElem?_modify, known, Option.map_eq_map, Option.map_some, if_pos rfl]

theorem get_modify_of_ne {before : A} (change : A → A) (different : index ≠ other)
    (known : items[other]? = some before) :
    (items.modify index change)[other]? = some before := by
  rw [List.getElem?_modify, known, Option.map_eq_map, Option.map_some, if_neg different]

theorem get_concat {last item : A} (found : (items ++ [last])[index]? = some item) :
    items[index]? = some item ∨ index = items.length ∧ item = last := by
  rcases Nat.lt_trichotomy index items.length with earlier | same | later
  · rw [List.getElem?_append_left earlier] at found
    exact Or.inl found
  · rw [same, List.getElem?_concat_length] at found
    cases found
    exact Or.inr ⟨same, rfl⟩
  · have outside : (items ++ [last]).length ≤ index := by
      rw [List.length_append]
      exact later
    rw [List.getElem?_eq_none outside] at found
    cases found

theorem map_modify_of_same {B : Type} (view : A → B) (items : List A) (index : Nat)
    (keeps : ∀ item, view (change item) = view item) :
    (items.modify index change).map view = items.map view := by
  refine List.ext_getElem? ?_
  intro other
  rw [List.getElem?_map, List.getElem?_map, List.getElem?_modify]
  cases items[other]? with
  | none => rfl
  | some item =>
      by_cases same : index = other
      · simp [same, keeps]
      · simp [same]

theorem map_modify {B : Type} (view : A → B) (seen : B → B) (items : List A) (index : Nat)
    (matched : ∀ item, items[index]? = some item → view (change item) = seen (view item)) :
    (items.modify index change).map view = (items.map view).modify index seen := by
  refine List.ext_getElem? ?_
  intro other
  rw [List.getElem?_map, List.getElem?_modify, List.getElem?_modify, List.getElem?_map]
  cases known : items[other]? with
  | none => rfl
  | some item =>
      by_cases same : index = other
      · subst same
        simp [matched item known]
      · simp [same]

theorem sum_modify {M : Type} [AddCommMonoid M] (view : A → M) {items : List A} {index : Nat}
    {before : A} (known : items[index]? = some before) (change : A → A) :
    ((items.modify index change).map view).sum + view before =
      (items.map view).sum + view (change before) := by
  induction items generalizing index with
  | nil => cases known
  | cons first rest ih =>
      cases index with
      | zero =>
          cases known
          simp only [List.modify_zero_cons, List.map_cons, List.sum_cons]
          rw [add_comm _ (view before), add_comm (view (change before)), ← add_assoc]
      | succ index =>
          have later := ih known
          simp only [List.modify_succ_cons, List.map_cons, List.sum_cons]
          rw [add_assoc, later, add_assoc]

theorem countP_modify (holds : A → Bool) {items : List A} {index : Nat} {before : A}
    (known : items[index]? = some before) (change : A → A) :
    (items.modify index change).countP holds + (if holds before then 1 else 0) =
      items.countP holds + (if holds (change before) then 1 else 0) := by
  induction items generalizing index with
  | nil => cases known
  | cons first rest ih =>
      cases index with
      | zero =>
          cases known
          simp only [List.modify_zero_cons, List.countP_cons]
          omega
      | succ index =>
          have later := ih known
          simp only [List.modify_succ_cons, List.countP_cons]
          omega

theorem filterMap_modify_of_same {B : Type} (view : A → Option B) {before : A}
    (known : items[index]? = some before) (change : A → A)
    (same : view (change before) = view before) :
    (items.modify index change).filterMap view = items.filterMap view := by
  induction items generalizing index with
  | nil => cases known
  | cons first rest ih =>
      cases index with
      | zero =>
          cases known
          rw [List.modify_zero_cons, List.filterMap_cons, List.filterMap_cons, same]
      | succ index =>
          rw [List.modify_succ_cons, List.filterMap_cons, List.filterMap_cons, ih known]

theorem filterMap_modify_perm {B : Type} {view : A → Option B} {before : A} {seen : B}
    (known : items[index]? = some before) (change : A → A) (hidden : view before = none)
    (shown : view (change before) = some seen) :
    List.Perm ((items.modify index change).filterMap view) (items.filterMap view ++ [seen]) := by
  induction items generalizing index with
  | nil => cases known
  | cons first rest ih =>
      cases index with
      | zero =>
          cases known
          rw [List.modify_zero_cons, List.filterMap_cons_some shown, List.filterMap_cons_none hidden]
          exact (List.perm_append_singleton _ _).symm
      | succ index =>
          rw [List.modify_succ_cons]
          have later := ih known
          cases firstSeen : view first with
          | none =>
              rw [List.filterMap_cons_none firstSeen, List.filterMap_cons_none firstSeen]
              exact later
          | some other =>
              rw [List.filterMap_cons_some firstSeen, List.filterMap_cons_some firstSeen]
              exact later.cons other

theorem filter_key {K : Type} [DecidableEq K] {key : A → Option K} {item : A} {found : K}
    (distinct : (items.filterMap key).Nodup) (member : item ∈ items) (keyed : key item = some found) :
    items.filter (fun other => decide (key other = some found)) = [item] := by
  induction items with
  | nil => cases member
  | cons first rest ih =>
      have absent (again : key first = some found) (later : item ∈ rest) : False := by
        rw [List.filterMap_cons_some again, List.nodup_cons] at distinct
        exact distinct.1 (List.mem_filterMap.mpr ⟨item, later, keyed⟩)
      rcases List.mem_cons.mp member with same | later
      · subst same
        rw [List.filter_cons, if_pos (decide_eq_true keyed)]
        refine congrArg (List.cons item) (List.filter_eq_nil_iff.mpr ?_)
        intro other present again
        rw [List.filterMap_cons_some keyed, List.nodup_cons] at distinct
        exact distinct.1 (List.mem_filterMap.mpr ⟨other, present, of_decide_eq_true again⟩)
      · rw [List.filter_cons, if_neg (fun again => absent (of_decide_eq_true again) later)]
        refine ih ?_ later
        cases firstKey : key first with
        | none =>
            rw [List.filterMap_cons_none firstKey] at distinct
            exact distinct
        | some other =>
            rw [List.filterMap_cons_some firstKey, List.nodup_cons] at distinct
            exact distinct.2

end Library
