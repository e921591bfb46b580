import Assemblix.Library.Dict

/-
Objects of JavaScript as they are listed: property names and values in the order of the own keys.

Names that read as array indices come first, in ascending order, and all others after them in the
order of their first assignment. Assigning to `__proto__` changes what an object inherits and gives
it no property of its own.
-/

namespace Library.JsObject

variable {V : Type}

/-- The number with these decimal digits after those of `high`. -/
def digitsFrom (high : Nat) : List Char → Option Nat
  | [] => some high
  | digit :: rest =>
      if digit.isDigit then digitsFrom (10 * high + (digit.toNat - '0'.toNat)) rest else none

def decimal : List Char → Option Nat
  | [] => none
  | ['0'] => some 0
  | first :: rest => if first = '0' then none else digitsFrom 0 (first :: rest)

def arrayIndex (name : String) : Option Nat :=
  (decimal name.toList).filter (fun index => index < 4294967295)

def before (first second : String) : Bool :=
  match arrayIndex first, arrayIndex second with
  | some low, some high => low < high
  | some _, none => true
  | none, _ => false

def InOrder (names : List String) : Prop :=
  names.Pairwise (fun earlier later => earlier ≠ later ∧ before later earlier = false)

instance (names : List String) : Decidable (InOrder names) :=
  inferInstanceAs (Decidable (List.Pairwise _ names))

/-- Overwrite an own property, or define it where its name belongs. -/
def set (name : String) (value : V) : List (String × V) → List (String × V)
  | [] => [(name, value)]
  | (head, old) :: rest =>
      if head = name then (head, value) :: rest
      else if before name head then (name, value) :: (head, old) :: rest
      else (head, old) :: set name value rest

/-- `object[name] = value`. -/
def put (name : String) (value : V) (object : List (String × V)) : List (String × V) :=
  if name = "__proto__" then object else set name value object

/-- The object made from `{}` by assigning the entries one after another. -/
def build (entries : List (String × V)) : List (String × V) :=
  entries.foldl (fun object entry => put entry.1 entry.2 object) []

theorem before_irrefl (name : String) : before name name = false := by
  rw [before]
  split
  · rename_i low high first second
    rw [first] at second
    cases second
    exact decide_eq_false (Nat.lt_irrefl low)
  · rename_i low first second
    rw [first] at second
    cases second
  · rfl

theorem before_trans {first second third : String} (start : before first second = true)
    (next : before second third = true) : before first third = true := by
  simp only [before] at start next ⊢
  cases low : arrayIndex first with
  | none => simp [low] at start
  | some index =>
      cases middle : arrayIndex second with
      | none => simp [middle] at next
      | some between =>
          cases high : arrayIndex third with
          | none => rfl
          | some last =>
              simp only [low, middle, high, decide_eq_true_eq] at start next ⊢
              exact Nat.lt_trans start next

theorem set_append (name : String) (value : V) (object : List (String × V))
    (last : ∀ other ∈ object.map Prod.fst, other ≠ name ∧ before name other = false) :
    set name value object = object ++ [(name, value)] := by
  induction object with
  | nil => rfl
  | cons head rest ih =>
      obtain ⟨first, old⟩ := head
      rw [List.map_cons, List.forall_mem_cons] at last
      rw [set, if_neg last.1.1, if_neg (by simp [last.1.2]), ih last.2, List.cons_append]

theorem build_of_inOrder (entries : List (String × V)) (inOrder : InOrder (entries.map Prod.fst))
    (proper : "__proto__" ∉ entries.map Prod.fst) : build entries = entries := by
  induction entries using List.reverseRecOn with
  | nil => rfl
  | append_singleton earlier entry ih =>
      obtain ⟨name, value⟩ := entry
      rw [List.map_append, List.map_singleton] at inOrder proper
      rw [InOrder, List.pairwise_append] at inOrder
      rw [List.mem_append, not_or, List.mem_singleton] at proper
      have kept : build earlier = earlier := ih inOrder.1 proper.1
      rw [build, List.foldl_append, List.foldl_cons, List.foldl_nil]
      change put name value (build earlier) = _
      rw [kept, put, if_neg (fun equal => proper.2 equal.symm)]
      exact set_append name value earlier
        (fun other member => inOrder.2.2 other member name (List.mem_singleton.mpr rfl))

theorem find_mapEntries {W : Type} (change : String → V → W) (name : String)
    (entries : List (String × V)) :
    Dict.find name (entries.map (fun entry => (entry.1, change entry.1 entry.2))) =
      (Dict.find name entries).map (change name) := by
  induction entries with
  | nil => rfl
  | cons head rest ih =>
      obtain ⟨first, value⟩ := head
      by_cases same : first = name
      · simp [Dict.find, same]
      · simp [Dict.find, same, ih]

theorem InOrder.nodup {names : List String} (inOrder : InOrder names) : names.Nodup :=
  inOrder.imp (fun parts => parts.1)

/-! ### What every object lists -/

theorem mem_set_names (name : String) (value : V) (object : List (String × V)) {other : String}
    (member : other ∈ (set name value object).map Prod.fst) :
    other = name ∨ other ∈ object.map Prod.fst := by
  induction object with
  | nil => exact .inl (List.mem_singleton.mp member)
  | cons head rest ih =>
      obtain ⟨first, old⟩ := head
      rw [set] at member
      split at member
      · exact .inr member
      · split at member
        · exact List.mem_cons.mp member
        · rcases List.mem_cons.mp member with same | later
          · exact .inr (List.mem_cons.mpr (.inl same))
          · exact (ih later).imp_right (List.mem_cons_of_mem _)

theorem set_inOrder (name : String) (value : V) (object : List (String × V))
    (inOrder : InOrder (object.map Prod.fst)) : InOrder ((set name value object).map Prod.fst) := by
  induction object with
  | nil => exact List.pairwise_singleton _ _
  | cons head rest ih =>
      obtain ⟨first, old⟩ := head
      have parts := List.pairwise_cons.mp inOrder
      rw [set]
      split
      · exact inOrder
      · rename_i different
        split
        · rename_i earlier
          refine List.pairwise_cons.mpr ⟨fun other member => ?_, inOrder⟩
          rcases List.mem_cons.mp member with same | later
          · subst same
            refine ⟨fun equal => different equal.symm, ?_⟩
            by_contra turned
            have cycle := before_trans earlier (Bool.of_not_eq_false turned)
            rw [before_irrefl] at cycle
            cases cycle
          · have following := parts.1 other later
            have behind : before other name = false := by
              by_contra turned
              have found := before_trans (Bool.of_not_eq_false turned) earlier
              rw [following.2] at found
              cases found
            refine ⟨fun equal => ?_, behind⟩
            subst equal
            rw [following.2] at earlier
            cases earlier
        · rename_i later
          refine List.pairwise_cons.mpr ⟨fun other member => ?_, ih parts.2⟩
          rcases mem_set_names name value rest member with same | there
          · subst same
            exact ⟨different, Bool.eq_false_iff.mpr later⟩
          · exact parts.1 other there

theorem put_inOrder (name : String) (value : V) (object : List (String × V))
    (inOrder : InOrder (object.map Prod.fst)) : InOrder ((put name value object).map Prod.fst) := by
  rw [put]
  split
  · exact inOrder
  · exact set_inOrder name value object inOrder

theorem build_inOrder (entries : List (String × V)) : InOrder ((build entries).map Prod.fst) := by
  induction entries using List.reverseRecOn with
  | nil => exact List.Pairwise.nil
  | append_singleton earlier entry ih =>
      rw [build, List.foldl_append]
      exact put_inOrder entry.1 entry.2 (build earlier) ih

theorem build_proper (entries : List (String × V)) :
    "__proto__" ∉ (build entries).map Prod.fst := by
  induction entries using List.reverseRecOn with
  | nil => exact List.not_mem_nil
  | append_singleton earlier entry ih =>
      rw [build, List.foldl_append]
      change "__proto__" ∉ (put entry.1 entry.2 (build earlier)).map Prod.fst
      rw [put]
      split
      · exact ih
      · rename_i proper
        intro member
        rcases mem_set_names _ _ _ member with same | there
        · exact proper same.symm
        · exact ih there

theorem build_names (entries : List (String × V)) :
    (build entries).map Prod.fst ⊆ entries.map Prod.fst := by
  induction entries using List.reverseRecOn with
  | nil => exact fun name member => member
  | append_singleton earlier entry ih =>
      intro name member
      rw [build, List.foldl_append] at member
      change name ∈ (put entry.1 entry.2 (build earlier)).map Prod.fst at member
      rw [List.map_append, List.mem_append, List.map_singleton, List.mem_singleton]
      rw [put] at member
      split at member
      · exact .inl (ih member)
      · rcases mem_set_names _ _ _ member with same | there
        · exact .inr same
        · exact .inl (ih there)

/-! ### Reading and comparing -/

theorem find_set (name other : String) (value : V) (object : List (String × V)) :
    Dict.find other (set name value object) =
      if name = other then some value else Dict.find other object := by
  induction object with
  | nil => rfl
  | cons head rest ih =>
      obtain ⟨first, old⟩ := head
      rw [set]
      split
      · rename_i same
        subst same
        by_cases chosen : first = other <;> simp [Dict.find, chosen]
      · rename_i different
        split
        · rfl
        · rw [Dict.find, Dict.find, ih]
          by_cases chosen : first = other
          · have apart : name ≠ other := fun equal => different (chosen.trans equal.symm)
            rw [if_pos chosen, if_neg apart, if_pos chosen]
          · rw [if_neg chosen, if_neg chosen]

theorem find_build {name : String} (proper : name ≠ "__proto__") (entries : List (String × V)) :
    Dict.find name (build entries) = Dict.find name entries.reverse := by
  induction entries using List.reverseRecOn with
  | nil => rfl
  | append_singleton earlier entry ih =>
      rw [build, List.foldl_append, List.reverse_append]
      change Dict.find name (put entry.1 entry.2 (build earlier)) =
        Dict.find name (entry :: earlier.reverse)
      rw [put, Dict.find]
      split
      · rename_i special
        rw [if_neg (fun equal => proper (equal.symm.trans special)), ih]
      · rw [find_set, ih]

theorem set_map {W : Type} (change : V → W) (name : String) (value : V)
    (object : List (String × V)) :
    (set name value object).map (fun entry => (entry.1, change entry.2)) =
      set name (change value) (object.map (fun entry => (entry.1, change entry.2))) := by
  induction object with
  | nil => rfl
  | cons head rest ih =>
      obtain ⟨first, old⟩ := head
      rw [set, List.map_cons, set]
      split
      · rfl
      · split
        · rfl
        · rw [List.map_cons, ih]

theorem build_map {W : Type} (change : V → W) (entries : List (String × V)) :
    (build entries).map (fun entry => (entry.1, change entry.2)) =
      build (entries.map (fun entry => (entry.1, change entry.2))) := by
  induction entries using List.reverseRecOn with
  | nil => rfl
  | append_singleton earlier entry ih =>
      rw [List.map_append, build, build, List.foldl_append, List.foldl_append]
      change (put entry.1 entry.2 (build earlier)).map _ =
        put entry.1 (change entry.2) (build (earlier.map _))
      rw [← ih, put, put]
      split
      · rfl
      · exact set_map change entry.1 entry.2 (build earlier)

theorem build_names_eq (entries others : List (String × V))
    (names : entries.map Prod.fst = others.map Prod.fst) :
    (build entries).map Prod.fst = (build others).map Prod.fst := by
  have erased : ∀ items : List (String × V), (build items).map Prod.fst =
      (build ((items.map Prod.fst).map (fun name => (name, ())))).map Prod.fst := by
    intro items
    have image := build_map (fun _ => ()) items
    rw [List.map_map]
    change _ = (build (items.map (fun entry => (entry.1, ())))).map Prod.fst
    rw [← image, List.map_map]
    rfl
  rw [erased entries, names, ← erased others]

theorem eq_of_find {entries others : List (String × V)}
    (distinct : (entries.map Prod.fst).Nodup) (names : entries.map Prod.fst = others.map Prod.fst)
    (values : ∀ name ∈ entries.map Prod.fst, Dict.find name entries = Dict.find name others) :
    entries = others := by
  have apart : (others.map Prod.fst).Nodup := names ▸ distinct
  refine List.ext_getElem (by simpa using congrArg List.length names) fun index left right => ?_
  have same : entries[index].1 = others[index].1 := by
    have place := congrArg (fun list => list[index]?) names
    simpa [left, right] using place
  have first : Dict.find entries[index].1 entries = some entries[index].2 :=
    Dict.find_of_mem entries distinct (List.getElem_mem left)
  have second : Dict.find others[index].1 others = some others[index].2 :=
    Dict.find_of_mem others apart (List.getElem_mem right)
  have held := values entries[index].1 (List.mem_map_of_mem (List.getElem_mem left))
  rw [first, same, second] at held
  exact Prod.ext same (Option.some.inj held)

/-- Objects with the same names in the same order of assignment are the same if the last values
are. -/
theorem build_congr {entries others : List (String × V)}
    (names : entries.map Prod.fst = others.map Prod.fst)
    (last : ∀ name, Dict.find name entries.reverse = Dict.find name others.reverse) :
    build entries = build others := by
  refine eq_of_find (build_inOrder entries).nodup (build_names_eq entries others names)
    fun name member => ?_
  have proper : name ≠ "__proto__" := fun same => build_proper entries (same ▸ member)
  rw [find_build proper, find_build proper, last]

end Library.JsObject
