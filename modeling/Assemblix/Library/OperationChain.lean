import Mathlib.Data.List.Basic
import Mathlib.Data.List.Nodup

/-
Chains of fallible operations on one store.

An operation that fails ends the chain, and the store keeps what the operations before it
have written. What is read from the store is followed through a chain by asking which of
its operations write it.
-/

namespace Library

variable {Op S F V : Type}

section

variable (perform : Op → S → S × Option F)

def performAll : List Op → S → S × Option (Op × F)
  | [], store => (store, none)
  | op :: rest, store =>
      match perform op store with
      | (after, none) => performAll rest after
      | (after, some failure) => (after, some (op, failure))

def Keeps (read : S → V) (op : Op) : Prop :=
  ∀ store, read (perform op store).1 = read store

end

variable {perform : Op → S → S × Option F} {store after : S}

theorem performAll_cons {op : Op} {rest : List Op} {failure : Option (Op × F)}
    (performed : performAll perform (op :: rest) store = (after, failure)) :
    (∃ middle, perform op store = (middle, none) ∧
        performAll perform rest middle = (after, failure)) ∨
      ∃ raised, perform op store = (after, some raised) ∧ failure = some (op, raised) := by
  unfold performAll at performed
  split at performed
  case h_1 middle first => exact .inl ⟨middle, first, performed⟩
  case h_2 reached raised first =>
    cases performed
    exact .inr ⟨raised, first, rfl⟩

/-- A chain that goes through begins with an operation that does. -/
theorem performAll_cons_performed {op : Op} {rest : List Op}
    (performed : performAll perform (op :: rest) store = (after, none)) :
    ∃ middle, perform op store = (middle, none) ∧
      performAll perform rest middle = (after, none) := by
  rcases performAll_cons performed with going | ⟨_, _, impossible⟩
  · exact going
  · cases impossible

theorem performAll_failed {operations : List Op} {op : Op} {failure : F}
    (failed : performAll perform operations store = (after, some (op, failure))) :
    ∃ before rest middle, operations = before ++ op :: rest ∧
      performAll perform before store = (middle, none) ∧
        perform op middle = (after, some failure) := by
  induction operations generalizing store with
  | nil => cases failed
  | cons first rest ih =>
      rcases performAll_cons failed with ⟨middle, performed, continued⟩ | ⟨raised, stopped, same⟩
      · obtain ⟨before, tail, reached, rfl, earlier, last⟩ := ih continued
        refine ⟨first :: before, tail, reached, rfl, ?_, last⟩
        unfold performAll
        rw [performed]
        exact earlier
      · cases same
        exact ⟨[], rest, store, rfl, rfl, stopped⟩

theorem performAll_keeps {read : S → V} (operations : List Op)
    (keeps : ∀ op ∈ operations, Keeps perform read op) (store : S) :
    read (performAll perform operations store).1 = read store := by
  induction operations generalizing store with
  | nil => rfl
  | cons op rest ih =>
      have here := keeps op List.mem_cons_self store
      unfold performAll
      split
      case h_1 middle performed =>
        rw [performed] at here
        rw [ih (fun other member => keeps other (List.mem_cons_of_mem _ member)) middle]
        exact here
      case h_2 reached failure performed =>
        rw [performed] at here
        exact here

theorem performAll_writer {read : S → V} {operations : List Op} {writer : Op}
    (distinct : operations.Nodup) (member : writer ∈ operations)
    (keeps : ∀ op ∈ operations, op ≠ writer → Keeps perform read op)
    (performed : performAll perform operations store = (after, none)) :
    ∃ reached written, read reached = read store ∧ perform writer reached = (written, none) ∧
      read after = read written := by
  induction operations generalizing store with
  | nil => cases member
  | cons op rest ih =>
      have parts := List.nodup_cons.mp distinct
      obtain ⟨middle, first, continued⟩ := performAll_cons_performed performed
      by_cases same : op = writer
      · subst same
        have unwritten : ∀ other ∈ rest, Keeps perform read other := by
          intro other later
          apply keeps other (List.mem_cons_of_mem _ later)
          intro equal
          subst equal
          exact parts.1 later
        refine ⟨store, middle, rfl, first, ?_⟩
        have kept := performAll_keeps rest unwritten middle
        rw [continued] at kept
        exact kept
      · have later := (List.mem_cons.mp member).resolve_left (fun equal => same equal.symm)
        have here := keeps op List.mem_cons_self same store
        rw [first] at here
        obtain ⟨reached, written, earlier, wrote, final⟩ := ih parts.2 later
          (fun other present => keeps other (List.mem_cons_of_mem _ present)) continued
        exact ⟨reached, written, earlier.trans here, wrote, final⟩

theorem performAll_append {earlier later : List Op} :
    performAll perform (earlier ++ later) store = (after, none) ↔
      ∃ middle, performAll perform earlier store = (middle, none) ∧
        performAll perform later middle = (after, none) := by
  induction earlier generalizing store with
  | nil => simp [performAll]
  | cons op rest ih =>
      rw [List.cons_append, performAll, performAll]
      split
      · exact ih
      · simp

theorem performAll_filter (applies : Op → Bool) (operations : List Op) (store : S) :
    performAll perform (operations.filter applies) store =
      performAll (fun op store => if applies op then perform op store else (store, none))
        operations store := by
  induction operations generalizing store with
  | nil => rfl
  | cons op rest ih =>
      rw [List.filter_cons, performAll]
      by_cases applied : applies op = true
      · rw [if_pos applied, if_pos applied, performAll]
        split
        · exact ih _
        · rfl
      · rw [if_neg applied, if_neg applied]
        exact ih store

theorem performAll_monotone {measure : S → Nat} {operations : List Op}
    (monotone : ∀ op ∈ operations, ∀ store after, perform op store = (after, none) →
      measure store ≤ measure after)
    (performed : performAll perform operations store = (after, none)) :
    measure store ≤ measure after := by
  induction operations generalizing store with
  | nil =>
      cases performed
      exact Nat.le_refl _
  | cons op rest ih =>
      obtain ⟨middle, step, continued⟩ := performAll_cons_performed performed
      have here := monotone op List.mem_cons_self _ _ step
      have later := ih (fun other present => monotone other (List.mem_cons_of_mem _ present))
        continued
      omega

theorem performAll_grows {measure : S → Nat} {operations : List Op} {writer : Op}
    (member : writer ∈ operations)
    (monotone : ∀ op ∈ operations, ∀ store after, perform op store = (after, none) →
      measure store ≤ measure after)
    (grows : ∀ store after, perform writer store = (after, none) → measure store < measure after)
    (performed : performAll perform operations store = (after, none)) :
    measure store < measure after := by
  obtain ⟨before, rest, rfl⟩ := List.append_of_mem member
  obtain ⟨reached, earlier, remaining⟩ := performAll_append.mp performed
  obtain ⟨written, step, later⟩ := performAll_cons_performed remaining
  have until_ := performAll_monotone
    (fun op present => monotone op (List.mem_append_left _ present)) earlier
  have here := grows _ _ step
  have since := performAll_monotone
    (fun op present => monotone op (List.mem_append_right _ (List.mem_cons_of_mem _ present)))
    later
  omega

end Library
