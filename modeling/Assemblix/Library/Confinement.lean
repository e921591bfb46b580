import Mathlib.Logic.Function.Basic

/-
Confinement of computations that read and write a state.

A view hides a part of the state. A confined computation gives the same value on a state
and on its view, changes both alike and stays within a relation between the state before
and after. Confinement is a triple: it composes along the sequence of a computation.
-/

namespace Library

abbrev Transaction (S α : Type) := StateT S Option α

namespace Transaction

variable {S α : Type}

def ask (read : S → Option α) : Transaction S α :=
  fun state => (read state).map (fun value => (value, state))

def change (write : S → Option S) : Transaction S Unit :=
  fun state => (write state).map (fun after => ((), after))

theorem change_bind (first second : S → Option S) :
    change (fun state => (first state).bind second) =
      (change first >>= fun _ => change second) := by
  funext state
  unfold change
  simp only [StateT.bind, bind]
  cases first state <;> rfl

theorem change_of_some {write : S → Option S} {state after : S} (wrote : write state = some after) :
    change write state = some ((), after) := by
  unfold change
  rw [wrote]
  rfl

theorem bind_eq_some {β : Type} {action : Transaction S α} {next : α → Transaction S β}
    {state : S} {out : β × S} :
    (action >>= next) state = some out ↔
      ∃ value middle, action state = some (value, middle) ∧ next value middle = some out := by
  constructor
  · intro ran
    obtain ⟨reached, first, second⟩ := Option.bind_eq_some_iff.mp ran
    exact ⟨reached.1, reached.2, first, second⟩
  · rintro ⟨value, middle, first, second⟩
    exact Option.bind_eq_some_iff.mpr ⟨(value, middle), first, second⟩

theorem bind_of_some {β : Type} {action : Transaction S α} {next : α → Transaction S β}
    {state middle : S} {value : α} {out : β × S} (first : action state = some (value, middle))
    (second : next value middle = some out) : (action >>= next) state = some out :=
  bind_eq_some.mpr ⟨value, middle, first, second⟩

def whenSome (value : Option α) (action : α → Transaction S Unit) : Transaction S Unit :=
  match value with
  | some present => action present
  | none => pure ()

theorem whenSome_some (present : α) (action : α → Transaction S Unit) :
    whenSome (some present) action = action present := rfl

def Acts {β : Type} (part : S → β) (effect : β → β) (action : Transaction S α) : Prop :=
  ∀ state value after, action state = some (value, after) → part after = effect (part state)

namespace Acts

variable {β γ : Type} {part : S → β}

theorem pure (value : α) : Acts part id (Pure.pure value) := by
  intro state result after ran
  cases ran
  rfl

theorem ask (read : S → Option α) : Acts part id (Transaction.ask read) := by
  intro state result after ran
  obtain ⟨_, _, same⟩ := Option.map_eq_some_iff.mp ran
  cases same
  rfl

theorem change {write : S → Option S} {effect : β → β}
    (writes : ∀ state after, write state = some after → part after = effect (part state)) :
    Acts part effect (Transaction.change write) := by
  intro state result after ran
  obtain ⟨_, wrote, same⟩ := Option.map_eq_some_iff.mp ran
  cases same
  exact writes state after wrote

theorem bind {action : Transaction S α} {next : α → Transaction S γ} {first second : β → β}
    (acts : Acts part first action) (rest : ∀ value, Acts part second (next value)) :
    Acts part (second ∘ first) (action >>= next) := by
  intro state result after ran
  obtain ⟨value, middle, before, continued⟩ := bind_eq_some.mp ran
  rw [rest value middle result after continued, acts state value middle before]
  rfl

theorem after_idle {action : Transaction S α} {next : α → Transaction S γ} {effect : β → β}
    (idle : Acts part id action) (rest : ∀ value, Acts part effect (next value)) :
    Acts part effect (action >>= next) := idle.bind rest

theorem then_idle {action : Transaction S α} {next : α → Transaction S γ} {effect : β → β}
    (acts : Acts part effect action) (idle : ∀ value, Acts part id (next value)) :
    Acts part effect (action >>= next) := acts.bind idle

theorem whenSome {value : Option α} {action : α → Transaction S Unit} {effect : β → β}
    (absent : value = none → effect = id)
    (present : ∀ found, value = some found → Acts part effect (action found)) :
    Acts part effect (Transaction.whenSome value action) := by
  cases value with
  | none =>
      rw [absent rfl]
      exact pure ()
  | some found => exact present found rfl

end Acts

end Transaction

/-- The computation neither sees nor touches what the view hides. -/
structure Confined {S α : Type} (view : S → S) (keeps : S → S → Prop) (pre : S → Prop)
    (action : Transaction S α) (post : α → S → Prop) : Prop where
  commutes : ∀ state, pre state →
    action (view state) = (action state).map (fun out => (out.1, view out.2))
  leaves : ∀ state value after, pre state → action state = some (value, after) →
    keeps state after ∧ post value after

namespace Confined

variable {S α β : Type} {view : S → S} {keeps : S → S → Prop} {pre : S → Prop}

theorem pure (refl : ∀ state, keeps state state) {value : α} {post : α → S → Prop}
    (holds : ∀ state, pre state → post value state) :
    Confined view keeps pre (Pure.pure value) post where
  commutes := fun _ _ => rfl
  leaves := by
    intro state result after before ran
    cases ran
    exact ⟨refl state, holds state before⟩

theorem bind (trans : ∀ first second third, keeps first second → keeps second third →
      keeps first third) {action : Transaction S α} {next : α → Transaction S β}
    {middle : α → S → Prop} {post : β → S → Prop} (first : Confined view keeps pre action middle)
    (rest : ∀ value, Confined view keeps (middle value) (next value) post) :
    Confined view keeps pre (action >>= next) post where
  commutes := by
    intro state before
    change (action (view state)).bind (fun out => next out.1 out.2) =
      ((action state).bind (fun out => next out.1 out.2)).map _
    rw [first.commutes state before]
    cases ran : action state with
    | none => rfl
    | some out =>
        exact (rest out.1).commutes out.2 (first.leaves state out.1 out.2 before ran).2
  leaves := by
    intro state value after before ran
    obtain ⟨out, reached, continued⟩ := Option.bind_eq_some_iff.mp ran
    have there := first.leaves state out.1 out.2 before reached
    have finally_ := (rest out.1).leaves out.2 value after there.2 continued
    exact ⟨trans state out.2 after there.1 finally_.1, finally_.2⟩

theorem ask (refl : ∀ state, keeps state state) {read : S → Option α} {post : α → S → Prop}
    (same : ∀ state, pre state → read (view state) = read state)
    (holds : ∀ state value, pre state → read state = some value → post value state) :
    Confined view keeps pre (Transaction.ask read) post where
  commutes := by
    intro state before
    unfold Transaction.ask
    rw [same state before, Option.map_map]
    rfl
  leaves := by
    intro state value after before ran
    obtain ⟨_, reads, same⟩ := Option.map_eq_some_iff.mp ran
    cases same
    exact ⟨refl state, holds state value before reads⟩

theorem change {write : S → Option S} {post : Unit → S → Prop}
    (commutes : ∀ state, pre state → write (view state) = (write state).map view)
    (leaves : ∀ state after, pre state → write state = some after →
      keeps state after ∧ post () after) :
    Confined view keeps pre (Transaction.change write) post where
  commutes := by
    intro state before
    unfold Transaction.change
    rw [commutes state before, Option.map_map, Option.map_map]
    rfl
  leaves := by
    intro state value after before ran
    obtain ⟨_, writes, same⟩ := Option.map_eq_some_iff.mp ran
    cases same
    exact leaves state after before writes

theorem whenSome (refl : ∀ state, keeps state state) {value : Option α}
    {action : α → Transaction S Unit} {post : Unit → S → Prop}
    (absent : value = none → ∀ state, pre state → post () state)
    (present : ∀ found, value = some found → Confined view keeps pre (action found) post) :
    Confined view keeps pre (Transaction.whenSome value action) post := by
  cases value with
  | none => exact .pure refl (absent rfl)
  | some found => exact present found rfl

end Confined
end Library
