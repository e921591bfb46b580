import Mathlib.Data.List.Nodup
import Mathlib.Data.List.Pairwise
import Mathlib.Data.List.Sort
import Mathlib.Order.Basic
import Mathlib.Tactic.Common

/-
A reader of numbered items with a cursor.

The reader takes items from a front: a list in order that leaves out no item that belongs
before one of its own. After each item it has everything from where it started up to its
cursor.
-/

namespace Library

namespace CursorReader

variable {E : Type} (number : E → Nat)

def InOrder (items : List E) : Prop :=
  items.Pairwise (fun earlier later => number earlier < number later)

structure CaughtUp (required : E → Prop) (start cursor : Int) (received : List E) : Prop where
  started : start ≤ cursor
  inOrder : InOrder number received
  within : ∀ item ∈ received, start < number item ∧ (number item : Int) ≤ cursor
  complete : ∀ item, required item → start < number item → (number item : Int) ≤ cursor →
    item ∈ received

structure Front (required : E → Prop) (cursor : Int) (front : List E) : Prop where
  inOrder : InOrder number front
  past : ∀ item ∈ front, cursor < number item
  gapless : ∀ item, required item → cursor < number item →
    item ∈ front ∨ ∀ other ∈ front, number other < number item

variable {number} {required : E → Prop} {start cursor : Int} {received front rest : List E}
  {next : E}

theorem CaughtUp.begun (number : E → Nat) (required : E → Prop) (start : Int) :
    CaughtUp number required start start [] where
  started := Int.le_refl _
  inOrder := List.Pairwise.nil
  within := by simp
  complete := by
    intro item _ past reached
    omega

theorem InOrder.le_getLast {items : List E} (inOrder : InOrder number items)
    (nonempty : items ≠ []) {item : E} (member : item ∈ items) :
    number item ≤ number (items.getLast nonempty) := by
  have ordered : items.Pairwise (fun earlier later => number earlier ≤ number later) :=
    inOrder.imp Nat.le_of_lt
  exact ordered.rel_getLast_of_rel_getLast_getLast member (Nat.le_refl _)

theorem CaughtUp.read (caughtUp : CaughtUp number required start cursor received)
    (ahead : Front number required cursor (next :: rest)) :
    CaughtUp number required start (number next) (received ++ [next]) := by
  have past := ahead.past next List.mem_cons_self
  have started := caughtUp.started
  constructor
  · omega
  · unfold InOrder
    rw [List.pairwise_append]
    refine ⟨caughtUp.inOrder, List.pairwise_singleton _ _, ?_⟩
    intro earlier member later last
    rw [List.mem_singleton.mp last]
    have bound := (caughtUp.within earlier member).2
    omega
  · intro item member
    rcases List.mem_append.mp member with old | last
    · have bound := caughtUp.within item old
      omega
    · rw [List.mem_singleton.mp last]
      omega
  · intro item needed begun reached
    by_cases old : (number item : Int) ≤ cursor
    · exact List.mem_append_left _ (caughtUp.complete item needed begun old)
    · apply List.mem_append_right
      rcases ahead.gapless item needed (by omega) with inFront | beyond
      · rcases List.mem_cons.mp inFront with same | later
        · exact List.mem_singleton.mpr same
        · have order := List.rel_of_pairwise_cons ahead.inOrder later
          omega
      · have order := beyond next List.mem_cons_self
        omega

theorem Front.tail (ahead : Front number required cursor (next :: rest)) :
    Front number required (number next) rest := by
  have past := ahead.past next List.mem_cons_self
  constructor
  · exact (List.pairwise_cons.mp ahead.inOrder).2
  · intro item member
    have order := List.rel_of_pairwise_cons ahead.inOrder member
    omega
  · intro item needed later
    rcases ahead.gapless item needed (by omega) with inFront | beyond
    · rcases List.mem_cons.mp inFront with same | member
      · rw [same] at later
        omega
      · exact Or.inl member
    · exact Or.inr (fun other member => beyond other (List.mem_cons_of_mem next member))

theorem Front.append {more : E → Prop} (ahead : Front number required cursor front)
    (last : ∀ item, more item → required item ∨ ∀ other ∈ front, number other < number item) :
    Front number more cursor front where
  inOrder := ahead.inOrder
  past := ahead.past
  gapless := by
    intro item needed past
    rcases last item needed with old | beyond
    · exact ahead.gapless item old past
    · exact Or.inr beyond

theorem CaughtUp.append {more : E → Prop}
    (caughtUp : CaughtUp number required start cursor received)
    (last : ∀ item, more item → required item ∨ cursor < number item ∨
      (number item : Int) ≤ start) :
    CaughtUp number more start cursor received where
  started := caughtUp.started
  inOrder := caughtUp.inOrder
  within := caughtUp.within
  complete := by
    intro item needed begun reached
    rcases last item needed with old | beyond | before
    · exact caughtUp.complete item old begun reached
    · omega
    · omega

/-! ### Sorting -/

section Sorting

variable (number) (items : List E)

def sorted : List E := items.insertionSort (fun left right => number left ≤ number right)

variable {number} {items} {item : E}

@[simp] theorem mem_sorted : item ∈ sorted number items ↔ item ∈ items :=
  List.mem_insertionSort _

theorem sorted_inOrder (distinct : (items.map number).Nodup) :
    InOrder number (sorted number items) := by
  have total : Std.Total (fun left right : E => number left ≤ number right) :=
    ⟨fun left right => Nat.le_total (number left) (number right)⟩
  have trans : IsTrans E (fun left right => number left ≤ number right) :=
    ⟨fun _ _ _ first second => Nat.le_trans first second⟩
  have ordered : (sorted number items).Pairwise
      (fun left right => number left ≤ number right) := List.pairwise_insertionSort _ _
  have apart : (sorted number items).Pairwise
      (fun left right => number left ≠ number right) := by
    have nodup : ((sorted number items).map number).Nodup :=
      ((List.perm_insertionSort _ items).map number).nodup_iff.mpr distinct
    exact List.pairwise_map.mp nodup
  exact (ordered.and apart).imp (fun ⟨le, ne⟩ => Nat.lt_of_le_of_ne le ne)

end Sorting

end CursorReader
end Library
