import Mathlib.Data.List.Perm.Basic

/-
Writes to separate addresses.

A store is read at addresses, some of which are apart from each other. A batch of writes
leaves its values at its addresses and keeps every address that is apart from all of them.
Batches compose when their writes are pairwise apart, and then their order does not matter.
-/

namespace Library

variable {A V : Type}

structure Wrote (Apart : A → A → Prop) (before after : A → Option V) (writes : List (A × V)) :
    Prop where
  written : ∀ write ∈ writes, after write.1 = some write.2
  kept : ∀ address, (∀ write ∈ writes, Apart write.1 address) → after address = before address

def Separate (Apart : A → A → Prop) (writes : List (A × V)) : Prop :=
  writes.Pairwise (fun left right => Apart left.1 right.1)

namespace Wrote

variable {Apart : A → A → Prop} {before middle after : A → Option V}

theorem nil : Wrote Apart before before ([] : List (A × V)) where
  written := by
    intro write member
    cases member
  kept := fun _ _ => rfl

theorem append {first second : List (A × V)} (symmetric : ∀ left right, Apart left right →
      Apart right left)
    (separate : Separate Apart (first ++ second)) (earlier : Wrote Apart before middle first)
    (later : Wrote Apart middle after second) : Wrote Apart before after (first ++ second) where
  written := by
    intro write member
    rcases List.mem_append.mp member with old | new
    · rw [← earlier.written write old]
      apply later.kept
      intro other last
      exact symmetric _ _ ((List.pairwise_append.mp separate).2.2 write old other last)
    · exact later.written write new
  kept := by
    intro address apart
    rw [later.kept address (fun write member => apart write (List.mem_append_right _ member)),
      earlier.kept address (fun write member => apart write (List.mem_append_left _ member))]

theorem agree {left right : A → Option V} {first second : List (A × V)}
    (one : Wrote Apart before left first) (other : Wrote Apart before right second)
    (reordered : second.Perm first) (address : A)
    (known : (∃ value, (address, value) ∈ first) ∨ ∀ write ∈ first, Apart write.1 address) :
    left address = right address := by
  rcases known with ⟨value, member⟩ | apart
  · rw [one.written _ member, other.written _ (reordered.mem_iff.mpr member)]
  · rw [one.kept address apart,
      other.kept address (fun write member => apart write (reordered.mem_iff.mp member))]

end Wrote
end Library
