import Assemblix.Library.Worklist
import Mathlib.Data.List.Chain

/-
Directed cycles of two and more nodes.

A node lies on such a cycle exactly when it leads to another node and back: the way back can be
shortened until it visits no node twice.
-/

namespace Library.Worklist

variable {V : Type} {next : V → List V}

structure DirectedCycle (next : V → List V) (first : V) (others : List V) : Prop where
  many : others ≠ []
  distinct : (first :: others).Nodup
  linked : (first :: others).IsChain (fun node other => other ∈ next node)
  closing : first ∈ next ((first :: others).getLast (List.cons_ne_nil _ _))

def OnCycle (next : V → List V) (node : V) : Prop :=
  ∃ other, other ≠ node ∧ Reaches next node other ∧ Reaches next other node

theorem Reaches.simple [DecidableEq V] {start last : V} (path : Reaches next start last) :
    ∃ others, (start :: others).Nodup ∧
      (start :: others).IsChain (fun node other => other ∈ next node) ∧
      (start :: others).getLast (List.cons_ne_nil _ _) = last := by
  induction path using Relation.ReflTransGen.head_induction_on with
  | refl => exact ⟨[], List.nodup_singleton _, List.isChain_singleton _, rfl⟩
  | @head start middle step _ ih =>
      obtain ⟨others, distinct, linked, ends⟩ := ih
      by_cases again : start ∈ middle :: others
      · -- The way comes back to its start: it begins there anew.
        obtain ⟨before, after, split⟩ := List.append_of_mem again
        have tail : (start :: after) <:+ (middle :: others) := ⟨before, split.symm⟩
        refine ⟨after, tail.sublist.nodup distinct, linked.suffix tail, ?_⟩
        rw [← ends]
        simp only [split]
        exact (List.getLast_append_right (List.cons_ne_nil start after)).symm
      · refine ⟨middle :: others, List.nodup_cons.mpr ⟨again, distinct⟩, ?_, ?_⟩
        · exact List.isChain_cons_cons.mpr ⟨step, linked⟩
        · rw [List.getLast_cons (List.cons_ne_nil _ _)]
          exact ends

theorem onCycle_iff [DecidableEq V] (node : V) :
    OnCycle next node ↔ ∃ first others, DirectedCycle next first others ∧ node ∈ first :: others := by
  constructor
  · rintro ⟨other, different, there, back⟩
    -- The last step away from the node.
    obtain ⟨away, apart, step, onward⟩ : ∃ away, away ≠ node ∧ away ∈ next node ∧
        Reaches next away other := by
      induction there with
      | refl => exact absurd rfl different
      | @tail middle last before step ih =>
          by_cases same : middle = node
          · subst same
            exact ⟨last, different, step, .refl⟩
          · obtain ⟨away, apart, first, onward⟩ := ih same (.head step back)
            exact ⟨away, apart, first, onward.tail step⟩
    obtain ⟨others, distinct, linked, ends⟩ := Reaches.simple (onward.trans back)
    refine ⟨away, others, ⟨?_, distinct, linked, ?_⟩, ?_⟩
    · rintro rfl
      exact apart ends
    · rw [ends]
      exact step
    · rw [← ends]
      exact List.getLast_mem _
  · rintro ⟨first, others, cycle, member⟩
    have down : ∀ inner ∈ first :: others, Reaches next first inner :=
      cycle.linked.induction _ _ (fun _ _ step before => before.tail step) (fun _ => .refl)
    have up : ∀ inner ∈ first :: others, Reaches next inner first :=
      cycle.linked.backwards_induction _ _ (fun _ _ step after => after.head step)
        (fun _ => .single cycle.closing)
    obtain ⟨second, rest, rfl⟩ := List.exists_cons_of_ne_nil cycle.many
    have apart : second ≠ first := by
      rintro rfl
      exact (List.nodup_cons.mp cycle.distinct).1 List.mem_cons_self
    by_cases same : node = first
    · subst same
      have listed : second ∈ node :: second :: rest := List.mem_cons_of_mem _ List.mem_cons_self
      exact ⟨second, apart, down second listed, up second listed⟩
    · exact ⟨first, fun equal => same equal.symm, up node member, down node member⟩

end Library.Worklist
