import Mathlib.Algebra.GroupWithZero.Nat
import Mathlib.Algebra.BigOperators.Group.List.Basic
import Mathlib.Data.List.Nodup
import Mathlib.Logic.Relation

/-
What a search over a stack of nodes has seen when it stops.

A node that was seen before is dropped, any other is noted and its successors are pushed. Every
node is expanded once, so the number of pushes bounds the number of turns, and what is seen in
the end is what can be reached.
-/

namespace Library.Worklist

variable {V : Type} [DecidableEq V] (next : V → List V)

def explore : Nat → List V → List V → List V
  | 0, _, seen => seen
  | _ + 1, [], seen => seen
  | turns + 1, node :: stack, seen =>
      if node ∈ seen then explore turns stack seen
      else explore turns ((next node).reverse ++ stack) (seen ++ [node])

def Reaches : V → V → Prop := Relation.ReflTransGen (fun node other => other ∈ next node)

variable {next}

/-- The pushes that are still to come. -/
def pending (next : V → List V) (nodes seen : List V) : Nat :=
  ((nodes.filter (fun node => decide (node ∉ seen))).map (fun node => (next node).length)).sum

theorem pending_expand {nodes seen : List V} (distinct : nodes.Nodup) {node : V}
    (member : node ∈ nodes) (fresh : node ∉ seen) :
    pending next nodes (seen ++ [node]) + (next node).length = pending next nodes seen := by
  unfold pending
  induction nodes with
  | nil => cases member
  | cons first rest ih =>
      rw [List.nodup_cons] at distinct
      by_cases same : first = node
      · subst same
        have others : rest.filter (fun other => decide (other ∉ seen ++ [first])) =
            rest.filter (fun other => decide (other ∉ seen)) := by
          refine List.filter_congr ?_
          intro other known
          have different : other ≠ first := fun same => distinct.1 (same ▸ known)
          simp [different]
        rw [List.filter_cons_of_neg (by simp), List.filter_cons_of_pos (by simpa using fresh),
          others, List.map_cons, List.sum_cons, Nat.add_comm]
      · have later := ih distinct.2
          ((List.mem_cons.mp member).resolve_left (fun equal => same equal.symm))
        by_cases known : first ∈ seen
        · rw [List.filter_cons_of_neg (by simp [known]), List.filter_cons_of_neg (by simp [known])]
          exact later
        · rw [List.filter_cons_of_pos (by simp [known, same]),
            List.filter_cons_of_pos (by simpa using known), List.map_cons, List.map_cons,
            List.sum_cons, List.sum_cons]
          omega

/-- What was seen stays seen, and with enough turns everything on the stack, and every successor
of what is new, is seen. -/
theorem explore_closed {nodes : List V} (distinct : nodes.Nodup)
    (closed : ∀ node other, other ∈ next node → other ∈ nodes) (turns : Nat) :
    ∀ stack seen, stack ⊆ nodes → stack.length + pending next nodes seen ≤ turns →
      (∀ node ∈ seen, ∀ other ∈ next node, other ∈ seen ∨ other ∈ stack) →
      seen ⊆ explore next turns stack seen ∧ stack ⊆ explore next turns stack seen ∧
        ∀ node ∈ explore next turns stack seen, ∀ other ∈ next node,
          other ∈ explore next turns stack seen := by
  induction turns with
  | zero =>
      intro stack seen _ enough sound
      have empty : stack = [] := List.eq_nil_of_length_eq_zero (by omega)
      subst empty
      refine ⟨List.Subset.refl _, List.nil_subset _, ?_⟩
      intro node known other successor
      exact (sound node known other successor).resolve_right (List.not_mem_nil)
  | succ turns ih =>
      intro stack seen inside enough sound
      cases stack with
      | nil =>
          refine ⟨List.Subset.refl _, List.nil_subset _, ?_⟩
          intro node known other successor
          exact (sound node known other successor).resolve_right (List.not_mem_nil)
      | cons node stack =>
          rw [List.length_cons] at enough
          obtain ⟨member, rest⟩ := List.cons_subset.mp inside
          rw [explore]
          by_cases known : node ∈ seen
          · rw [if_pos known]
            obtain ⟨keeps, covers, whole⟩ := ih stack seen rest (by omega) (by
              intro earlier before other successor
              rcases sound earlier before other successor with there | there
              · exact .inl there
              · rcases List.mem_cons.mp there with rfl | there
                · exact .inl known
                · exact .inr there)
            exact ⟨keeps, List.cons_subset.mpr ⟨keeps known, covers⟩, whole⟩
          · rw [if_neg known]
            have pushes := @pending_expand _ _ next nodes seen distinct node member known
            obtain ⟨keeps, covers, whole⟩ := ih ((next node).reverse ++ stack) (seen ++ [node])
              (by
                intro other there
                rcases List.mem_append.mp there with there | there
                · exact closed node other (List.mem_reverse.mp there)
                · exact rest there)
              (by
                rw [List.length_append, List.length_reverse]
                omega)
              (by
                intro earlier before other successor
                rcases List.mem_append.mp before with before | before
                · rcases sound earlier before other successor with there | there
                  · exact .inl (List.mem_append_left _ there)
                  · rcases List.mem_cons.mp there with rfl | there
                    · exact .inl (List.mem_append_right _ List.mem_cons_self)
                    · exact .inr (List.mem_append_right _ there)
                · rw [List.mem_singleton.mp before] at successor
                  exact .inr (List.mem_append_left _ (List.mem_reverse.mpr successor)))
            refine ⟨fun other there => keeps (List.mem_append_left _ there),
              List.cons_subset.mpr ⟨keeps (List.mem_append_right _ List.mem_cons_self), ?_⟩, whole⟩
            exact fun other there => covers (List.mem_append_right _ there)

theorem explore_reaches (origin : V) (turns : Nat) :
    ∀ stack seen, (∀ node ∈ stack, Reaches next origin node) →
      (∀ node ∈ seen, Reaches next origin node) →
      ∀ node ∈ explore next turns stack seen, Reaches next origin node := by
  induction turns with
  | zero => exact fun stack seen _ before => before
  | succ turns ih =>
      intro stack seen ahead before
      cases stack with
      | nil => exact before
      | cons node stack =>
          rw [explore]
          have rest := fun other there => ahead other (List.mem_cons_of_mem node there)
          have here := ahead node List.mem_cons_self
          by_cases known : node ∈ seen
          · rw [if_pos known]
            exact ih stack seen rest before
          · rw [if_neg known]
            refine ih _ _ ?_ ?_
            · intro other there
              rcases List.mem_append.mp there with there | there
              · exact here.tail (List.mem_reverse.mp there)
              · exact rest other there
            · intro other there
              rcases List.mem_append.mp there with there | there
              · exact before other there
              · rw [List.mem_singleton.mp there]
                exact here

theorem mem_explore {nodes : List V} (distinct : nodes.Nodup)
    (closed : ∀ node other, other ∈ next node → other ∈ nodes) {first : V}
    (known : first ∈ nodes) {turns : Nat} (enough : 1 + pending next nodes [] ≤ turns) (node : V) :
    node ∈ explore next turns [first] [] ↔ Reaches next first node := by
  constructor
  · refine explore_reaches first turns [first] [] ?_ (by simp) node
    intro other member
    rw [List.mem_singleton.mp member]
    exact .refl
  · intro path
    obtain ⟨_, covers, whole⟩ := explore_closed distinct closed turns [first] []
      (List.cons_subset.mpr ⟨known, List.nil_subset _⟩) enough (by simp)
    induction path with
    | refl => exact covers List.mem_cons_self
    | tail _ successor ih => exact whole _ ih _ successor

end Library.Worklist
