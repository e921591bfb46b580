import Mathlib.Data.List.Induction

/-
Finite runs of a labelled step relation.

A run lists its labels oldest first. Restricting the steps of a run by a guard is the
run of the guarded relation, so a condition on every step needs no separate notion.
-/

namespace Library

inductive Run {S L : Type} (step : S → L → S → Prop) (first : S) : List L → S → Prop
  | nil : Run step first [] first
  | snoc {labels : List L} {middle last : S} {label : L} :
      Run step first labels middle → step middle label last →
        Run step first (labels ++ [label]) last

namespace Run

variable {S L : Type} {step : S → L → S → Prop}

theorem invariant (kept : S → Prop) (start : S) (initially : kept start)
    (preserved : ∀ state label next, kept state → step state label next → kept next)
    {labels : List L} {last : S} (run : Run step start labels last) : kept last := by
  induction run with
  | nil => exact initially
  | snoc _ taken ih => exact preserved _ _ _ ih taken

theorem of_foldlM {next : S → L → Option S} (start : S) (labels : List L) (last : S)
    (computed : labels.foldlM next start = some last) :
    Run (fun state label after => next state label = some after) start labels last := by
  induction labels using List.reverseRecOn generalizing last with
  | nil =>
      cases computed
      exact .nil
  | append_singleton labels label ih =>
      rw [List.foldlM_append] at computed
      cases before : labels.foldlM next start with
      | none =>
          rw [before] at computed
          cases computed
      | some middle =>
          rw [before] at computed
          have taken : next middle label = some last := by
            simpa [List.foldlM_cons, List.foldlM_nil] using computed
          exact .snoc (ih middle before) taken

theorem of_foldlM_map {B : Type} (next : S → L → Option S) (start : S) (labels : List L)
    (view : S → B) (seen : B) (computed : (labels.foldlM next start).map view = some seen) :
    ∃ last, Run (fun state label after => next state label = some after) start labels last ∧
      view last = seen := by
  obtain ⟨last, reached, same⟩ := Option.map_eq_some_iff.mp computed
  exact ⟨last, of_foldlM start labels last reached, same⟩

/-- A step that is taken where a guard allows it. -/
def guardedStep (next : S → L → Option S) (guard : S → L → Prop)
    [∀ state label, Decidable (guard state label)] (state : S) (label : L) : Option S :=
  if guard state label then next state label else none

theorem of_guarded {next : S → L → Option S} {guard : S → L → Prop}
    [∀ state label, Decidable (guard state label)] {start last : S} {labels : List L}
    (computed : labels.foldlM (guardedStep next guard) start = some last) :
    Run (fun state label after => next state label = some after ∧ guard state label)
      start labels last := by
  have reached := of_foldlM start labels last computed
  clear computed
  induction reached with
  | nil => exact .nil
  | snoc _ taken ih =>
      obtain ⟨allowed, taken⟩ := Option.ite_none_right_eq_some.mp taken
      exact .snoc ih ⟨taken, allowed⟩

theorem of_guardedStep {B : Type} (next : S → L → Option S) (guard : S → L → Prop)
    [∀ state label, Decidable (guard state label)] (start : S) (labels : List L) (view : S → B)
    (seen : B) (computed : (labels.foldlM (guardedStep next guard) start).map view = some seen) :
    ∃ last, Run (fun state label after => next state label = some after ∧ guard state label)
      start labels last ∧ view last = seen := by
  obtain ⟨last, reached, same⟩ := Option.map_eq_some_iff.mp computed
  exact ⟨last, of_guarded reached, same⟩

theorem last_of_nil {start last : S} (run : Run step start ([] : List L) last) : last = start := by
  generalize listed : ([] : List L) = labels at run
  cases run with
  | nil => rfl
  | snoc before taken => exact absurd listed.symm (List.append_ne_nil_of_right_ne_nil _ (by simp))

theorem cons {start next last : S} {label : L} {labels : List L} (taken : step start label next)
    (run : Run step next labels last) : Run step start (label :: labels) last := by
  induction run with
  | nil => exact .snoc .nil taken
  | snoc _ more ih => exact .snoc ih more

theorem exists_of_progress (kept : S → Prop) (allowed : L → Prop)
    (preserved : ∀ state label next, kept state → step state label next → kept next)
    (progress : ∀ state label, kept state → allowed label → ∃ next, step state label next)
    {start : S} (initially : kept start) (labels : List L)
    (all : ∀ label ∈ labels, allowed label) : ∃ last, Run step start labels last ∧ kept last := by
  induction labels generalizing start with
  | nil => exact ⟨start, .nil, initially⟩
  | cons label rest ih =>
      obtain ⟨next, taken⟩ := progress start label initially (all label List.mem_cons_self)
      obtain ⟨last, run, holds⟩ := ih (preserved start label next initially taken)
        (fun other member => all other (List.mem_cons_of_mem label member))
      exact ⟨last, run.cons taken, holds⟩

theorem head {start last : S} {label : L} {rest : List L}
    (run : Run step start (label :: rest) last) :
    ∃ next, step start label next ∧ Run step next rest last := by
  induction rest using List.reverseRecOn generalizing last with
  | nil =>
      generalize listed : [label] = labels at run
      cases run with
      | nil => cases listed
      | @snoc earlier middle _ final before taken =>
          rw [← List.nil_append [label]] at listed
          obtain ⟨rfl, same⟩ := List.append_inj' listed rfl
          cases same
          rw [last_of_nil before] at taken
          exact ⟨last, taken, .nil⟩
  | append_singleton rest final ih =>
      rw [← List.cons_append] at run
      generalize listed : label :: rest ++ [final] = labels at run
      cases run with
      | nil => cases listed
      | @snoc earlier middle _ other before taken =>
          obtain ⟨rfl, same⟩ := List.append_inj' listed rfl
          cases same
          obtain ⟨next, first, tail⟩ := ih before
          exact ⟨next, first, tail.snoc taken⟩

theorem last_step {start last : S} {labels : List L} {label : L}
    (run : Run step start (labels ++ [label]) last) :
    ∃ middle, Run step start labels middle ∧ step middle label last := by
  generalize listed : labels ++ [label] = whole at run
  cases run with
  | nil => exact absurd listed (List.append_ne_nil_of_right_ne_nil _ (by simp))
  | snoc before taken =>
      obtain ⟨rfl, same⟩ := List.append_inj' listed rfl
      cases same
      exact ⟨_, before, taken⟩

theorem unique (functional : ∀ state label next other, step state label next →
      step state label other → next = other) {start last other : S} {labels : List L}
    (run : Run step start labels last) (again : Run step start labels other) : last = other := by
  induction run generalizing other with
  | nil => exact (last_of_nil again).symm
  | snoc _ taken ih =>
      obtain ⟨middle, before, taken'⟩ := last_step again
      have same := ih before
      subst same
      exact functional _ _ _ _ taken taken'

theorem mono {other : S → L → S → Prop}
    (weaker : ∀ state label next, step state label next → other state label next)
    {start last : S} {labels : List L} (run : Run step start labels last) :
    Run other start labels last := by
  induction run with
  | nil => exact .nil
  | snoc _ taken ih => exact .snoc ih (weaker _ _ _ taken)

theorem mono_within {other : S → L → S → Prop} (kept : S → Prop) {start : S}
    (initially : kept start)
    (preserved : ∀ state label next, kept state → step state label next → kept next)
    (weaker : ∀ state label next, kept state → step state label next → other state label next)
    {last : S} {labels : List L} (run : Run step start labels last) :
    Run other start labels last := by
  induction run with
  | nil => exact .nil
  | snoc before taken ih =>
      exact ih.snoc (weaker _ _ _ (invariant kept start initially preserved before) taken)

/-- Where every step obeys a guard or adds to a measure, a run that has added nothing obeys the
guard in every step. -/
theorem guarded_of_measure {guarded : S → L → S → Prop} (measure : S → Nat)
    (grows : ∀ state label next, step state label next →
      guarded state label next ∧ measure next = measure state ∨ measure state < measure next)
    {start last : S} {labels : List L} (run : Run step start labels last) :
    measure start ≤ measure last ∧
      (measure last = measure start → Run guarded start labels last) := by
  induction run with
  | nil => exact ⟨Nat.le_refl _, fun _ => .nil⟩
  | snoc _ taken ih =>
      obtain ⟨grown, earlier⟩ := ih
      rcases grows _ _ _ taken with ⟨obeys, kept⟩ | added
      · refine ⟨by omega, ?_⟩
        intro same
        exact (earlier (by omega)).snoc obeys
      · refine ⟨by omega, ?_⟩
        intro same
        omega

/-- Where a step keeps a property exactly when it obeys a guard, a run keeps it exactly when every
step does. -/
theorem guarded_iff (kept good : S → Prop) (guard : S → L → Prop) {start : S}
    (initially : kept start)
    (preserved : ∀ state label next, kept state → step state label next → kept next)
    (begins : good start)
    (exactly : ∀ state label next, kept state → step state label next →
      (good next ↔ good state ∧ guard state label))
    {labels : List L} {last : S} (run : Run step start labels last) :
    good last ↔ Run (fun state label next => step state label next ∧ guard state label)
      start labels last := by
  constructor
  · intro atEnd
    induction run with
    | nil => exact .nil
    | snoc before taken ih =>
        have state := invariant kept start initially preserved before
        obtain ⟨earlier, obeys⟩ := (exactly _ _ _ state taken).mp atEnd
        exact (ih earlier).snoc ⟨taken, obeys⟩
  · intro obedient
    have both := obedient.invariant (fun state => kept state ∧ good state) start
      ⟨initially, begins⟩ (by
        rintro state label next ⟨known, holds⟩ ⟨taken, obeys⟩
        exact ⟨preserved state label next known taken,
          (exactly state label next known taken).mpr ⟨holds, obeys⟩⟩)
    exact both.2

/-- Where a step from a good state ends in a good one exactly when it obeys a guard, all states of
a run are good exactly when every step obeys it. -/
theorem everywhere_iff (kept good : S → Prop) (guard : S → L → Prop) {start : S}
    (functional : ∀ state label next other, step state label next →
      step state label other → next = other)
    (initially : kept start)
    (preserved : ∀ state label next, kept state → step state label next → guard state label →
      kept next)
    (begins : good start)
    (exactly : ∀ state label next, kept state → good state → step state label next →
      (good next ↔ guard state label))
    {labels : List L} {last : S} (run : Run step start labels last) :
    (∀ past middle, past <+: labels → Run step start past middle → good middle) ↔
      Run (fun state label next => step state label next ∧ guard state label)
        start labels last := by
  have settled : ∀ labels middle, Run (fun state label next => step state label next ∧
      guard state label) start labels middle → kept middle := by
    intro labels middle obedient
    exact obedient.invariant kept start initially
      (fun state label next known both => preserved state label next known both.1 both.2)
  constructor
  · intro everywhere
    induction run with
    | nil => exact .nil
    | @snoc labels middle last label before taken ih =>
        have earlier := ih (fun past state begun reached =>
          everywhere past state (begun.trans (List.prefix_append labels [label])) reached)
        have good := everywhere labels middle (List.prefix_append labels [label]) before
        have atEnd := everywhere _ last (List.prefix_refl _) (before.snoc taken)
        exact earlier.snoc
          ⟨taken, (exactly middle label last (settled labels middle earlier) good taken).mp atEnd⟩
  · intro obedient
    clear run
    induction obedient with
    | nil =>
        intro past middle begun reached
        rw [List.prefix_nil.mp begun] at reached
        rw [last_of_nil reached]
        exact begins
    | @snoc labels middle last label before taken ih =>
        intro past state begun reached
        rcases List.prefix_concat_iff.mp begun with whole | earlier
        · subst whole
          have plain := mono (fun _ _ _ both => both.1) before
          have same := unique functional reached (plain.snoc taken.1)
          subst same
          exact (exactly middle label state (settled labels middle before)
            (ih labels middle (List.prefix_refl _) plain) taken.1).mpr taken.2
        · exact ih past state earlier reached

def observed {G : Type} (step : S → L → S → Prop) (observe : S → L → S → G → G)
    (state : S × G) (label : L) (next : S × G) : Prop :=
  step state.1 label next.1 ∧ next.2 = observe state.1 label next.1 state.2

end Run

def EachPrefix {A : Type} (holds : List A → A → Prop) (items : List A) : Prop :=
  ∀ past item future, items = past ++ item :: future → holds past item

namespace EachPrefix

variable {A : Type} {holds : List A → A → Prop}

theorem nil : EachPrefix holds [] := by
  intro past item future listed
  exact absurd listed.symm (List.append_ne_nil_of_right_ne_nil past (List.cons_ne_nil item future))

theorem imp {other : List A → A → Prop} {items : List A} (each : EachPrefix holds items)
    (weaker : ∀ past item, holds past item → other past item) : EachPrefix other items :=
  fun past item future listed => weaker past item (each past item future listed)

theorem snoc {items : List A} {last : A} :
    EachPrefix holds (items ++ [last]) ↔ EachPrefix holds items ∧ holds items last := by
  constructor
  · intro each
    constructor
    · intro past item future listed
      exact each past item (future ++ [last]) (by rw [listed, List.append_assoc, List.cons_append])
    · exact each items last [] rfl
  · rintro ⟨earlier, final⟩ past item future listed
    rcases List.eq_nil_or_concat future with none | ⟨rest, final', more⟩
    · rw [none] at listed
      obtain ⟨same, lastItem⟩ := List.append_inj' listed rfl
      cases lastItem
      rw [← same]
      exact final
    · rw [more, List.concat_eq_append, ← List.cons_append, ← List.append_assoc] at listed
      exact earlier past item rest (List.append_inj' listed rfl).1

end EachPrefix
end Library
