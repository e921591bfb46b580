import Mathlib.Data.List.Basic

/-
Coroutines whose awaits are answered from outside.

A coroutine runs over the log of what has been awaited and what came back; the answers are a
stream, so a law over every stream is a law over every outcome of every await. The log only grows.
Pre- and postconditions speak of the log, a postcondition also of how the coroutine ended.
-/

namespace Library

abbrev AwaitLog (Op V E : Type) := List (Op × Except E V)

structure Coroutine (Op V E A : Type) where
  run : (Nat → Except E V) → AwaitLog Op V E → Except E A × AwaitLog Op V E
  grows : ∀ answers log, log <+: (run answers log).2

namespace Coroutine

variable {Op V E A B : Type}

/-! ### Building blocks -/

def finish (value : A) : Coroutine Op V E A where
  run := fun _ log => (.ok value, log)
  grows := fun _ log => List.prefix_refl log

def raise (failure : E) : Coroutine Op V E A where
  run := fun _ log => (.error failure, log)
  grows := fun _ log => List.prefix_refl log

/-- What has happened so far. -/
def observe : Coroutine Op V E (AwaitLog Op V E) where
  run := fun _ log => (.ok log, log)
  grows := fun _ log => List.prefix_refl log

def await (op : Op) : Coroutine Op V E V where
  run := fun answers log => (answers log.length, log ++ [(op, answers log.length)])
  grows := fun _ log => List.prefix_append log _

def after (body : Coroutine Op V E A) (next : Except E A → Coroutine Op V E B) :
    Coroutine Op V E B where
  run := fun answers log =>
    (next (body.run answers log).1).run answers (body.run answers log).2
  grows := fun answers log =>
    (body.grows answers log).trans ((next (body.run answers log).1).grows answers _)

def andThen (body : Coroutine Op V E A) (next : A → Coroutine Op V E B) : Coroutine Op V E B :=
  body.after fun
    | .ok value => next value
    | .error failure => raise failure

instance : Monad (Coroutine Op V E) where
  pure := finish
  bind := andThen

/-- `try` with an `except` clause. -/
def catching (body : Coroutine Op V E A) (handler : E → Coroutine Op V E A) :
    Coroutine Op V E A :=
  body.after fun
    | .ok value => finish value
    | .error failure => handler failure

/-- `contextlib.suppress`. -/
def suppress (caught : E → Bool) (body : Coroutine Op V E Unit) : Coroutine Op V E Unit :=
  body.catching fun failure => if caught failure then finish () else raise failure

/-- An `if` without an `else`. -/
def only (wanted : Bool) (body : Coroutine Op V E Unit) : Coroutine Op V E Unit :=
  if wanted then body else finish ()

/-! ### What is awaited -/

def Awaits (allowed : Op → Prop) (body : Coroutine Op V E A) : Prop :=
  ∀ answers log, ∃ more, (body.run answers log).2 = log ++ more ∧ ∀ entry ∈ more, allowed entry.1

namespace Awaits

variable {allowed : Op → Prop}

theorem finish (value : A) : Awaits allowed (Coroutine.finish value : Coroutine Op V E A) :=
  fun _ log => ⟨[], (List.append_nil log).symm, fun _ none => by cases none⟩

theorem raise (failure : E) : Awaits allowed (Coroutine.raise failure : Coroutine Op V E A) :=
  fun _ log => ⟨[], (List.append_nil log).symm, fun _ none => by cases none⟩

theorem observe : Awaits allowed (Coroutine.observe : Coroutine Op V E _) :=
  fun _ log => ⟨[], (List.append_nil log).symm, fun _ none => by cases none⟩

theorem await {op : Op} (holds : allowed op) :
    Awaits allowed (Coroutine.await op : Coroutine Op V E V) := by
  intro answers log
  refine ⟨[(op, answers log.length)], rfl, ?_⟩
  intro entry member
  rw [List.mem_singleton.mp member]
  exact holds

theorem after {body : Coroutine Op V E A} {next : Except E A → Coroutine Op V E B}
    (first : Awaits allowed body) (second : ∀ ended, Awaits allowed (next ended)) :
    Awaits allowed (body.after next) := by
  intro answers log
  obtain ⟨begun, firstLog, early⟩ := first answers log
  obtain ⟨more, secondLog, late⟩ := second (body.run answers log).1 answers (body.run answers log).2
  refine ⟨begun ++ more, ?_, ?_⟩
  · change ((next (body.run answers log).1).run answers (body.run answers log).2).2 = _
    rw [secondLog, firstLog, List.append_assoc]
  · intro entry member
    rcases List.mem_append.mp member with old | new
    · exact early entry old
    · exact late entry new

theorem bind {body : Coroutine Op V E A} {next : A → Coroutine Op V E B}
    (first : Awaits allowed body) (second : ∀ value, Awaits allowed (next value)) :
    Awaits allowed (body >>= next) := by
  change Awaits allowed (body.after fun
    | .ok value => next value
    | .error failure => Coroutine.raise failure)
  refine first.after ?_
  intro ended
  cases ended with
  | ok value => exact second value
  | error failure => exact raise failure

theorem catching {body : Coroutine Op V E A} {handler : E → Coroutine Op V E A}
    (first : Awaits allowed body) (second : ∀ failure, Awaits allowed (handler failure)) :
    Awaits allowed (body.catching handler) := by
  unfold Coroutine.catching
  refine first.after ?_
  intro ended
  cases ended with
  | ok value => exact finish value
  | error failure => exact second failure

theorem suppress {caught : E → Bool} {body : Coroutine Op V E Unit} (first : Awaits allowed body) :
    Awaits allowed (Coroutine.suppress caught body) := by
  unfold Coroutine.suppress
  refine first.catching ?_
  intro failure
  split
  · exact finish ()
  · exact raise failure

theorem only {wanted : Bool} {body : Coroutine Op V E Unit}
    (first : wanted = true → Awaits allowed body) : Awaits allowed (Coroutine.only wanted body) := by
  unfold Coroutine.only
  split
  · rename_i asked
    exact first asked
  · exact finish ()

theorem imp {weaker : Op → Prop} {body : Coroutine Op V E A} (awaits : Awaits allowed body)
    (holds : ∀ op, allowed op → weaker op) : Awaits weaker body := by
  intro answers log
  obtain ⟨more, same, each⟩ := awaits answers log
  exact ⟨more, same, fun entry member => holds entry.1 (each entry member)⟩

end Awaits

/-! ### Pre- and postconditions -/

def Triple (pre : AwaitLog Op V E → Prop) (body : Coroutine Op V E A)
    (post : Except E A → AwaitLog Op V E → Prop) : Prop :=
  ∀ answers log, pre log → post (body.run answers log).1 (body.run answers log).2

namespace Triple

variable {pre : AwaitLog Op V E → Prop} {post : Except E A → AwaitLog Op V E → Prop}

theorem finish {value : A} (holds : ∀ log, pre log → post (.ok value) log) :
    Triple pre (Coroutine.finish value) post :=
  fun _ log given => holds log given

theorem raise {failure : E} (holds : ∀ log, pre log → post (.error failure) log) :
    Triple pre (Coroutine.raise failure) post :=
  fun _ log given => holds log given

theorem await {op : Op} {post : Except E V → AwaitLog Op V E → Prop}
    (holds : ∀ log answer, pre log → post answer (log ++ [(op, answer)])) :
    Triple pre (Coroutine.await op) post :=
  fun answers log given => holds log (answers log.length) given

theorem after {body : Coroutine Op V E A} {next : Except E A → Coroutine Op V E B}
    {post : Except E B → AwaitLog Op V E → Prop} (between : Except E A → AwaitLog Op V E → Prop)
    (first : Triple pre body between) (second : ∀ ended, Triple (between ended) (next ended) post) :
    Triple pre (body.after next) post :=
  fun answers log given => second _ answers _ (first answers log given)

theorem bind {body : Coroutine Op V E A} {next : A → Coroutine Op V E B}
    {post : Except E B → AwaitLog Op V E → Prop} (between : Except E A → AwaitLog Op V E → Prop)
    (first : Triple pre body between)
    (second : ∀ value, Triple (between (.ok value)) (next value) post)
    (failed : ∀ failure log, between (.error failure) log → post (.error failure) log) :
    Triple pre (body >>= next) post := by
  change Triple pre (body.after fun
    | .ok value => next value
    | .error failure => Coroutine.raise failure) post
  refine first.after between ?_
  intro ended
  cases ended with
  | ok value => exact second value
  | error failure => exact raise (failed failure)

theorem catching {body : Coroutine Op V E A} {handler : E → Coroutine Op V E A}
    (between : Except E A → AwaitLog Op V E → Prop) (first : Triple pre body between)
    (succeeded : ∀ value log, between (.ok value) log → post (.ok value) log)
    (handled : ∀ failure, Triple (between (.error failure)) (handler failure) post) :
    Triple pre (body.catching handler) post := by
  unfold Coroutine.catching
  refine first.after between ?_
  intro ended
  cases ended with
  | ok value => exact finish (succeeded value)
  | error failure => exact handled failure

theorem suppress {caught : E → Bool} {body : Coroutine Op V E Unit} {next : AwaitLog Op V E → Prop}
    (first : Triple pre body (fun _ log => next log)) :
    Triple pre (Coroutine.suppress caught body) (fun _ log => next log) := by
  refine first.catching _ (fun _ _ reached => reached) ?_
  intro failure
  split
  · exact finish (fun _ reached => reached)
  · exact raise (fun _ reached => reached)

theorem suppress_all {body : Coroutine Op V E Unit} {next : AwaitLog Op V E → Prop}
    (first : Triple pre body (fun _ log => next log)) :
    Triple pre (Coroutine.suppress (fun _ => true) body) (fun ended log => ended = .ok () ∧ next log) := by
  refine first.catching _ (fun _ _ reached => ⟨rfl, reached⟩) ?_
  intro failure
  rw [if_pos rfl]
  exact finish (fun _ reached => ⟨rfl, reached⟩)

/-- An `if` without an `else` before the rest. -/
theorem only {wanted : Bool} {body : Coroutine Op V E Unit}
    {post : Except E Unit → AwaitLog Op V E → Prop}
    (first : wanted = true → Triple pre body post) (skipped : ∀ log, pre log → post (.ok ()) log) :
    Triple pre (Coroutine.only wanted body) post := by
  unfold Coroutine.only
  split
  · rename_i asked
    exact first asked
  · exact finish skipped

theorem imp {weaker : AwaitLog Op V E → Prop} {stronger : Except E A → AwaitLog Op V E → Prop}
    {body : Coroutine Op V E A} (given : ∀ log, pre log → weaker log)
    (triple : Triple weaker body stronger) (holds : ∀ ended log, stronger ended log → post ended log) :
    Triple pre body post :=
  fun answers log begun => holds _ _ (triple answers log (given log begun))

theorem observe {post : Except E (AwaitLog Op V E) → AwaitLog Op V E → Prop}
    (holds : ∀ log, pre log → post (.ok log) log) : Triple pre Coroutine.observe post :=
  fun _ log given => holds log given

theorem frame {known : AwaitLog Op V E → Prop} {allowed : Op → Prop} {body : Coroutine Op V E A}
    (awaits : Awaits allowed body)
    (kept : ∀ log more, known log → (∀ entry ∈ more, allowed entry.1) → known (log ++ more)) :
    Triple known body (fun _ log => known log) := by
  intro answers log given
  obtain ⟨more, same, each⟩ := awaits answers log
  rw [same]
  exact kept log more given each

end Triple

/-! ### Returned or failed -/

def Ends (returned failed : AwaitLog Op V E → Prop) : Except E A → AwaitLog Op V E → Prop
  | .ok _ => returned
  | .error _ => failed

namespace Triple

variable {pre returned failed : AwaitLog Op V E → Prop}

theorem ends_await {op : Op} (succeeds : ∀ log value, pre log → returned (log ++ [(op, .ok value)]))
    (fails : ∀ log failure, pre log → failed (log ++ [(op, .error failure)])) :
    Triple pre (Coroutine.await op) (Ends returned failed) := by
  refine await ?_
  intro log answer given
  cases answer with
  | ok value => exact succeeds log value given
  | error failure => exact fails log failure given

theorem ends_bind {between : AwaitLog Op V E → Prop} {body : Coroutine Op V E A}
    {next : A → Coroutine Op V E B} (first : Triple pre body (Ends between failed))
    (second : ∀ value, Triple between (next value) (Ends returned failed)) :
    Triple pre (body >>= next) (Ends returned failed) :=
  first.bind _ second (fun _ _ reached => reached)

theorem ends_imp {returned' failed' : AwaitLog Op V E → Prop} {body : Coroutine Op V E A}
    (triple : Triple pre body (Ends returned failed)) (succeeds : ∀ log, returned log → returned' log)
    (fails : ∀ log, failed log → failed' log) : Triple pre body (Ends returned' failed') := by
  refine triple.imp (fun _ given => given) ?_
  intro ended log reached
  cases ended with
  | ok value => exact succeeds log reached
  | error failure => exact fails log reached

theorem ends_same {body : Coroutine Op V E A} (triple : Triple pre body (Ends returned returned)) :
    Triple pre body (fun _ log => returned log) := by
  refine triple.imp (fun _ given => given) ?_
  intro ended log reached
  cases ended with
  | ok value => exact reached
  | error failure => exact reached

theorem ends_catching {between : AwaitLog Op V E → Prop} {body : Coroutine Op V E A}
    {handler : E → Coroutine Op V E A} (first : Triple pre body (Ends returned between))
    (handled : ∀ failure, Triple between (handler failure) (Ends returned failed)) :
    Triple pre (body.catching handler) (Ends returned failed) :=
  first.catching _ (fun _ _ reached => reached) handled

end Triple
end Coroutine
end Library
