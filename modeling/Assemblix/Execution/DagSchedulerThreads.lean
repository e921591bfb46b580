import Assemblix.Execution.DagSchedulerSingleFile

/-
Where a run can go on, and what two such places have in common.

A run goes on at nodes that are ready or in flight and at nodes where a live token waits; all
tokens that wait at one node go on as one. A relation between nodes that is inherited along edges,
and that the edges followed by every completion bring with them, holds between any two of these
places: a delivery moves a place or joins two, and never makes two of one.
-/

namespace Assemblix.DagScheduler

open Library

variable {α : Type}

def Waits (state : State α) (node : String) : Prop :=
  ∃ ref, (state.tokens node).lookup ref = some .live

def Holds (state : State α) (ref : EdgeRef) : Prop := ref ∈ (state.tokens ref.target).keys

instance (state : State α) (ref : EdgeRef) : Decidable (Holds state ref) :=
  inferInstanceAs (Decidable (ref ∈ _))

def readyIds (ready : List (ReadyNode α)) : List String := ready.map ReadyNode.nodeId

theorem readyIds_nil : readyIds ([] : List (ReadyNode α)) = [] := rfl

def OneWave (plan : Plan) (state : State α) (left right : EdgeRef) : Prop :=
  left.target = right.target ∧ left ∉ plan.backEdges ∧ right ∉ plan.backEdges ∧
    (Holds state left ↔ Holds state right)

instance (plan : Plan) (state : State α) (left right : EdgeRef) :
    Decidable (OneWave plan state left right) :=
  inferInstanceAs (Decidable (_ ∧ _ ∧ _ ∧ (_ ↔ _)))

/-- Any two places of the run are related; `others` are the nodes in flight. -/
structure Parted (apart : String → String → Prop) (plan : Plan) (others : List String)
    (progress : Progress α) : Prop where
  within : ∀ node, (progress.state.tokens node).keys ⊆ plan.forwardIn node
  unfilled : ∀ node, plan.forwardIn node ≠ [] →
    (progress.state.tokens node).size < (plan.forwardIn node).length
  listed : (others ++ readyIds progress.ready).Pairwise apart
  waits : ∀ node, Waits progress.state node →
    ∀ other ∈ others ++ readyIds progress.ready, apart node other
  waiting : ∀ node other, node ≠ other → Waits progress.state node →
    Waits progress.state other → apart node other

/-- A place with the edges that it is about to go on along. -/
structure Leaving (apart : String → String → Prop) (plan : Plan) (others : List String)
    (pending : List EdgeRef) (progress : Progress α) : Prop where
  parted : Parted apart plan others progress
  distinct : pending.Nodup
  known : ∀ ref ∈ pending, ref ∈ plan.edges
  ahead : ∀ ref ∈ pending, ∀ other ∈ others ++ readyIds progress.ready, apart ref.target other
  meets : ∀ ref ∈ pending, ∀ node, Waits progress.state node →
    node ≠ ref.target ∨ ref ∈ plan.backEdges → apart ref.target node
  pairs : pending.Pairwise (fun left right =>
    apart left.target right.target ∨ OneWave plan progress.state left right)

section

variable {apart : String → String → Prop} {plan : Plan} {others : List String}
  {progress : Progress α} {ref : EdgeRef} {pending : List EdgeRef}

theorem mem_readyIds_concat {ready : List (ReadyNode α)} {made : ReadyNode α} {node : String} :
    node ∈ others ++ readyIds (ready ++ [made]) ↔
      node ∈ others ++ readyIds ready ∨ node = made.nodeId := by
  simp [readyIds, or_assoc]

theorem Waits.of_put {node : String} {status : Token}
    (waits : Waits (progress.state.putToken ref status) node) :
    node = ref.target ∧ status = .live ∨ Waits progress.state node := by
  obtain ⟨other, live⟩ := waits
  rw [lookup_putToken] at live
  split at live
  case isTrue here => exact .inl ⟨here.1, Option.some.inj live⟩
  case isFalse => exact .inr ⟨other, live⟩

theorem Waits.of_consumed {node other : String}
    (waits : Waits (progress.state.setTokens node Dict.empty) other) :
    other ≠ node ∧ Waits progress.state other := by
  obtain ⟨ref, live⟩ := waits
  rw [lookup_consumed] at live
  split at live
  case isTrue => cases live
  case isFalse different => exact ⟨different, ref, live⟩

section

variable (parted : Parted apart plan others progress)
include parted

theorem Parted.within_put (gated : ref ∈ plan.forwardIn ref.target) (status : Token)
    (node : String) :
    ((progress.state.putToken ref status).tokens node).keys ⊆ plan.forwardIn node := by
  intro other member
  rcases (mem_keys_putToken progress.state ref other status node).mp member with ⟨rfl, rfl⟩ | old
  · exact gated
  · exact parted.within node old

theorem Parted.within_consumed (target node : String) :
    ((progress.state.setTokens target Dict.empty).tokens node).keys ⊆ plan.forwardIn node :=
  fun _ member => parted.within node ((mem_keys_consumed _ _ _ _).mp member).2

theorem Parted.unfilled_put {status : Token}
    (missing : ((progress.state.tokens ref.target).set ref status).size <
      (plan.forwardIn ref.target).length) (node : String) (gates : plan.forwardIn node ≠ []) :
    ((progress.state.putToken ref status).tokens node).size < (plan.forwardIn node).length := by
  by_cases same : node = ref.target
  · subst same
    rw [State.putToken, State.setTokens_self]
    exact missing
  · rw [State.putToken, State.setTokens_of_ne _ _ same]
    exact parted.unfilled node gates

theorem Parted.unfilled_consumed (target node : String) (gates : plan.forwardIn node ≠ []) :
    ((progress.state.setTokens target Dict.empty).tokens node).size <
      (plan.forwardIn node).length := by
  by_cases same : node = target
  · subst same
    rw [State.setTokens_self]
    exact List.length_pos_iff.mpr gates
  · rw [State.setTokens_of_ne _ _ same]
    exact parted.unfilled node gates

end

theorem Parted.listed_concat (symmetric : ∀ left right, apart left right → apart right left)
    (parted : Parted apart plan others progress) {made : ReadyNode α}
    (new : ∀ other ∈ others ++ readyIds progress.ready, apart made.nodeId other) :
    (others ++ readyIds (progress.ready ++ [made])).Pairwise apart := by
  unfold readyIds
  rw [List.map_append, ← List.append_assoc, List.pairwise_append]
  refine ⟨parted.listed, List.pairwise_singleton _ _, ?_⟩
  intro other member last same
  rw [List.mem_singleton.mp same]
  exact symmetric _ _ (new other member)

/-! ### A dead token -/

theorem Parted.settle_dead (symmetric : ∀ left right, apart left right → apart right left)
    (parted : Parted apart plan others progress) (gated : ref ∈ plan.forwardIn ref.target) :
    Parted apart plan others (settle plan ref .dead progress) := by
  have settled := settle_settled plan ref .dead progress gated
  generalize settle plan ref .dead progress = after at settled ⊢
  cases settled with
  | waiting missing =>
      have old : ∀ {node}, Waits (progress.state.putToken ref .dead) node →
          Waits progress.state node :=
        fun waits => waits.of_put.resolve_left (fun both => Token.noConfusion both.2)
      exact
        { within := parted.within_put gated .dead
          unfilled := parted.unfilled_put missing
          listed := parted.listed
          waits := fun node waits => parted.waits node (old waits)
          waiting := fun node other different one two =>
            parted.waiting node other different (old one) (old two) }
  | fires full alive =>
      obtain ⟨source, _, live⟩ := exists_live plan ref.target _ alive
      rw [Dict.lookup_set] at live
      have waited : Waits progress.state ref.target := by
        split at live
        case isTrue => cases live
        case isFalse => exact ⟨source, live⟩
      exact
        { within := parted.within_consumed ref.target
          unfilled := parted.unfilled_consumed ref.target
          listed := parted.listed_concat symmetric (parted.waits ref.target waited)
          waits := by
            intro node waits other member
            obtain ⟨different, old⟩ := waits.of_consumed
            rcases mem_readyIds_concat.mp member with member | rfl
            · exact parted.waits node old other member
            · exact parted.waiting node ref.target different old waited
          waiting := fun node other different one two =>
            parted.waiting node other different one.of_consumed.2 two.of_consumed.2 }
  | dies full pruned =>
      exact
        { within := by
            intro node
            rw [kill_tokens]
            exact parted.within_consumed ref.target node
          unfilled := by
            intro node gates
            rw [kill_tokens]
            exact parted.unfilled_consumed ref.target node gates
          listed := by
            rw [kill_ready]
            exact parted.listed
          waits := by
            rintro node ⟨other, live⟩
            rw [kill_tokens] at live
            rw [kill_ready]
            exact parted.waits node (Waits.of_consumed ⟨other, live⟩).2
          waiting := by
            rintro node other different ⟨one, live⟩ ⟨two, alsoLive⟩
            rw [kill_tokens] at live alsoLive
            exact parted.waiting node other different (Waits.of_consumed ⟨one, live⟩).2
              (Waits.of_consumed ⟨two, alsoLive⟩).2 }

/-! ### A followed edge -/

theorem OneWave.of_put {left right : EdgeRef} {status : Token}
    (wave : OneWave plan progress.state left right) (notLeft : left ≠ ref) (notRight : right ≠ ref) :
    OneWave plan (progress.state.putToken ref status) left right := by
  obtain ⟨same, forward, alsoForward, both⟩ := wave
  refine ⟨same, forward, alsoForward, ?_⟩
  unfold Holds at both ⊢
  rw [mem_keys_putToken, mem_keys_putToken]
  simp only [notLeft, notRight, and_false, false_or]
  exact both

theorem OneWave.of_consumed {left right : EdgeRef}
    (wave : OneWave plan progress.state left right) (target : String) :
    OneWave plan (progress.state.setTokens target Dict.empty) left right := by
  obtain ⟨same, forward, alsoForward, both⟩ := wave
  refine ⟨same, forward, alsoForward, ?_⟩
  unfold Holds at both ⊢
  rw [mem_keys_consumed, mem_keys_consumed, both, same]

theorem OneWave.unfilled {next : EdgeRef} (parted : Parted apart plan others progress)
    (wave : OneWave plan progress.state ref next) (different : next ≠ ref)
    (known : next ∈ plan.edges) (gated : ref ∈ plan.forwardIn ref.target)
    (full : (plan.forwardIn ref.target).length ≤
      ((progress.state.tokens ref.target).set ref .live).size) : False := by
  obtain ⟨same, forward, alsoForward, both⟩ := wave
  by_cases holds : Holds progress.state ref
  · -- The token is replaced, and the node was not saturated before.
    have gates : plan.forwardIn ref.target ≠ [] := List.ne_nil_of_mem gated
    have before := parted.unfilled ref.target gates
    have replaced : ((progress.state.tokens ref.target).set ref .live).keys ⊆
        (progress.state.tokens ref.target).keys := by
      intro other member
      rcases (Dict.mem_keys_set _ _ _ _).mp member with rfl | old
      · exact holds
      · exact old
    have smaller : ((progress.state.tokens ref.target).set ref .live).keys.length ≤
        (progress.state.tokens ref.target).keys.length :=
      (List.subperm_of_subset (Dict.distinct _) replaced).length_le
    rw [Dict.size_eq_keys_length] at before full
    omega
  · have incoming : next ∈ plan.forwardIn ref.target :=
      (plan.mem_forwardIn _ _).mpr ⟨known, same.symm, alsoForward⟩
    have inside : ((progress.state.tokens ref.target).set ref .live).keys ⊆
        plan.forwardIn ref.target :=
      keys_set_subset _ _ _ _ (parted.within ref.target) gated
    have present := present_of_full _ _ inside full next incoming
    rw [Dict.lookup_set, if_neg (Ne.symm different)] at present
    apply holds
    rw [both]
    unfold Holds
    rw [← same]
    by_contra absent
    exact present ((Dict.lookup_eq_none _ _).mpr absent)

theorem Leaving.settle_live (symmetric : ∀ left right, apart left right → apart right left)
    (leaving : Leaving apart plan others (ref :: pending) progress)
    (gated : ref ∈ plan.forwardIn ref.target) :
    Leaving apart plan others pending (settle plan ref .live progress) ∧
      (settle plan ref .live progress).state.dead = progress.state.dead := by
  obtain ⟨parted, distinct, known, ahead, meets, pairs⟩ := leaving
  obtain ⟨fresh, distinct⟩ := List.nodup_cons.mp distinct
  obtain ⟨related, pairs⟩ := List.pairwise_cons.mp pairs
  have later : ∀ {next}, next ∈ pending → next ∈ ref :: pending :=
    fun member => List.mem_cons_of_mem ref member
  have other : ∀ {next}, next ∈ pending → next ≠ ref := fun member same => fresh (same ▸ member)
  have settled := settle_settled plan ref .live progress gated
  generalize settle plan ref .live progress = after at settled ⊢
  cases settled with
  | waiting missing =>
      have cases : ∀ {node}, Waits (progress.state.putToken ref .live) node →
          node = ref.target ∨ Waits progress.state node :=
        fun waits => waits.of_put.imp_left And.left
      have apartTarget : ∀ node, node ≠ ref.target → Waits progress.state node →
          apart ref.target node :=
        fun node different waits => meets ref List.mem_cons_self node waits (.inl different)
      refine ⟨⟨⟨parted.within_put gated .live, parted.unfilled_put missing, parted.listed, ?_, ?_⟩,
        distinct, fun next member => known next (later member),
        fun next member => ahead next (later member), ?_, ?_⟩, rfl⟩
      · intro node waits
        rcases cases waits with rfl | old
        · exact ahead ref List.mem_cons_self
        · exact parted.waits node old
      · intro node second different one two
        by_cases first : node = ref.target
        · rw [first] at different ⊢
          have old := (cases two).resolve_left (Ne.symm different)
          exact apartTarget second (Ne.symm different) old
        · have old := (cases one).resolve_left first
          rcases cases two with rfl | alsoOld
          · exact symmetric _ _ (apartTarget node first old)
          · exact parted.waiting node second different old alsoOld
      · intro next member node waits loose
        rcases cases waits with rfl | old
        · rcases related next member with separate | wave
          · exact symmetric _ _ separate
          · rcases loose with different | back
            · exact absurd wave.1 different
            · exact absurd back wave.2.2.1
        · exact meets next (later member) node old loose
      · refine pairs.imp_of_mem ?_
        intro left right leftMember rightMember pair
        exact pair.imp_right (fun wave => wave.of_put (other leftMember) (other rightMember))
  | fires full alive =>
      refine ⟨⟨⟨parted.within_consumed ref.target, parted.unfilled_consumed ref.target,
        parted.listed_concat symmetric (ahead ref List.mem_cons_self), ?_, ?_⟩,
        distinct, fun next member => known next (later member), ?_, ?_, ?_⟩, rfl⟩
      · intro node waits second member
        obtain ⟨different, old⟩ := waits.of_consumed
        rcases mem_readyIds_concat.mp member with member | rfl
        · exact parted.waits node old second member
        · exact symmetric _ _ (meets ref List.mem_cons_self node old (.inl different))
      · exact fun node second different one two =>
          parted.waiting node second different one.of_consumed.2 two.of_consumed.2
      · intro next member second listed
        rcases mem_readyIds_concat.mp listed with listed | rfl
        · exact ahead next (later member) second listed
        · rcases related next member with separate | wave
          · exact symmetric _ _ separate
          · exact (wave.unfilled parted (other member) (known next (later member)) gated full).elim
      · intro next member node waits loose
        exact meets next (later member) node waits.of_consumed.2 loose
      · exact pairs.imp (fun pair => pair.imp_right (fun wave => wave.of_consumed ref.target))
  | dies full pruned =>
      have live : ref ∈ liveSources plan ref.target
          ((progress.state.tokens ref.target).set ref .live) := by
        refine List.mem_filter.mpr ⟨gated, decide_eq_true ?_⟩
        rw [Dict.lookup_set, if_pos rfl]
      rw [pruned] at live
      cases live

theorem Leaving.reactivate (symmetric : ∀ left right, apart left right → apart right left)
    (leaving : Leaving apart plan others (ref :: pending) progress) (back : ref ∈ plan.backEdges)
    (output : Dict String α) :
    Leaving apart plan others pending
      { progress with ready := progress.ready ++ [⟨ref.target, output⟩] } := by
  obtain ⟨parted, distinct, known, ahead, meets, pairs⟩ := leaving
  obtain ⟨fresh, distinct⟩ := List.nodup_cons.mp distinct
  obtain ⟨related, pairs⟩ := List.pairwise_cons.mp pairs
  have later : ∀ {next}, next ∈ pending → next ∈ ref :: pending :=
    fun member => List.mem_cons_of_mem ref member
  refine ⟨⟨parted.within, parted.unfilled,
    parted.listed_concat symmetric (ahead ref List.mem_cons_self), ?_, parted.waiting⟩,
    distinct, fun next member => known next (later member), ?_, ?_, pairs⟩
  · intro node waits second member
    rcases mem_readyIds_concat.mp member with member | rfl
    · exact parted.waits node waits second member
    · exact symmetric _ _ (meets ref List.mem_cons_self node waits (.inr back))
  · intro next member second listed
    rcases mem_readyIds_concat.mp listed with listed | rfl
    · exact ahead next (later member) second listed
    · rcases related next member with separate | wave
      · exact symmetric _ _ separate
      · exact absurd back wave.2.1
  · exact fun next member => meets next (later member)

/-! ### A completion -/

theorem completionSignals_split (plan : Plan) (node : String) (branch : Option Int) :
    ∃ dead, completionSignals plan node branch =
        (followedEdges plan node branch).map (followSignal plan) ++ dead ∧
      DeadSignals plan dead := by
  cases branch with
  | none => exact ⟨[], (List.append_nil _).symm, fun signal member => by cases member⟩
  | some index =>
      refine ⟨_, rfl, ?_⟩
      split
      case isTrue => exact fun signal member => by cases member
      case isFalse => exact rejectedEdges_dead plan node index

theorem Leaving.cascade (symmetric : ∀ left right, apart left right → apart right left)
    {output : Dict String α} {dead : List Signal} {last : Progress α}
    (quiet : DeadSignals plan dead) :
    ∀ {pending : List EdgeRef} {progress : Progress α},
      Leaving apart plan others pending progress →
      Cascade plan output (pending.map (followSignal plan) ++ dead) progress last →
      Parted apart plan others last := by
  intro pending
  induction pending with
  | nil =>
      intro progress leaving cascade
      exact cascade.dead_invariant quiet (Parted apart plan others)
        (fun ref gated progress parted => parted.settle_dead symmetric gated) leaving.parted
  | cons ref pending ih =>
      intro progress leaving cascade
      have known := leaving.known ref List.mem_cons_self
      rw [List.map_cons, List.cons_append] at cascade
      by_cases back : ref ∈ plan.backEdges
      · rw [followSignal, if_pos ((plan.isBack_iff ref).mpr back)] at cascade
        cases cascade with
        | reactivate rest => exact ih (leaving.reactivate symmetric back output) rest
      · have gated : ref ∈ plan.forwardIn ref.target :=
          (plan.mem_forwardIn _ _).mpr ⟨known, rfl, back⟩
        rw [followSignal, if_neg (by simp [Plan.isBack, back])] at cascade
        cases cascade with
        | token rest =>
            obtain ⟨after, same⟩ := leaving.settle_live symmetric gated
            rw [same, fallout_of_subset _ _ _ _ (List.Subset.refl _), List.nil_append] at rest
            exact ih after rest

end

theorem Parted.complete {apart : String → String → Prop} {plan : Plan} {others : List String}
    (symmetric : ∀ left right, apart left right → apart right left)
    {state : State α} {node : String} {branch : Option Int}
    (inherited : ∀ ref ∈ followedEdges plan node branch, ∀ other, apart node other →
      apart ref.target other)
    (parted : Parted apart plan (node :: others) ⟨state, []⟩)
    (pairs : (followedEdges plan node branch).Pairwise (fun left right =>
      apart left.target right.target ∨ OneWave plan state left right))
    (output : Dict String α) :
    Parted apart plan others (completeProgress plan state node output branch) := by
  obtain ⟨dead, split, quiet⟩ := completionSignals_split plan node branch
  have cascade := completeProgress_cascade plan state node output branch
  rw [split] at cascade
  have outgoing : ∀ ref ∈ followedEdges plan node branch, ref ∈ plan.edges ∧ ref.source = node :=
    fun ref member => (plan.mem_out node ref).mp (followed_outgoing plan node branch ref member)
  have listed := parted.listed
  rw [readyIds_nil, List.append_nil] at listed
  obtain ⟨first, rest⟩ := List.pairwise_cons.mp listed
  have moved : Parted apart plan others ⟨state.recordOutput node output, []⟩ :=
    { parted with
      listed := by
        rw [readyIds_nil, List.append_nil]
        exact rest
      waits := fun place waits other member =>
        parted.waits place waits other (List.mem_cons_of_mem node member)
      waiting := parted.waiting }
  refine Leaving.cascade symmetric quiet
    { parted := moved
      distinct := ?_
      known := fun ref member => (outgoing ref member).1
      ahead := ?_
      meets := ?_
      pairs := pairs } cascade
  · cases branch with
    | none => exact plan.distinct.filter _
    | some index => exact (plan.distinct.filter _).filter _
  · intro ref member other there
    rw [readyIds_nil, List.append_nil] at there
    exact inherited ref member other (first other there)
  · intro ref member place waits _
    exact inherited ref member place
      (symmetric _ _ (parted.waits place waits node List.mem_cons_self))

theorem Parted.perm {apart : String → String → Prop} {plan : Plan}
    (symmetric : ∀ left right, apart left right → apart right left) {others after : List String}
    {state : State α} (parted : Parted apart plan others ⟨state, []⟩)
    (same : others.Perm after) : Parted apart plan after ⟨state, []⟩ := by
  have listed := parted.listed
  rw [readyIds_nil, List.append_nil] at listed
  refine ⟨parted.within, parted.unfilled, ?_, ?_, parted.waiting⟩
  · rw [readyIds_nil, List.append_nil]
    exact same.pairwise listed (fun pair => symmetric _ _ pair)
  · intro node waits other member
    rw [readyIds_nil, List.append_nil] at member
    refine parted.waits node waits other ?_
    rw [readyIds_nil, List.append_nil]
    exact same.mem_iff.mpr member

theorem Parted.settle {apart : String → String → Prop} {plan : Plan} {others : List String}
    {progress : Progress α} (parted : Parted apart plan others progress) :
    Parted apart plan (others ++ readyIds progress.ready) ⟨progress.state, []⟩ := by
  refine ⟨parted.within, parted.unfilled, ?_, ?_, parted.waiting⟩
  · rw [readyIds_nil, List.append_nil]
    exact parted.listed
  · intro node waits other member
    rw [readyIds_nil, List.append_nil] at member
    exact parted.waits node waits other member

theorem Parted.start (apart : String → String → Prop) (plan : Plan) :
    Parted apart plan [] (⟨State.initial, start plan⟩ : Progress α) :=
  { within := fun _ _ member => by cases member
    unfilled := fun _ gates => List.length_pos_iff.mpr gates
    listed := List.pairwise_singleton _ _
    waits := by
      rintro node ⟨ref, live⟩
      cases live
    waiting := by
      rintro node other _ ⟨ref, live⟩
      cases live }

end Assemblix.DagScheduler
