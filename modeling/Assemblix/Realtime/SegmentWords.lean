import Assemblix.Realtime.Segmenter

/-
The segments of a text and its words.

The end of the buffer counts as the end of a sentence, and where the buffer ends depends on how
the text came. A word is cut exactly where a fragment ends with a terminator in the middle of
the word, unless the segmenter still waits for its first cut.
-/

namespace Assemblix.Realtime

open Library SetVariableNode

/-! ### The ends of a text -/

def EndsTerminator (text : Text) : Prop := text.getLast?.any isTerminator = true

structure CutShort (before after : Text) : Prop where
  ends : EndsTerminator before
  goesOn : startsSolid isSpace after = true
  cuts : firstCut (before.dropWhile isSpace) ≠ none

theorem isSpace_of_isTerminator {char : Char} (terminator : isTerminator char = true) :
    isSpace char = false := by
  have members := of_decide_eq_true terminator
  simp only [List.mem_cons, List.not_mem_nil, or_false] at members
  rcases members with rfl | rfl | rfl | rfl <;> decide

theorem endsSolid_of_endsTerminator {text : Text} (ends : EndsTerminator text) :
    endsSolid isSpace text = true := by
  unfold EndsTerminator at ends
  unfold endsSolid
  cases last : text.getLast? with
  | none =>
      rw [last] at ends
      cases ends
  | some char =>
      rw [last] at ends
      have solid : isSpace char = false := isSpace_of_isTerminator (by simpa using ends)
      simp [solid]

theorem endsTerminator_append {before last : Text} (nonempty : last ≠ []) :
    EndsTerminator (before ++ last) ↔ EndsTerminator last := by
  unfold EndsTerminator
  rw [List.getLast?_append_of_ne_nil _ nonempty]

theorem endsSolid_append {before last : Text} (nonempty : last ≠ []) :
    endsSolid isSpace (before ++ last) = endsSolid isSpace last := by
  unfold endsSolid
  rw [List.getLast?_append_of_ne_nil _ nonempty]

theorem ends_of_endsSentence {text : Text} (ends : endsSentence text [] = true) :
    endsSolid isSpace text = false ∨ EndsTerminator text := by
  unfold endsSentence at ends
  unfold endsSolid EndsTerminator
  cases last : text.getLast? with
  | none => exact .inl rfl
  | some char =>
      rw [last] at ends
      simp only [Bool.or_eq_true, Bool.and_eq_true, decide_eq_true_eq] at ends
      rcases ends with feed | ⟨terminator, _⟩
      · have blank : isSpace char = true := by
          rw [feed]
          decide
        exact .inl (by simp [blank])
      · exact .inr (by simp [terminator])

theorem endsSentence_of_endsTerminator {text : Text} (ends : EndsTerminator text) :
    endsSentence text [] = true := by
  unfold EndsTerminator at ends
  unfold endsSentence
  cases last : text.getLast? with
  | none =>
      rw [last] at ends
      cases ends
  | some char =>
      rw [last] at ends
      have terminator : isTerminator char = true := by simpa using ends
      simp [terminator]

/-! ### The first cut -/

theorem sorted_placesOf (test : Text → Text → Bool) (text : Text) :
    (placesOf test text).Pairwise (· < ·) :=
  List.pairwise_lt_range.filter _

section Places

variable {places : List Nat} {place : Nat} (sorted : places.Pairwise (· < ·))
  (member : place ∈ places)

include sorted member

theorem head_le_of_mem : ∃ first, places.head? = some first ∧ first ≤ place := by
  cases places with
  | nil => cases member
  | cons first rest =>
      refine ⟨first, rfl, ?_⟩
      rcases List.mem_cons.mp member with rfl | later
      · exact Nat.le_refl place
      · exact ((List.pairwise_cons.mp sorted).1 place later).le

theorem find_le_of_mem (test : Nat → Bool) (passes : test place = true) :
    ∃ first, places.find? test = some first ∧ first ≤ place := by
  obtain ⟨first, found, early⟩ := head_le_of_mem (sorted.filter test)
    (List.mem_filter.mpr ⟨member, passes⟩)
  exact ⟨first, (List.head?_filter ▸ found), early⟩

theorem le_getLast_of_mem : ∃ last, places.getLast? = some last ∧ place ≤ last := by
  induction places using List.reverseRecOn with
  | nil => cases member
  | append_singleton earlier last _ =>
      refine ⟨last, List.getLast?_concat, ?_⟩
      rcases List.mem_append.mp member with before | here
      · exact ((List.pairwise_append.mp sorted).2.2 place before last
          List.mem_cons_self).le
      · exact (List.mem_singleton.mp here).le

end Places

theorem spaceCut_ne_none_iff {text : Text} {limit : Nat} (positive : 0 < limit) :
    spaceCut text limit ≠ none ↔ ∃ place ∈ spaces text, 0 < place := by
  constructor
  · intro some
    obtain ⟨place, found⟩ := Option.ne_none_iff_exists'.mp some
    unfold spaceCut at found
    dsimp only at found
    rcases Option.or_eq_some_iff.mp found with within | ⟨_, past⟩
    · obtain ⟨last, after⟩ := Option.filter_eq_some_iff.mp within
      exact ⟨place, (List.mem_filter.mp (List.mem_of_getLast? last)).1, of_decide_eq_true after⟩
    · obtain ⟨first, after⟩ := Option.filter_eq_some_iff.mp past
      exact ⟨place, List.mem_of_find?_eq_some first, of_decide_eq_true after⟩
  · rintro ⟨place, member, after⟩ none
    have sorted : (spaces text).Pairwise (· < ·) := sorted_placesOf _ text
    unfold spaceCut at none
    dsimp only at none
    obtain ⟨within, past⟩ := Option.or_eq_none_iff.mp none
    by_cases early : place ≤ limit
    · obtain ⟨last, found, later⟩ := le_getLast_of_mem
        (sorted.filter (fun place => decide (place ≤ limit)))
        (List.mem_filter.mpr ⟨member, decide_eq_true early⟩)
      rw [found, Option.filter_some, if_pos (decide_eq_true (after.trans_le later))] at within
      cases within
    · obtain ⟨first, found, _⟩ := find_le_of_mem sorted member
        (fun place => decide (limit ≤ place)) (decide_eq_true (Nat.le_of_not_le early))
      have late : limit ≤ first := by simpa using List.find?_some found
      rw [found, Option.filter_some, if_pos (decide_eq_true (positive.trans_le late))] at past
      cases past

theorem firstCut_ne_none_iff {text : Text} :
    firstCut text ≠ none ↔
      (∃ place ∈ sentenceEnds text, place ≤ firstMax) ∨
        (∃ place ∈ clauseEnds text, firstMinClause ≤ place ∧ place ≤ firstMax) ∨
        firstMax < text.length ∧ ∃ place ∈ spaces text, 0 < place := by
  have waits : (if firstMax < text.length then spaceCut text firstMax else none) ≠ none ↔
      firstMax < text.length ∧ ∃ place ∈ spaces text, 0 < place := by
    rw [← spaceCut_ne_none_iff (show 0 < firstMax by decide)]
    split
    · rename_i long
      exact (and_iff_right long).symm
    · rename_i short
      exact ⟨fun some => absurd rfl some, fun both => absurd both.1 short⟩
  constructor
  · intro some
    unfold firstCut at some
    dsimp only at some
    split at some
    · rename_i place least
      split at some
      · rename_i early
        rcases List.mem_append.mp (List.min?_mem least) with sentence | clause
        · exact .inl ⟨place, List.mem_of_head? (Option.mem_toList.mp sentence), early⟩
        · have found := Option.mem_toList.mp clause
          have late : firstMinClause ≤ place := by simpa using List.find?_some found
          exact .inr (.inl ⟨place, List.mem_of_find?_eq_some found, late, early⟩)
      · exact .inr (.inr (waits.mp some))
    · exact .inr (.inr (waits.mp some))
  · intro cuts
    -- An early sentence end or clause end is the cut.
    have early : ∀ place, place ∈ (sentenceEnds text).head?.toList ++
        ((clauseEnds text).find? (fun place => decide (firstMinClause ≤ place))).toList →
        place ≤ firstMax → firstCut text ≠ none := by
      intro place member within
      unfold firstCut
      dsimp only
      split
      · rename_i least found
        rw [if_pos (((List.le_min?_iff found).mp (Nat.le_refl least) place member).trans within)]
        exact Option.some_ne_none _
      · rename_i none
        rw [List.min?_eq_none_iff.mp none] at member
        cases member
    rcases cuts with ⟨place, member, within⟩ | ⟨place, member, late, within⟩ | far
    · obtain ⟨first, found, before⟩ := head_le_of_mem (sorted_placesOf _ text) member
      exact early first (List.mem_append_left _ (Option.mem_toList.mpr found))
        (before.trans within)
    · obtain ⟨first, found, before⟩ := find_le_of_mem (sorted_placesOf _ text) member
        (fun place => decide (firstMinClause ≤ place)) (decide_eq_true late)
      exact early first (List.mem_append_right _ (Option.mem_toList.mpr found))
        (before.trans within)
    · unfold firstCut
      dsimp only
      split
      · split
        · exact Option.some_ne_none _
        · exact waits.mpr far
      · exact waits.mpr far

theorem mem_placesOf_append {test : Text → Text → Bool}
    (first : ∀ before one two : Text, one.head? = two.head? → (one = [] ↔ two = []) →
      test before one = test before two)
    {text more : Text} {place : Nat} (member : place ∈ placesOf test text)
    (inside : place < text.length) : place ∈ placesOf test (text ++ more) := by
  obtain ⟨within, passes⟩ := mem_placesOf.mp member
  refine mem_placesOf.mpr ⟨within.trans (by simp), ?_⟩
  have nonempty : text.drop place ≠ [] := by
    intro none
    exact absurd (List.drop_eq_nil_iff.mp none) (Nat.not_le_of_lt inside)
  rw [List.take_append_of_le_length within, List.drop_append_of_le_length within, ← passes]
  refine first _ _ _ (List.head?_append_of_ne_nil _ nonempty) ?_
  simp [nonempty]

theorem mem_sentenceEnds_append {text more : Text} {place : Nat}
    (member : place ∈ sentenceEnds text)
    (goesOn : EndsTerminator text → startsSolid isSpace more = false) :
    place ∈ sentenceEnds (text ++ more) := by
  have same : ∀ before one two : Text, one.head? = two.head? → (one = [] ↔ two = []) →
      endsSentence before one = endsSentence before two := by
    intro before one two first none
    unfold endsSentence startsBlank
    rw [first]
    simp only [none]
  obtain ⟨within, ends⟩ := mem_placesOf.mp member
  rcases Nat.lt_or_eq_of_le within with inside | atEnd
  · exact mem_placesOf_append same member inside
  · subst atEnd
    rw [List.take_length, List.drop_length] at ends
    refine mem_placesOf.mpr ⟨by simp, ?_⟩
    rw [List.take_left, List.drop_left]
    unfold endsSentence at ends ⊢
    cases last : text.getLast? with
    | none =>
        rw [last] at ends
        cases ends
    | some char =>
        rw [last] at ends
        simp only [Bool.or_eq_true, Bool.and_eq_true, decide_eq_true_eq] at ends ⊢
        rcases ends with feed | ⟨terminator, _⟩
        · exact .inl feed
        · refine .inr ⟨terminator, ?_⟩
          have stops := goesOn (by simp [EndsTerminator, last, terminator])
          cases more with
          | nil => exact .inr rfl
          | cons next rest =>
              refine .inl ?_
              simpa [startsBlank, startsSolid] using stops

theorem mem_clauseEnds_append {text : Text} {place : Nat} (member : place ∈ clauseEnds text)
    (more : Text) : place ∈ clauseEnds (text ++ more) := by
  have begins := startsBlank_of_endsClause (mem_placesOf.mp member).2
  refine mem_placesOf_append ?_ member (inside_of_startsBlank begins)
  intro before one two first _
  unfold endsClause startsBlank
  rw [first]

theorem mem_spaces_append {text : Text} {place : Nat} (member : place ∈ spaces text)
    (more : Text) : place ∈ spaces (text ++ more) := by
  have begins := of_decide_eq_true (mem_placesOf.mp member).2
  have inside : place < text.length := by
    by_contra atEnd
    rw [List.drop_eq_nil_of_le (Nat.le_of_not_lt atEnd)] at begins
    cases begins
  refine mem_placesOf_append ?_ member inside
  intro before one two first _
  rw [first]

theorem firstCut_append {text more : Text} (cuts : firstCut text ≠ none)
    (goesOn : EndsTerminator text → startsSolid isSpace more = false) :
    firstCut (text ++ more) ≠ none := by
  rw [firstCut_ne_none_iff] at cuts ⊢
  rcases cuts with ⟨place, member, within⟩ | ⟨place, member, bounds⟩ | ⟨long, place, member, after⟩
  · exact .inl ⟨place, mem_sentenceEnds_append member goesOn, within⟩
  · exact .inr (.inl ⟨place, mem_clauseEnds_append member more, bounds⟩)
  · refine .inr (.inr ⟨?_, place, mem_spaces_append member more, after⟩)
    rw [List.length_append]
    omega

namespace Segmenter

variable {segmenter : Segmenter} {pack : Bool}

/-! ### Where a drained buffer ends -/

theorem emit_positive (segmenter : Segmenter) (unit : Text) :
    1 ≤ (segmenter.emit unit).1.count ∧
      segmenter.count ≤ (segmenter.emit unit).1.count := by
  unfold emit hold settle
  dsimp only
  split
  · exact ⟨Nat.succ_pos _, Nat.le_succ _⟩
  · rename_i packed
    have late : 2 ≤ segmenter.count := by
      by_contra early
      exact packed (.inr (by omega))
    split <;> split <;> dsimp only <;> omega

theorem emitAll_positive {units : List Text} (some : units ≠ []) (segmenter : Segmenter) :
    1 ≤ (segmenter.emitAll units).1.count := by
  have kept : ∀ units : List Text, ∀ segmenter : Segmenter,
      segmenter.count ≤ (segmenter.emitAll units).1.count := by
    intro units
    induction units with
    | nil => exact fun _ => Nat.le_refl _
    | cons unit rest ih => exact fun segmenter => (emit_positive segmenter unit).2.trans (ih _)
  obtain ⟨unit, rest, rfl⟩ := List.exists_cons_of_ne_nil some
  exact (emit_positive segmenter unit).1.trans (kept rest _)

theorem ends_of_nextCut {buffer : Text}
    (found : segmenter.nextCut buffer false = some buffer.length) :
    endsSolid isSpace buffer = false ∨ EndsTerminator buffer := by
  rcases stop_of_nextCut found with (sentence | ⟨_, begins⟩) | ⟨atEnd, _⟩
  · have ends := (mem_placesOf.mp sentence).2
    rw [List.take_length, List.drop_length] at ends
    exact ends_of_endsSentence ends
  · exact absurd (inside_of_startsBlank begins) (Nat.lt_irrefl _)
  · cases atEnd

theorem cut_of_units {final : Bool} (units : (segmenter.nextUnits final).2 ≠ []) :
    ∃ cut, segmenter.nextCut (segmenter.buffer.dropWhile isSpace) final = some cut ∧
      segmenter.buffer.dropWhile isSpace ≠ [] ∧
      (segmenter.nextUnits final).1.buffer = (segmenter.buffer.dropWhile isSpace).drop cut := by
  unfold nextUnits at units ⊢
  dsimp only at units ⊢
  split
  · rename_i empty
    rw [if_pos empty] at units
    exact absurd rfl units
  · rename_i nonempty
    rw [if_neg nonempty] at units
    cases found : segmenter.nextCut (segmenter.buffer.dropWhile isSpace) final with
    | none =>
        rw [found] at units
        exact absurd rfl units
    | some cut => exact ⟨cut, rfl, nonempty, rfl⟩

theorem count_nextUnits (segmenter : Segmenter) (final : Bool) :
    (segmenter.nextUnits final).1.count = segmenter.count := by
  unfold nextUnits
  dsimp only
  split
  · rfl
  · split <;> rfl

theorem blank_of_dropWhile {text : Text} (none : text.dropWhile isSpace = []) :
    endsSolid isSpace text = false := by
  have blanks := List.dropWhile_eq_nil_iff.mp none
  unfold endsSolid
  cases last : text.getLast? with
  | none => rfl
  | some char =>
      have blank := blanks char (List.mem_of_getLast? last)
      simp [blank]

theorem endsTerminator_dropWhile {text : Text} (nonempty : text.dropWhile isSpace ≠ []) :
    EndsTerminator (text.dropWhile isSpace) ↔ EndsTerminator text := by
  have parted : text.takeWhile isSpace ++ text.dropWhile isSpace = text :=
    List.takeWhile_append_dropWhile
  rw [← endsTerminator_append nonempty, parted]

theorem endsSolid_dropWhile {text : Text} (nonempty : text.dropWhile isSpace ≠ []) :
    endsSolid isSpace (text.dropWhile isSpace) = endsSolid isSpace text := by
  have parted : text.takeWhile isSpace ++ text.dropWhile isSpace = text :=
    List.takeWhile_append_dropWhile
  rw [← endsSolid_append nonempty, parted]

theorem endsTerminator_drop {text : Text} {cut : Nat} (nonempty : text.drop cut ≠ []) :
    EndsTerminator (text.drop cut) ↔ EndsTerminator text := by
  rw [← endsTerminator_append nonempty, List.take_append_drop]

theorem endsSolid_drop {text : Text} {cut : Nat} (nonempty : text.drop cut ≠ []) :
    endsSolid isSpace (text.drop cut) = endsSolid isSpace text := by
  rw [← endsSolid_append nonempty, List.take_append_drop]

theorem ends_of_drain (segmenter : Segmenter) {final : Bool} (early : final = false) :
    (segmenter.drain final).1.buffer = [] →
      endsSolid isSpace segmenter.buffer = false ∨ EndsTerminator segmenter.buffer := by
  fun_induction drain segmenter final with
  | case1 segmenter none =>
      intro empty
      exact .inl (blank_of_dropWhile ((buffer_of_no_units none).1.symm.trans empty))
  | case2 segmenter some emitted more ih =>
      intro empty
      obtain ⟨cut, found, nonempty, left⟩ := cut_of_units some
      have rest : emitted.1.buffer = (segmenter.buffer.dropWhile isSpace).drop cut :=
        (emitAll_buffer _ _).trans left
      rw [← endsTerminator_dropWhile nonempty, ← endsSolid_dropWhile nonempty]
      by_cases last : (segmenter.buffer.dropWhile isSpace).drop cut = []
      · have within := (isCut_of_nextCut nonempty found).within
        have atEnd : cut = (segmenter.buffer.dropWhile isSpace).length :=
          Nat.le_antisymm within (List.drop_eq_nil_iff.mp last)
        rw [early, atEnd] at found
        exact ends_of_nextCut found
      · have later := ih empty
        rwa [rest, endsTerminator_drop last, endsSolid_drop last] at later

theorem nextCut_of_endsTerminator {buffer : Text} (ends : EndsTerminator buffer)
    (cuts : segmenter.count = 0 → firstCut buffer ≠ none) (final : Bool) :
    segmenter.nextCut buffer final ≠ none := by
  intro none
  unfold nextCut at none
  dsimp only at none
  split at none
  · cases none
  · rename_i noCut
    split at noCut
    · rename_i first
      exact cuts first noCut
    · split at noCut
      · cases noCut
      · rename_i noSentence
        have atEnd : buffer.length ∈ sentenceEnds buffer := by
          refine mem_placesOf.mpr ⟨Nat.le_refl _, ?_⟩
          rw [List.take_length, List.drop_length]
          exact endsSentence_of_endsTerminator ends
        rw [List.head?_eq_none_iff.mp noSentence] at atEnd
        cases atEnd

theorem drain_of_endsTerminator (segmenter : Segmenter) (final : Bool) :
    segmenter.buffer = [] ∨ EndsTerminator segmenter.buffer →
      (segmenter.count = 0 → segmenter.buffer ≠ [] →
        firstCut (segmenter.buffer.dropWhile isSpace) ≠ none) →
      (segmenter.drain final).1.buffer = [] := by
  fun_induction drain segmenter final with
  | case1 segmenter none =>
      intro ends cuts
      obtain ⟨left, nothing | noCut⟩ := buffer_of_no_units none
      · exact left.trans nothing
      · rcases ends with empty | ends
        · rw [left, empty]
          rfl
        · have nonempty : segmenter.buffer.dropWhile isSpace ≠ [] := by
            intro blanks
            exact absurd ((endsSolid_of_endsTerminator ends).symm.trans (blank_of_dropWhile blanks))
              Bool.noConfusion
          have some : segmenter.buffer ≠ [] := by
            intro empty
            rw [empty] at nonempty
            exact nonempty rfl
          exact absurd noCut (nextCut_of_endsTerminator
            ((endsTerminator_dropWhile nonempty).mpr ends) (fun first => cuts first some) final)
  | case2 segmenter some emitted more ih =>
      intro ends _
      obtain ⟨cut, _, nonempty, left⟩ := cut_of_units some
      have rest : emitted.1.buffer = (segmenter.buffer.dropWhile isSpace).drop cut :=
        (emitAll_buffer _ _).trans left
      have counted : 1 ≤ emitted.1.count := emitAll_positive some _
      refine ih ?_ (fun first => absurd first (by omega))
      rw [rest]
      by_cases last : (segmenter.buffer.dropWhile isSpace).drop cut = []
      · exact .inl last
      · rw [endsTerminator_drop last, endsTerminator_dropWhile nonempty]
        refine .inr (ends.resolve_left (fun empty => ?_))
        rw [empty] at nonempty
        exact nonempty rfl

theorem firstCut_of_drain (segmenter : Segmenter) {final : Bool} (early : final = false)
    (first : segmenter.count = 0) (counted : 1 ≤ (segmenter.drain final).1.count) :
    firstCut (segmenter.buffer.dropWhile isSpace) ≠ none := by
  unfold drain at counted
  split at counted
  · rw [count_nextUnits, first] at counted
    exact absurd counted (by decide)
  · rename_i some
    obtain ⟨cut, found, _, _⟩ := cut_of_units some
    intro none
    unfold nextCut at found
    dsimp only at found
    rw [if_pos first, none, early] at found
    cases found

theorem ends_of_feed (segmenter : Segmenter) (text : Text)
    (empty : (segmenter.feed text).1.buffer = []) :
    endsSolid isSpace (segmenter.buffer ++ text) = false ∨
      EndsTerminator (segmenter.buffer ++ text) :=
  ends_of_drain { segmenter with buffer := segmenter.buffer ++ text } rfl empty

theorem buffer_of_feed (segmenter : Segmenter) (text : Text)
    (ends : segmenter.buffer ++ text = [] ∨ EndsTerminator (segmenter.buffer ++ text))
    (cuts : segmenter.count = 0 →
      firstCut ((segmenter.buffer ++ text).dropWhile isSpace) ≠ none) :
    (segmenter.feed text).1.buffer = [] :=
  drain_of_endsTerminator { segmenter with buffer := segmenter.buffer ++ text } false ends
    (fun first _ => cuts first)

theorem firstCut_of_feed (segmenter : Segmenter) (text : Text) (first : segmenter.count = 0)
    (counted : 1 ≤ (segmenter.feed text).1.count) :
    firstCut ((segmenter.buffer ++ text).dropWhile isSpace) ≠ none :=
  firstCut_of_drain { segmenter with buffer := segmenter.buffer ++ text } rfl first counted

/-! ### The cuts of a text -/

theorem feedAll_append (past more : List Text) :
    ∀ segmenter : Segmenter,
      segmenter.feedAll (past ++ more) =
        (((segmenter.feedAll past).1.feedAll more).1,
          (segmenter.feedAll past).2 ++ ((segmenter.feedAll past).1.feedAll more).2) := by
  induction past with
  | nil => exact fun _ => rfl
  | cons one rest ih =>
      intro segmenter
      rw [List.cons_append, feedAll, feedAll, ih]
      simp

theorem feedAll_concat (segmenter : Segmenter) (past : List Text) (text : Text) :
    segmenter.feedAll (past ++ [text]) =
      (((segmenter.feedAll past).1.feed text).1,
        (segmenter.feedAll past).2 ++ ((segmenter.feedAll past).1.feed text).2) := by
  rw [feedAll_append]
  simp [feedAll]

structure Course (pack : Bool) (past : List Text) (pieces : List Text) : Prop where
  emitted : Emitted { pack } pieces (feedAll { pack } past).1 (feedAll { pack } past).2
  parted : pieces.flatten ++ (feedAll { pack } past).1.buffer = past.flatten

namespace Course

variable {past : List Text} {pieces : List Text} {text : Text}

theorem fresh (pack : Bool) : Course pack [] [] where
  emitted := .refl (sound_fresh pack)
  parted := rfl

theorem feed (course : Course pack past pieces) {later : List Text}
    (drained : Drained
      { (feedAll { pack } past).1 with buffer := (feedAll { pack } past).1.buffer ++ text } later
      ((feedAll { pack } past).1.feed text).1 ((feedAll { pack } past).1.feed text).2) :
    Course pack (past ++ [text]) (pieces ++ later) where
  emitted := by
    rw [feedAll_concat]
    exact course.emitted.trans (drained.toEmitted.of_buffer _ _)
  parted := by
    have parted := drained.parted
    rw [feedAll_concat, List.flatten_append, List.append_assoc, List.flatten_append,
      List.flatten_singleton, ← course.parted, List.append_assoc]
    exact congrArg _ parted

theorem blanks (course : Course pack past pieces) (first : (feedAll { pack } past).1.count = 0) :
    ∀ char ∈ pieces.flatten, isSpace char = true := by
  have counted := course.emitted.count
  have words := course.emitted.words
  have none : (feedAll { pack } past).2 = [] := by
    refine List.length_eq_zero_iff.mp ?_
    change _ = 0 + _ at counted
    omega
  have nothing : (feedAll { pack } past).1.pending = [] := by
    by_contra held
    have late := (course.emitted.sound.packs held).2
    omega
  rw [none, nothing] at words
  refine blank_of_solid ?_
  rw [← flatten_flatMap_words]
  exact congrArg List.flatten words.symm

theorem dropWhile_buffer (course : Course pack past pieces)
    (first : (feedAll { pack } past).1.count = 0) (more : Text) :
    ((feedAll { pack } past).1.buffer ++ more).dropWhile isSpace =
      (past.flatten ++ more).dropWhile isSpace := by
  rw [← course.parted, List.append_assoc, List.dropWhile_append_of_pos (course.blanks first)]

end Course

theorem exists_course (pack : Bool) (past : List Text) : ∃ pieces, Course pack past pieces := by
  induction past using List.reverseRecOn with
  | nil => exact ⟨[], .fresh pack⟩
  | append_singleton past text ih =>
      obtain ⟨pieces, course⟩ := ih
      obtain ⟨later, drained⟩ := drained_feed course.emitted.sound text
      exact ⟨pieces ++ later, course.feed drained⟩

theorem buffer_of_cutShort {past : List Text} {after : Text}
    (short : CutShort past.flatten after) : (feedAll { pack } past).1.buffer = [] := by
  induction past using List.reverseRecOn with
  | nil => rfl
  | append_singleton past text _ =>
      obtain ⟨pieces, course⟩ := exists_course pack past
      have ends := short.ends
      have cuts := short.cuts
      rw [List.flatten_append, List.flatten_singleton] at ends cuts
      rw [feedAll_concat]
      refine buffer_of_feed _ text ?_ (fun first => ?_)
      · by_cases empty : (feedAll { pack } past).1.buffer ++ text = []
        · exact .inl empty
        · rw [← course.parted, List.append_assoc, endsTerminator_append empty] at ends
          exact .inr ends
      · rw [course.dropWhile_buffer first text]
        exact cuts

structure Clear (pack : Bool) (past : List Text) (pieces : List Text) : Prop
    extends Course pack past pieces where
  clean : CleanCuts isSpace pieces (feedAll { pack } past).1.buffer
  ends : (feedAll { pack } past).1.buffer = [] →
    endsSolid isSpace past.flatten = false ∨ EndsTerminator past.flatten
  cuts : 1 ≤ (feedAll { pack } past).1.count →
    firstCut (past.flatten.dropWhile isSpace) ≠ none

theorem firstCut_nil : firstCut [] = none := by
  decide +kernel

theorem endsSolid_of_blanks {text : Text} (blanks : ∀ char ∈ text, isSpace char = true) :
    endsSolid isSpace text = false :=
  blank_of_dropWhile (List.dropWhile_eq_nil_iff.mpr blanks)

namespace Clear

variable {past : List Text} {pieces later : List Text} {text after : Text}

theorem goesOn (whole : ¬ CutShort past.flatten (text ++ after))
    (ends : EndsTerminator past.flatten)
    (cuts : firstCut (past.flatten.dropWhile isSpace) ≠ none) :
    startsSolid isSpace text = false := by
  by_contra starts
  have begins : startsSolid isSpace text = true := eq_true_of_ne_false starts
  have some : text ≠ [] := by
    rintro rfl
    cases begins
  exact whole ⟨ends, (startsSolid_append some).trans begins, cuts⟩

theorem clean_append (clear : Clear pack past pieces)
    (whole : ¬ CutShort past.flatten (text ++ after)) :
    CleanCuts isSpace pieces ((feedAll { pack } past).1.buffer ++ text) := by
  refine clear.clean.append_right (fun none => ?_)
  have consumed := clear.parted
  rw [none, List.append_nil] at consumed
  rcases clear.ends none with blank | ends
  · exact Clean.of_ends (consumed ▸ blank)
  · by_cases first : (feedAll { pack } past).1.count = 0
    · exact Clean.of_ends (endsSolid_of_blanks (clear.blanks first))
    · exact Clean.of_starts
        (goesOn whole ends (clear.cuts (Nat.one_le_iff_ne_zero.mpr first)))

theorem ends_append (clear : Clear pack past pieces)
    (empty : ((feedAll { pack } past).1.feed text).1.buffer = []) :
    endsSolid isSpace (past.flatten ++ text) = false ∨
      EndsTerminator (past.flatten ++ text) := by
  have used := ends_of_feed _ text empty
  by_cases nothing : (feedAll { pack } past).1.buffer ++ text = []
  · obtain ⟨noBuffer, noText⟩ := List.append_eq_nil_iff.mp nothing
    rw [noText, List.append_nil]
    exact clear.ends noBuffer
  · rwa [← clear.parted, List.append_assoc, endsSolid_append nothing,
      endsTerminator_append nothing]

theorem cuts_append (clear : Clear pack past pieces)
    (whole : ¬ CutShort past.flatten (text ++ after))
    (counted : 1 ≤ ((feedAll { pack } past).1.feed text).1.count) :
    firstCut ((past.flatten ++ text).dropWhile isSpace) ≠ none := by
  by_cases first : (feedAll { pack } past).1.count = 0
  · rw [← clear.dropWhile_buffer first text]
    exact firstCut_of_feed _ text first counted
  · have cuts := clear.cuts (Nat.one_le_iff_ne_zero.mpr first)
    have nonempty : past.flatten.dropWhile isSpace ≠ [] := by
      intro blanks
      exact cuts (blanks ▸ firstCut_nil)
    rw [List.dropWhile_append, if_neg (by simpa using nonempty)]
    exact firstCut_append cuts (fun ends =>
      goesOn whole ((endsTerminator_dropWhile nonempty).mp ends) cuts)

theorem feed (clear : Clear pack past pieces) (text after : Text)
    (whole : ¬ CutShort past.flatten (text ++ after)) :
    ∃ later, Clear pack (past ++ [text]) later := by
  obtain ⟨later, drained⟩ := drained_feed clear.emitted.sound text
  refine ⟨pieces ++ later, clear.toCourse.feed drained, ?_, ?_, ?_⟩
  · have parted := drained.parted
    rw [feedAll_concat]
    exact CleanCuts.append_iff.mpr ⟨parted ▸ clear.clean_append whole, drained.clean⟩
  · rw [feedAll_concat, List.flatten_append, List.flatten_singleton]
    exact clear.ends_append
  · rw [feedAll_concat, List.flatten_append, List.flatten_singleton]
    exact clear.cuts_append whole

end Clear

theorem exists_clear (past : List Text) :
    ∀ after : Text,
      (∀ earlier later, past = earlier ++ later →
        ¬ CutShort earlier.flatten (later.flatten ++ after)) →
      ∃ pieces, Clear pack past pieces := by
  induction past using List.reverseRecOn with
  | nil =>
      intro after _
      refine ⟨[], .fresh pack, trivial, fun _ => .inl rfl, fun counted => ?_⟩
      exact absurd counted (Nat.not_succ_le_zero 0)
  | append_singleton past text ih =>
      intro after whole
      obtain ⟨pieces, clear⟩ := ih (text ++ after) (fun earlier later parted => by
        have short := whole earlier (later ++ [text]) (by rw [parted, List.append_assoc])
        rwa [List.flatten_append, List.flatten_singleton, List.append_assoc] at short)
      have short := whole past [text] rfl
      rw [List.flatten_singleton] at short
      exact clear.feed text after short

theorem words_segmentsOf {past : List Text} {pieces : List Text}
    (course : Course pack past pieces) (future : List Text) {later : List Text} {out : List Text}
    (emits : Emits (feedAll { pack } past).1 later
      ((feedAll { pack } past).1.buffer ++ future.flatten) out)
    (rest : out = ((feedAll { pack } past).1.feedAll future).2 ++
      ((feedAll { pack } past).1.feedAll future).1.flush.2) :
    (segmentsOf pack (past ++ future)).flatMap (words isSpace) =
        (pieces ++ later).flatMap (words isSpace) ∧
      (pieces ++ later).flatten = (past ++ future).flatten := by
  constructor
  · have words := course.emitted.words
    unfold segmentsOf
    dsimp only
    rw [feedAll_append, List.append_assoc, ← rest, List.flatMap_append, emits.words,
      ← List.append_assoc, words, List.flatMap_append]
    rfl
  · rw [List.flatten_append, emits.parted, ← List.append_assoc, course.parted,
      List.flatten_append]

/-- However the text is cut into fragments: the segments have its words exactly where no
fragment ends with a terminator inside a word once a first cut is possible. -/
theorem words_kept_iff (pack : Bool) (fragments : List Text) :
    (segmentsOf pack fragments).flatMap (words isSpace) = words isSpace fragments.flatten ↔
      ∀ past future, fragments = past ++ future →
        ¬ CutShort past.flatten future.flatten := by
  constructor
  · rintro kept past future rfl short
    obtain ⟨pieces, course⟩ := exists_course pack past
    obtain ⟨later, emits⟩ := emits_feedAll future (feedAll { pack } past).1 course.emitted.sound
    obtain ⟨words, parted⟩ := words_segmentsOf course future emits rfl
    rw [words, ← parted, words_pieces_iff, CleanCuts.append_iff, List.append_nil] at kept
    -- The cut where the buffer was used up is in a word.
    have used : (feedAll { pack } past).1.buffer = [] := buffer_of_cutShort short
    have consumed := course.parted
    have remaining := emits.parted
    rw [used, List.append_nil] at consumed
    rw [used, List.nil_append] at remaining
    have clean := kept.1.last
    rw [consumed, remaining] at clean
    have stops := clean (endsSolid_of_endsTerminator short.ends)
    exact absurd (short.goesOn.symm.trans stops) Bool.noConfusion
  · intro whole
    have clears : ∃ pieces, Clear pack fragments pieces := by
      refine exists_clear fragments [] (fun past future parted => ?_)
      rw [List.append_nil]
      exact whole past future parted
    obtain ⟨pieces, clear⟩ := clears
    obtain ⟨later, emits, clean⟩ := emits_flush clear.emitted.sound
    have rest : Emits (feedAll { pack } fragments).1 later
        ((feedAll { pack } fragments).1.buffer ++ ([] : List Text).flatten)
        (feedAll { pack } fragments).1.flush.2 := by
      rw [List.flatten_nil, List.append_nil]
      exact emits
    obtain ⟨words, parted⟩ := words_segmentsOf clear.toCourse [] rest rfl
    rw [List.append_nil] at words parted
    rw [words, ← parted, words_pieces_iff]
    have remaining := emits.parted
    have cuts := clear.clean
    rw [← remaining] at cuts
    exact CleanCuts.append_iff.mpr ⟨(List.append_nil later.flatten).symm ▸ cuts, clean⟩

/-- A decimal number whose first fragment ends with the point is cut in two. -/
theorem number_cut :
    (∀ word ∈ words isSpace (["It costs 3.".toList, "14 euros.".toList] : List Text).flatten,
        word.length ≤ firstMax) ∧
      segmentsOf false ["It costs 3.".toList, "14 euros.".toList] =
        ["It costs 3.".toList, "14 euros.".toList] ∧
      (segmentsOf false ["It costs 3.".toList, "14 euros.".toList]).flatMap (words isSpace) ≠
        words isSpace (["It costs 3.".toList, "14 euros.".toList] : List Text).flatten := by
  decide +kernel

end Segmenter

end Assemblix.Realtime
