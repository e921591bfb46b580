import Mathlib.Data.List.MinMax
import Assemblix.Execution.SetVariableNode
import Assemblix.Library.WordRuns
import Assemblix.Realtime.CascadeBridge

/-
The segmenter of the Yandex voice: a streamed text is cut into synthesis segments.

A regular expression is modelled by the places of a text where its match ends, or begins, as a
test of what is before the place and what is after it. The matches of a pattern never overlap
here, so `search` is the first of the places and `finditer` all of them.
-/

namespace Assemblix.Realtime

open Library SetVariableNode

/-! ### Places of a text -/

def placesOf (test : Text → Text → Bool) (text : Text) : List Nat :=
  (List.range (text.length + 1)).filter (fun place => test (text.take place) (text.drop place))

def startsBlank (after : Text) : Bool :=
  after.head?.elim false isSpace

def isTerminator (char : Char) : Bool :=
  decide (char ∈ ['.', '!', '?', '…'])

def isPause (char : Char) : Bool :=
  decide (char ∈ [',', ';', ':'])

def isDash (char : Char) : Bool :=
  decide (char ∈ ['—', '–', '-'])

/-- `_SENTENCE_END`: after all the terminators that stand before a blank or the end of the
text, and after a line feed. -/
def endsSentence (before after : Text) : Bool :=
  match before.getLast? with
  | some char =>
      decide (char = '\n') || (isTerminator char && (startsBlank after || decide (after = [])))
  | none => false

/-- `_CLAUSE_END`. -/
def endsClause (before after : Text) : Bool :=
  startsBlank after &&
    match before.reverse with
    | char :: earlier => isPause char || (isDash char && startsBlank earlier)
    | [] => false

def sentenceEnds (text : Text) : List Nat := placesOf endsSentence text

def clauseEnds (text : Text) : List Nat := placesOf endsClause text

/-- The places of `_SPACE`, each before its blank. -/
def blanks (text : Text) : List Nat := placesOf (fun _ after => startsBlank after) text

def spaces (text : Text) : List Nat :=
  placesOf (fun _ after => decide (after.head? = some ' ')) text

/-! ### Cuts -/

def firstMax : Nat := 80

def firstMinClause : Nat := 20

def rampMax : Nat := 140

def chunkChars : Nat := 250

/-- `_space_cut`: the last space up to the limit, else the first from it on. -/
def spaceCut (text : Text) (limit : Nat) : Option Nat :=
  let within := ((spaces text).filter (fun place => decide (place ≤ limit))).getLast?
  let past := (spaces text).find? (fun place => decide (limit ≤ place))
  (within.filter (fun place => decide (0 < place))).or
    (past.filter (fun place => decide (0 < place)))

/-- `_long_cut`. -/
def longCut (text : Text) (limit : Nat) : Option Nat :=
  match ((clauseEnds text).filter (fun place => decide (place ≤ limit))).getLast? with
  | some place => some place
  | none => spaceCut text limit

/-- The places where `_split_long` may halve a stripped text. -/
def middleCuts (text : Text) : List Nat :=
  let clauses := (clauseEnds text).filter
    (fun place => decide (text.length ≤ 4 * place ∧ 4 * place ≤ 3 * text.length))
  if clauses = [] then (blanks text).filter (fun place => decide (0 < place)) else clauses

def middleCut (text : Text) : Option Nat :=
  (middleCuts text).argmin (fun place => ((2 * place : Int) - text.length).natAbs)

theorem mem_placesOf {test : Text → Text → Bool} {text : Text} {place : Nat} :
    place ∈ placesOf test text ↔
      place ≤ text.length ∧ test (text.take place) (text.drop place) = true := by
  unfold placesOf
  rw [List.mem_filter, List.mem_range, Nat.lt_succ_iff]

theorem inside_of_startsBlank {text : Text} {place : Nat}
    (begins : startsBlank (text.drop place) = true) : place < text.length := by
  by_contra atEnd
  rw [List.drop_eq_nil_of_le (Nat.le_of_not_lt atEnd)] at begins
  cases begins

theorem positive_of_endsClause {text : Text} {place : Nat} {after : Text}
    (ends : endsClause (text.take place) after = true) : 0 < place := by
  by_contra atStart
  rw [Nat.eq_zero_of_not_pos atStart, List.take_zero, endsClause] at ends
  simp at ends

theorem positive_of_endsSentence {text : Text} {place : Nat} {after : Text}
    (ends : endsSentence (text.take place) after = true) : 0 < place := by
  by_contra atStart
  rw [Nat.eq_zero_of_not_pos atStart, List.take_zero] at ends
  cases ends

theorem startsBlank_of_endsClause {before after : Text}
    (ends : endsClause before after = true) : startsBlank after = true :=
  (Bool.and_eq_true_iff.mp ends).1

theorem mem_middleCuts {text : Text} {cut : Nat} (member : cut ∈ middleCuts text) :
    0 < cut ∧ cut < text.length ∧ startsBlank (text.drop cut) = true := by
  unfold middleCuts at member
  dsimp only at member
  split at member
  · rw [List.mem_filter, decide_eq_true_eq] at member
    obtain ⟨place, positive⟩ := member
    have begins := (mem_placesOf.mp place).2
    exact ⟨positive, inside_of_startsBlank begins, begins⟩
  · have ends := (mem_placesOf.mp (List.mem_filter.mp member).1).2
    have begins := startsBlank_of_endsClause ends
    exact ⟨positive_of_endsClause ends, inside_of_startsBlank begins, begins⟩

theorem middleCut_inside {text : Text} {cut : Nat} (found : middleCut text = some cut) :
    0 < cut ∧ cut < text.length := by
  obtain ⟨positive, inside, _⟩ := mem_middleCuts (List.argmin_mem found)
  exact ⟨positive, inside⟩

theorem strip_length (text : Text) : (strip isSpace text).length ≤ text.length :=
  (List.rdropWhile_prefix _ _).length_le.trans (List.dropWhile_sublist _).length_le

/-- `_split_long`. -/
def splitLong (limit : Nat) (text : Text) : List Text :=
  if (strip isSpace text).length ≤ limit then
    if strip isSpace text = [] then [] else [strip isSpace text]
  else
    match _found : middleCut (strip isSpace text) with
    | none => [strip isSpace text]
    | some cut =>
        splitLong limit ((strip isSpace text).take cut) ++
          splitLong limit ((strip isSpace text).drop cut)
termination_by text.length
decreasing_by
  · have inside := middleCut_inside _found
    have length := strip_length text
    rw [List.length_take]
    omega
  · have inside := middleCut_inside _found
    have length := strip_length text
    rw [List.length_drop]
    omega

/-! ### The segmenter -/

structure Segmenter where
  pack : Bool
  buffer : Text := []
  pending : Text := []
  count : Nat := 0
  deriving DecidableEq

def limitAt (pack : Bool) (count : Nat) : Nat :=
  if count = 0 then firstMax
  else if pack = true ∧ 2 ≤ count then chunkChars else rampMax

/-- `_first_cut`. -/
def firstCut (text : Text) : Option Nat :=
  let sentence := (sentenceEnds text).head?
  let clause := (clauseEnds text).find? (fun place => decide (firstMinClause ≤ place))
  match (sentence.toList ++ clause.toList).min? with
  | some place =>
      if place ≤ firstMax then some place
      else if firstMax < text.length then spaceCut text firstMax else none
  | none => if firstMax < text.length then spaceCut text firstMax else none

namespace Segmenter

def nextCut (segmenter : Segmenter) (buffer : Text) (final : Bool) : Option Nat :=
  let limit := limitAt segmenter.pack segmenter.count
  let cut :=
    if segmenter.count = 0 then firstCut buffer
    else
      match (sentenceEnds buffer).head? with
      | some place => some place
      | none => if limit < buffer.length then longCut buffer limit else none
  match cut with
  | some place => some place
  | none => if final then some buffer.length else none

/-- `_next_units`. -/
def nextUnits (segmenter : Segmenter) (final : Bool) : Segmenter × List Text :=
  let buffer := segmenter.buffer.dropWhile isSpace
  if buffer = [] then ({ segmenter with buffer := [] }, [])
  else
    match segmenter.nextCut buffer final with
    | none => ({ segmenter with buffer }, [])
    | some cut =>
        ({ segmenter with buffer := buffer.drop cut },
          splitLong (limitAt segmenter.pack segmenter.count) (buffer.take cut))

def hold (segmenter : Segmenter) (unit : Text) : Segmenter × List Text :=
  let candidate := strip isSpace (segmenter.pending ++ ' ' :: unit)
  if segmenter.pending ≠ [] ∧ chunkChars < candidate.length then
    ({ segmenter with count := segmenter.count + 1, pending := unit }, [segmenter.pending])
  else ({ segmenter with pending := candidate }, [])

def settle (segmenter : Segmenter) : Segmenter × List Text :=
  if chunkChars ≤ segmenter.pending.length then
    ({ segmenter with count := segmenter.count + 1, pending := [] }, [segmenter.pending])
  else (segmenter, [])

/-- `_emit`. -/
def emit (segmenter : Segmenter) (unit : Text) : Segmenter × List Text :=
  if segmenter.pack = false ∨ segmenter.count < 2 then
    ({ segmenter with count := segmenter.count + 1 }, [unit])
  else
    let held := segmenter.hold unit
    let settled := held.1.settle
    (settled.1, held.2 ++ settled.2)

def emitAll (segmenter : Segmenter) : List Text → Segmenter × List Text
  | [] => (segmenter, [])
  | unit :: rest =>
      let emitted := segmenter.emit unit
      let more := emitted.1.emitAll rest
      (more.1, emitted.2 ++ more.2)

end Segmenter

/-! ### Where the next units end -/

structure IsCut (text : Text) (place : Nat) : Prop where
  positive : 0 < place
  within : place ≤ text.length
  clean : Clean isSpace (text.take place) (text.drop place)

theorem startsSolid_of_startsBlank {text : Text} (begins : startsBlank text = true) :
    startsSolid isSpace text = false := by
  unfold startsBlank at begins
  unfold startsSolid
  cases first : text.head? with
  | none => rfl
  | some char =>
      rw [first] at begins
      have blank : isSpace char = true := begins
      simp [blank]

namespace IsCut

variable {text : Text} {place limit : Nat}

theorem of_startsBlank (positive : 0 < place) (begins : startsBlank (text.drop place) = true) :
    IsCut text place where
  positive := positive
  within := (inside_of_startsBlank begins).le
  clean := Clean.of_starts (startsSolid_of_startsBlank begins)

theorem of_length (nonempty : text ≠ []) : IsCut text text.length where
  positive := List.length_pos_iff.mpr nonempty
  within := Nat.le_refl _
  clean := by
    rw [List.drop_length]
    exact Clean.nil_right _

theorem of_sentence (member : place ∈ sentenceEnds text) : IsCut text place := by
  obtain ⟨within, ends⟩ := mem_placesOf.mp member
  refine ⟨positive_of_endsSentence ends, within, ?_⟩
  unfold endsSentence at ends
  cases last : (text.take place).getLast? with
  | none =>
      rw [last] at ends
      cases ends
  | some char =>
      rw [last] at ends
      simp only [Bool.or_eq_true, Bool.and_eq_true, decide_eq_true_eq] at ends
      rcases ends with feed | ⟨_, begins | atEnd⟩
      · refine Clean.of_ends ?_
        have blank : isSpace '\n' = true := by decide
        simp [endsSolid, last, feed, blank]
      · exact Clean.of_starts (startsSolid_of_startsBlank begins)
      · rw [atEnd]
        exact Clean.nil_right _

end IsCut

def Stop (text : Text) (place : Nat) : Prop :=
  place ∈ sentenceEnds text ∨ 0 < place ∧ startsBlank (text.drop place) = true

namespace Stop

variable {text : Text} {place limit : Nat}

theorem isCut (stop : Stop text place) : IsCut text place := by
  rcases stop with sentence | ⟨positive, begins⟩
  · exact IsCut.of_sentence sentence
  · exact IsCut.of_startsBlank positive begins

theorem of_clause (member : place ∈ clauseEnds text) : Stop text place := by
  have ends := (mem_placesOf.mp member).2
  exact .inr ⟨positive_of_endsClause ends, startsBlank_of_endsClause ends⟩

theorem of_space (positive : 0 < place) (member : place ∈ spaces text) : Stop text place := by
  have begins := (mem_placesOf.mp member).2
  rw [decide_eq_true_eq] at begins
  refine .inr ⟨positive, ?_⟩
  rw [startsBlank, begins]
  decide

theorem of_spaceCut (found : spaceCut text limit = some place) : Stop text place := by
  unfold spaceCut at found
  dsimp only at found
  rcases Option.or_eq_some_iff.mp found with within | ⟨_, past⟩
  · obtain ⟨last, positive⟩ := Option.filter_eq_some_iff.mp within
    have member := List.mem_of_getLast? last
    exact of_space (of_decide_eq_true positive) (List.mem_filter.mp member).1
  · obtain ⟨first, positive⟩ := Option.filter_eq_some_iff.mp past
    exact of_space (of_decide_eq_true positive) (List.mem_of_find?_eq_some first)

theorem of_longCut (found : longCut text limit = some place) : Stop text place := by
  unfold longCut at found
  split at found
  · rename_i last
    cases found
    exact of_clause (List.mem_filter.mp (List.mem_of_getLast? last)).1
  · exact of_spaceCut found

theorem of_firstCut (found : firstCut text = some place) : Stop text place := by
  have late : ∀ condition : Prop, [Decidable condition] →
      (if condition then spaceCut text firstMax else none) = some place → Stop text place := by
    intro condition _ taken
    split at taken
    · exact of_spaceCut taken
    · cases taken
  unfold firstCut at found
  dsimp only at found
  split at found
  · rename_i least
    split at found
    · cases found
      rcases List.mem_append.mp (List.min?_mem least) with sentence | clause
      · exact .inl (List.mem_of_head? (Option.mem_toList.mp sentence))
      · exact of_clause (List.mem_of_find?_eq_some (Option.mem_toList.mp clause))
    · exact late _ found
  · exact late _ found

end Stop

namespace Segmenter

variable {segmenter : Segmenter} {buffer : Text} {cut : Nat} {final : Bool}

theorem stop_of_nextCut (found : segmenter.nextCut buffer final = some cut) :
    Stop buffer cut ∨ final = true ∧ cut = buffer.length := by
  unfold nextCut at found
  dsimp only at found
  split at found
  · rename_i taken
    cases found
    split at taken
    · exact .inl (Stop.of_firstCut taken)
    · split at taken
      · rename_i first
        cases taken
        exact .inl (.inl (List.mem_of_head? first))
      · split at taken
        · exact .inl (Stop.of_longCut taken)
        · cases taken
  · split at found
    · rename_i atEnd
      cases found
      exact .inr ⟨atEnd, rfl⟩
    · cases found

theorem isCut_of_nextCut (nonempty : buffer ≠ [])
    (found : segmenter.nextCut buffer final = some cut) : IsCut buffer cut := by
  rcases stop_of_nextCut found with stop | ⟨_, rfl⟩
  · exact stop.isCut
  · exact IsCut.of_length nonempty

theorem dropWhile_length (text : Text) : (text.dropWhile isSpace).length ≤ text.length :=
  (List.dropWhile_sublist _).length_le

theorem nextUnits_shrinks (segmenter : Segmenter) (final : Bool)
    (cuts : (segmenter.nextUnits final).2 ≠ []) :
    (segmenter.nextUnits final).1.buffer.length < segmenter.buffer.length := by
  have length := dropWhile_length segmenter.buffer
  unfold nextUnits at cuts ⊢
  dsimp only at cuts ⊢
  split
  · rename_i empty
    rw [if_pos empty] at cuts
    exact absurd rfl cuts
  · rename_i nonempty
    rw [if_neg nonempty] at cuts
    cases found : segmenter.nextCut (segmenter.buffer.dropWhile isSpace) final with
    | none =>
        rw [found] at cuts
        exact absurd rfl cuts
    | some cut =>
        have isCut := isCut_of_nextCut nonempty found
        have positive := isCut.positive
        have within := isCut.within
        dsimp only
        rw [List.length_drop]
        omega

theorem emit_buffer (segmenter : Segmenter) (unit : Text) :
    (segmenter.emit unit).1.buffer = segmenter.buffer := by
  unfold emit hold settle
  dsimp only
  split
  · rfl
  · split <;> split <;> rfl

theorem emitAll_buffer (units : List Text) :
    ∀ segmenter : Segmenter, (segmenter.emitAll units).1.buffer = segmenter.buffer := by
  induction units with
  | nil => exact fun _ => rfl
  | cons unit rest ih =>
      intro segmenter
      exact (ih _).trans (emit_buffer segmenter unit)

/-- `_drain`. -/
def drain (segmenter : Segmenter) (final : Bool) : Segmenter × List Text :=
  if (segmenter.nextUnits final).2 = [] then ((segmenter.nextUnits final).1, [])
  else
    let emitted := (segmenter.nextUnits final).1.emitAll (segmenter.nextUnits final).2
    let more := emitted.1.drain final
    (more.1, emitted.2 ++ more.2)
termination_by segmenter.buffer.length
decreasing_by
  rename_i cuts
  rw [emitAll_buffer]
  exact nextUnits_shrinks segmenter final cuts

def feed (segmenter : Segmenter) (text : Text) : Segmenter × List Text :=
  { segmenter with buffer := segmenter.buffer ++ text }.drain false

def flush (segmenter : Segmenter) : Segmenter × List Text :=
  let drained := segmenter.drain true
  if drained.1.pending = [] then drained
  else
    ({ drained.1 with pending := [], count := drained.1.count + 1 },
      drained.2 ++ [drained.1.pending])

def feedAll (segmenter : Segmenter) : List Text → Segmenter × List Text
  | [] => (segmenter, [])
  | text :: rest =>
      let fed := segmenter.feed text
      let more := fed.1.feedAll rest
      (more.1, fed.2 ++ more.2)

def segmentsOf (pack : Bool) (fragments : List Text) : List Text :=
  let fed := feedAll { pack } fragments
  fed.2 ++ fed.1.flush.2

end Segmenter

/-! ### Units -/

def Fits (limit : Nat) (text : Text) : Prop :=
  text.length ≤ limit ∨ ∀ char ∈ text, isSpace char = false

theorem Fits.mono {limit more : Nat} {text : Text} (fits : Fits limit text)
    (wider : limit ≤ more) : Fits more text :=
  fits.imp_left (fun within => within.trans wider)

theorem limitAt_mono (pack : Bool) {count later : Nat} (after : count ≤ later) :
    limitAt pack count ≤ limitAt pack later := by
  unfold limitAt firstMax chunkChars rampMax
  cases pack with
  | false =>
      simp only [Bool.false_eq_true, false_and, if_false]
      split_ifs <;> omega
  | true =>
      simp only [true_and]
      split_ifs <;> omega

theorem unbroken_of_middleCut {text : Text} (trimmed : Trimmed isSpace text)
    (none : middleCut text = none) : ∀ char ∈ text, isSpace char = false := by
  have noCuts := List.argmin_eq_none.mp none
  unfold middleCuts at noCuts
  dsimp only at noCuts
  split at noCuts
  · intro char member
    by_contra blank
    obtain ⟨place, within, here⟩ := List.getElem_of_mem member
    have dropped : (text.drop place).head? = some char := by
      rw [List.head?_drop, List.getElem?_eq_getElem within, here]
    have positive : 0 < place := by
      by_contra atStart
      rw [Nat.eq_zero_of_not_pos atStart, List.drop_zero] at dropped
      exact blank (trimmed.first char dropped)
    have member : place ∈ (blanks text).filter (fun place => decide (0 < place)) := by
      refine List.mem_filter.mpr ⟨mem_placesOf.mpr ⟨within.le, ?_⟩, decide_eq_true positive⟩
      rw [startsBlank, dropped]
      simpa using blank
    rw [noCuts] at member
    cases member
  · rename_i some
    exact absurd noCuts some

theorem splitLong_units (limit : Nat) (text : Text) :
    ∀ unit ∈ splitLong limit text, Trimmed isSpace unit ∧ Fits limit unit := by
  fun_induction splitLong limit text with
  | case1 text within empty => exact fun _ member => nomatch member
  | case2 text within nonempty =>
      intro unit member
      rw [List.mem_singleton.mp member]
      exact ⟨.strip nonempty, .inl within⟩
  | case3 text long none =>
      intro unit member
      have nonempty : strip isSpace text ≠ [] := by
        intro empty
        rw [empty] at long
        exact long (Nat.zero_le _)
      rw [List.mem_singleton.mp member]
      exact ⟨.strip nonempty, .inr (unbroken_of_middleCut (.strip nonempty) none)⟩
  | case4 text long cut found first second =>
      intro unit member
      exact (List.mem_append.mp member).elim (first unit) (second unit)

theorem words_splitLong (limit : Nat) (text : Text) :
    (splitLong limit text).flatMap (words isSpace) = words isSpace text := by
  fun_induction splitLong limit text with
  | case1 text within empty => rw [← words_strip text, empty, words, List.flatMap_nil]
  | case2 text within nonempty => rw [List.flatMap_singleton, words_strip]
  | case3 text long none => rw [List.flatMap_singleton, words_strip]
  | case4 text long cut found first second =>
      have begins := (mem_middleCuts (List.argmin_mem found)).2.2
      have clean : Clean isSpace ((strip isSpace text).take cut) ((strip isSpace text).drop cut) :=
        Clean.of_starts (startsSolid_of_startsBlank begins)
      rw [List.flatMap_append, first, second, ← words_append clean, List.take_append_drop,
        words_strip]

theorem startsSolid_of_trimmed {text : Text} (trimmed : Trimmed isSpace text) :
    startsSolid isSpace text = true := by
  obtain ⟨char, rest, rfl⟩ := List.exists_cons_of_ne_nil trimmed.nonempty
  have first : isSpace char = false := trimmed.first char rfl
  simp [startsSolid, first]

theorem words_candidate (pending unit : Text) :
    words isSpace (strip isSpace (pending ++ ' ' :: unit)) =
      words isSpace pending ++ words isSpace unit := by
  have space : isSpace ' ' = true := by decide
  have starts : startsSolid isSpace (' ' :: unit) = false := by simp [startsSolid, space]
  rw [words_strip, words_append (Clean.of_starts starts), words, if_pos space]

theorem candidate_ne_nil (pending : Text) {unit : Text} (trimmed : Trimmed isSpace unit) :
    strip isSpace (pending ++ ' ' :: unit) ≠ [] := by
  intro empty
  have none := words_candidate pending unit
  rw [empty, words] at none
  exact words_ne_nil (startsSolid_of_trimmed trimmed) (List.append_eq_nil_iff.mp none.symm).2

theorem candidate_nil {unit : Text} (trimmed : Trimmed isSpace unit) :
    strip isSpace ([] ++ ' ' :: unit) = unit := by
  have space : isSpace ' ' = true := by decide
  rw [List.nil_append, strip, List.dropWhile_cons_of_pos space]
  exact trimmed.strip_eq

/-! ### What the segmenter emits -/

def IsSegment (pack : Bool) (count : Nat) (segment : Text) : Prop :=
  Trimmed isSpace segment ∧ Fits (limitAt pack count) segment

def AreSegments (pack : Bool) (count : Nat) (segments : List Text) : Prop :=
  ∀ index segment, segments[index]? = some segment → IsSegment pack (count + index) segment

namespace AreSegments

variable {pack : Bool} {count : Nat} {segments more : List Text} {segment : Text}

theorem nil : AreSegments pack count [] := fun _ _ listed => nomatch listed

theorem singleton (isSegment : IsSegment pack count segment) :
    AreSegments pack count [segment] := by
  intro index other listed
  cases index with
  | zero =>
      cases listed
      exact isSegment
  | succ index => cases listed

theorem append (first : AreSegments pack count segments)
    (second : AreSegments pack (count + segments.length) more) :
    AreSegments pack count (segments ++ more) := by
  intro index segment listed
  by_cases earlier : index < segments.length
  · rw [List.getElem?_append_left earlier] at listed
    exact first index segment listed
  · rw [List.getElem?_append_right (Nat.le_of_not_lt earlier)] at listed
    have number : count + segments.length + (index - segments.length) = count + index := by omega
    exact number ▸ second _ segment listed

end AreSegments

namespace Segmenter

structure Sound (segmenter : Segmenter) : Prop where
  trimmed : segmenter.pending ≠ [] → Trimmed isSpace segmenter.pending
  room : segmenter.pending.length < chunkChars
  packs : segmenter.pending ≠ [] → segmenter.pack = true ∧ 2 ≤ segmenter.count

structure Moved (before : Segmenter) (pieces : List Text) (after : Segmenter)
    (out : List Text) : Prop where
  pack : after.pack = before.pack
  count : after.count = before.count + out.length
  segments : AreSegments before.pack before.count out
  words : out.flatMap (words isSpace) ++ words isSpace after.pending =
    words isSpace before.pending ++ pieces.flatMap (words isSpace)

structure Emitted (before : Segmenter) (pieces : List Text) (after : Segmenter)
    (out : List Text) : Prop extends Moved before pieces after out where
  sound : after.Sound

namespace Emitted

variable {before middle after : Segmenter} {pieces later : List Text} {out more : List Text}

theorem trans (first : Emitted before pieces middle out) (second : Emitted middle later after more) :
    Emitted before (pieces ++ later) after (out ++ more) where
  sound := second.sound
  pack := second.pack.trans first.pack
  count := by rw [second.count, first.count, List.length_append, Nat.add_assoc]
  segments := by
    refine first.segments.append ?_
    rw [← first.pack, ← first.count]
    exact second.segments
  words := by
    rw [List.flatMap_append, List.flatMap_append, List.append_assoc, second.words,
      ← List.append_assoc, first.words, List.append_assoc]

theorem of_buffer (emitted : Emitted before pieces after out) (text rest : Text) :
    Emitted { before with buffer := text } pieces { after with buffer := rest } out where
  sound := { trimmed := emitted.sound.trimmed, room := emitted.sound.room
             packs := emitted.sound.packs }
  pack := emitted.pack
  count := emitted.count
  segments := emitted.segments
  words := emitted.words

theorem refl {segmenter : Segmenter} (sound : segmenter.Sound) :
    Emitted segmenter [] segmenter [] where
  sound := sound
  pack := rfl
  count := rfl
  segments := .nil
  words := (List.append_nil _).symm

end Emitted

variable {segmenter : Segmenter} {unit : Text}

theorem emitted_settle {held : Segmenter} {pieces out : List Text}
    (moved : Moved segmenter pieces held out) (pack : held.pack = true) (late : 2 ≤ held.count)
    (isSegment : IsSegment true held.count held.pending) :
    Emitted segmenter pieces held.settle.1 (out ++ held.settle.2) := by
  unfold settle
  split
  · refine
      { pack := moved.pack, count := ?_, segments := moved.segments.append ?_, words := ?_
        sound := ?_ }
    · rw [List.length_append, ← Nat.add_assoc, ← moved.count]
      rfl
    · rw [← moved.count, ← moved.pack, pack]
      exact .singleton isSegment
    · rw [List.flatMap_append, List.flatMap_singleton, ← moved.words]
      exact List.append_nil _
    · exact ⟨fun held => absurd rfl held, show 0 < 250 by decide, fun held => absurd rfl held⟩
  · rename_i room
    rw [List.append_nil]
    exact
      { moved with
        sound :=
          { trimmed := fun _ => isSegment.1, room := Nat.lt_of_not_le room
            packs := fun _ => ⟨pack, late⟩ } }

theorem limitAt_late {count : Nat} (late : 2 ≤ count) : limitAt true count = chunkChars := by
  unfold limitAt
  rw [if_neg (by omega), if_pos ⟨rfl, late⟩]

theorem emitted_emit (sound : segmenter.Sound) (trimmed : Trimmed isSpace unit)
    (fits : Fits (limitAt segmenter.pack segmenter.count) unit) :
    Emitted segmenter [unit] (segmenter.emit unit).1 (segmenter.emit unit).2 := by
  unfold emit
  split
  · rename_i direct
    have none : segmenter.pending = [] := by
      by_contra held
      obtain ⟨pack, late⟩ := sound.packs held
      rcases direct with single | early
      · exact absurd (pack.symm.trans single) (by decide)
      · omega
    refine
      { pack := rfl, count := rfl, segments := .singleton ⟨trimmed, fits⟩, words := ?_
        sound := ⟨sound.trimmed, sound.room, fun held => absurd none held⟩ }
    dsimp only
    rw [none]
    simp [words]
  · rename_i packed
    have pack : segmenter.pack = true := by
      by_contra single
      exact packed (.inl (eq_false_of_ne_true single))
    have late : 2 ≤ segmenter.count := by
      by_contra early
      exact packed (.inr (by omega))
    rw [pack, limitAt_late late] at fits
    unfold hold
    dsimp only
    split
    · rename_i both
      have pending := sound.trimmed both.1
      refine emitted_settle
        { pack := rfl, count := rfl, segments := .singleton ?_, words := ?_ } pack
        (late.trans (Nat.le_succ _)) ⟨trimmed, ?_⟩
      · rw [pack]
        exact ⟨pending, .inl (limitAt_late late ▸ sound.room.le)⟩
      · rw [List.flatMap_singleton, List.flatMap_singleton]
      · rw [limitAt_late (late.trans (Nat.le_succ _))]
        exact fits
    · rename_i apart
      refine emitted_settle
        { pack := rfl, count := rfl, segments := .nil, words := ?_ } pack late
        ⟨.strip (candidate_ne_nil _ trimmed), ?_⟩
      · rw [List.flatMap_singleton]
        exact words_candidate _ _
      · rw [limitAt_late late]
        by_cases empty : segmenter.pending = []
        · rw [empty, candidate_nil trimmed]
          exact fits
        · exact .inl (Nat.le_of_not_lt (fun long => apart ⟨empty, long⟩))

theorem emitted_emitAll (units : List Text) :
    ∀ segmenter : Segmenter, segmenter.Sound → ∀ limit,
      limit ≤ limitAt segmenter.pack segmenter.count →
      (∀ unit ∈ units, Trimmed isSpace unit ∧ Fits limit unit) →
      Emitted segmenter units (segmenter.emitAll units).1 (segmenter.emitAll units).2 := by
  induction units with
  | nil => exact fun segmenter sound _ _ _ => .refl sound
  | cons unit rest ih =>
      intro segmenter sound limit narrow each
      obtain ⟨trimmed, fits⟩ := each unit List.mem_cons_self
      have first := emitted_emit sound trimmed (fits.mono narrow)
      have later : limit ≤ limitAt (segmenter.emit unit).1.pack (segmenter.emit unit).1.count := by
        refine narrow.trans ?_
        rw [first.pack, first.count]
        exact limitAt_mono _ (Nat.le_add_right _ _)
      exact first.trans (ih _ first.sound limit later
        (fun other member => each other (List.mem_cons_of_mem unit member)))

/-! ### Draining the buffer -/

structure Drained (before : Segmenter) (pieces : List Text) (after : Segmenter)
    (out : List Text) : Prop extends Emitted before pieces after out where
  parted : pieces.flatten ++ after.buffer = before.buffer
  clean : CleanCuts isSpace pieces after.buffer

theorem Drained.trans {before middle after : Segmenter} {pieces later out more : List Text}
    (first : Drained before pieces middle out) (second : Drained middle later after more) :
    Drained before (pieces ++ later) after (out ++ more) where
  toEmitted := first.toEmitted.trans second.toEmitted
  parted := by rw [List.flatten_append, List.append_assoc, second.parted, first.parted]
  clean := CleanCuts.append_iff.mpr ⟨second.parted ▸ first.clean, second.clean⟩

theorem blank_takeWhile (text : Text) : ∀ char ∈ text.takeWhile isSpace, isSpace char = true :=
  fun _ member => List.mem_takeWhile_imp member

theorem clean_takeWhile (text after : Text) : Clean isSpace (text.takeWhile isSpace) after := by
  refine Clean.of_ends ?_
  unfold endsSolid
  cases last : (text.takeWhile isSpace).getLast? with
  | none => rfl
  | some char =>
      have blank := blank_takeWhile text char (List.mem_of_getLast? last)
      simp [blank]

theorem drained_blanks (sound : segmenter.Sound) :
    Drained segmenter [segmenter.buffer.takeWhile isSpace]
      { segmenter with buffer := segmenter.buffer.dropWhile isSpace } [] where
  pack := rfl
  count := rfl
  segments := .nil
  words := by
    rw [List.flatMap_singleton, words_of_blanks (blank_takeWhile _), List.append_nil]
    rfl
  sound := { sound with }
  parted := by
    rw [List.flatten_singleton]
    exact List.takeWhile_append_dropWhile
  clean := ⟨clean_takeWhile _ _, trivial⟩

theorem drained_cut (sound : segmenter.Sound) {cut : Nat} (isCut : IsCut segmenter.buffer cut) :
    Drained segmenter [segmenter.buffer.take cut]
      (emitAll { segmenter with buffer := segmenter.buffer.drop cut }
        (splitLong (limitAt segmenter.pack segmenter.count) (segmenter.buffer.take cut))).1
      (emitAll { segmenter with buffer := segmenter.buffer.drop cut }
        (splitLong (limitAt segmenter.pack segmenter.count) (segmenter.buffer.take cut))).2 := by
  have emitted := emitted_emitAll
    (splitLong (limitAt segmenter.pack segmenter.count) (segmenter.buffer.take cut))
    { segmenter with buffer := segmenter.buffer.drop cut }
    { sound with } _ (Nat.le_refl _) (splitLong_units _ _)
  refine
    { pack := emitted.pack, count := emitted.count, segments := emitted.segments, words := ?_
      sound := emitted.sound, parted := ?_, clean := ?_ }
  · rw [emitted.words, words_splitLong, List.flatMap_singleton]
  · rw [emitAll_buffer, List.flatten_singleton]
    exact List.take_append_drop _ _
  · rw [emitAll_buffer]
    exact ⟨isCut.clean, trivial⟩

/-- One round of `_drain`. -/
theorem drained_round (sound : segmenter.Sound) (final : Bool) :
    ∃ pieces, Drained segmenter pieces
      ((segmenter.nextUnits final).1.emitAll (segmenter.nextUnits final).2).1
      ((segmenter.nextUnits final).1.emitAll (segmenter.nextUnits final).2).2 := by
  have blanks := drained_blanks sound
  unfold nextUnits
  dsimp only
  split
  · rename_i empty
    rw [empty] at blanks
    exact ⟨_, blanks⟩
  · rename_i nonempty
    split
    · exact ⟨_, blanks⟩
    · rename_i found
      exact ⟨_, blanks.trans (drained_cut blanks.sound (isCut_of_nextCut nonempty found))⟩

theorem drained_drain (segmenter : Segmenter) (final : Bool) :
    segmenter.Sound →
      ∃ pieces, Drained segmenter pieces (segmenter.drain final).1 (segmenter.drain final).2 := by
  fun_induction drain segmenter final with
  | case1 segmenter none =>
      intro sound
      have round := drained_round sound final
      rw [none] at round
      exact round
  | case2 segmenter some emitted more ih =>
      intro sound
      obtain ⟨pieces, first⟩ := drained_round sound final
      obtain ⟨later, second⟩ := ih first.sound
      exact ⟨pieces ++ later, first.trans second⟩

theorem startsSolid_dropWhile {text : Text} (nonempty : text.dropWhile isSpace ≠ []) :
    startsSolid isSpace (text.dropWhile isSpace) = true := by
  have solid := List.head?_dropWhile_not isSpace text
  unfold startsSolid
  cases first : (text.dropWhile isSpace).head? with
  | none => exact absurd (List.head?_eq_none_iff.mp first) nonempty
  | some char =>
      rw [first] at solid
      have nonblank : isSpace char = false := by simpa using solid
      simp [nonblank]

theorem splitLong_ne_nil {limit cut : Nat} {text : Text} (isCut : IsCut text cut)
    (starts : startsSolid isSpace text = true) : splitLong limit (text.take cut) ≠ [] := by
  intro none
  have kept := words_splitLong limit (text.take cut)
  rw [none, List.flatMap_nil] at kept
  have taken : text.take cut ≠ [] := by
    intro empty
    have length := congrArg List.length empty
    rw [List.length_take, List.length_nil] at length
    have positive := isCut.positive
    have within := isCut.within
    omega
  refine words_ne_nil ?_ kept.symm
  rw [← startsSolid_append taken, List.take_append_drop]
  exact starts

theorem buffer_of_no_units {final : Bool} (noUnits : (segmenter.nextUnits final).2 = []) :
    (segmenter.nextUnits final).1.buffer = segmenter.buffer.dropWhile isSpace ∧
      (segmenter.buffer.dropWhile isSpace = [] ∨
        segmenter.nextCut (segmenter.buffer.dropWhile isSpace) final = none) := by
  unfold nextUnits at noUnits ⊢
  dsimp only at noUnits ⊢
  split
  · rename_i empty
    exact ⟨empty.symm, .inl empty⟩
  · rename_i nonempty
    rw [if_neg nonempty] at noUnits
    cases found : segmenter.nextCut (segmenter.buffer.dropWhile isSpace) final with
    | none => exact ⟨rfl, .inr rfl⟩
    | some cut =>
        rw [found] at noUnits
        exact absurd noUnits (splitLong_ne_nil (isCut_of_nextCut nonempty found)
          (startsSolid_dropWhile nonempty))

theorem nextCut_final (segmenter : Segmenter) (buffer : Text) :
    segmenter.nextCut buffer true ≠ none := by
  unfold nextCut
  dsimp only
  split
  · exact Option.some_ne_none _
  · exact Option.some_ne_none _

theorem buffer_of_final (segmenter : Segmenter) : (segmenter.drain true).1.buffer = [] := by
  generalize isFinal : true = final
  fun_induction drain segmenter final with
  | case1 segmenter none =>
      obtain ⟨left, empty | noCut⟩ := buffer_of_no_units none
      · exact left.trans empty
      · exact absurd noCut (isFinal ▸ nextCut_final _ _)
  | case2 segmenter some emitted more ih => exact ih

/-! ### A text in fragments -/

theorem drained_feed (sound : segmenter.Sound) (text : Text) :
    ∃ pieces, Drained { segmenter with buffer := segmenter.buffer ++ text } pieces
      (segmenter.feed text).1 (segmenter.feed text).2 :=
  drained_drain _ false { sound with }

structure Emits (before : Segmenter) (pieces : List Text) (text : Text) (out : List Text) :
    Prop where
  segments : AreSegments before.pack before.count out
  parted : pieces.flatten = text
  words : out.flatMap (words isSpace) =
    words isSpace before.pending ++ pieces.flatMap (words isSpace)

theorem emits_flush (sound : segmenter.Sound) :
    ∃ pieces, Emits segmenter pieces segmenter.buffer segmenter.flush.2 ∧
      CleanCuts isSpace pieces [] := by
  obtain ⟨pieces, drained⟩ := drained_drain segmenter true sound
  have empty := buffer_of_final segmenter
  have parted := drained.parted
  have clean := drained.clean
  rw [empty] at clean
  rw [empty, List.append_nil] at parted
  refine ⟨pieces, ?_, clean⟩
  unfold flush
  dsimp only
  split
  · rename_i none
    have words := drained.words
    rw [none] at words
    exact { segments := drained.segments, parted := parted
            words := (List.append_nil _).symm.trans words }
  · rename_i held
    obtain ⟨pack, late⟩ := drained.sound.packs held
    refine { segments := drained.segments.append (.singleton ?_), parted := parted, words := ?_ }
    · rw [← drained.count, ← drained.pack, pack]
      exact ⟨drained.sound.trimmed held, .inl (limitAt_late late ▸ drained.sound.room.le)⟩
    · rw [List.flatMap_append, List.flatMap_singleton]
      exact drained.words

theorem emits_feedAll (fragments : List Text) :
    ∀ segmenter : Segmenter, segmenter.Sound →
      ∃ pieces, Emits segmenter pieces (segmenter.buffer ++ fragments.flatten)
        ((segmenter.feedAll fragments).2 ++ (segmenter.feedAll fragments).1.flush.2) := by
  induction fragments with
  | nil =>
      intro segmenter sound
      obtain ⟨pieces, emits, _⟩ := emits_flush sound
      rw [List.flatten_nil, List.append_nil]
      exact ⟨pieces, emits⟩
  | cons text rest ih =>
      intro segmenter sound
      obtain ⟨pieces, drained⟩ := drained_feed sound text
      obtain ⟨later, emits⟩ := ih _ drained.sound
      refine ⟨pieces ++ later, ?_⟩
      rw [feedAll]
      dsimp only
      rw [List.append_assoc]
      refine { segments := drained.segments.append ?_, parted := ?_, words := ?_ }
      · have segments := emits.segments
        rwa [drained.pack, drained.count] at segments
      · rw [List.flatten_append, emits.parted, ← List.append_assoc, drained.parted,
          List.flatten_cons, List.append_assoc]
      · rw [List.flatMap_append, emits.words, List.flatMap_append, ← List.append_assoc,
          drained.words, List.append_assoc]

theorem sound_fresh (pack : Bool) : Sound { pack } :=
  ⟨fun held => absurd rfl held, show 0 < 250 by decide, fun held => absurd rfl held⟩

/-- However the text is cut into fragments: what comes out has the letters of the text in their
order, and every segment is stripped and within its limit, or one word. -/
theorem segments_conserve (pack : Bool) (fragments : List Text) :
    (∀ index segment, (segmentsOf pack fragments)[index]? = some segment →
        Trimmed isSpace segment ∧
          (segment.length ≤ limitAt pack index ∨ ∀ char ∈ segment, isSpace char = false)) ∧
      solid isSpace (segmentsOf pack fragments).flatten = solid isSpace fragments.flatten := by
  obtain ⟨pieces, emits⟩ := emits_feedAll fragments { pack } (sound_fresh pack)
  refine ⟨fun index segment listed => ?_, ?_⟩
  · have isSegment := emits.segments index segment listed
    rwa [Nat.zero_add] at isSegment
  · have words : (segmentsOf pack fragments).flatMap (words isSpace) =
        pieces.flatMap (Library.words isSpace) := emits.words
    have parted : pieces.flatten = fragments.flatten := emits.parted
    rw [← flatten_flatMap_words, words, flatten_flatMap_words, parted]

end Segmenter

end Assemblix.Realtime
