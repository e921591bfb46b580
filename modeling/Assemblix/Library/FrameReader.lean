import Mathlib.Data.List.Basic
import Mathlib.Tactic.Common

/-
A reader of a byte stream in frames of one size.

What does not fill a frame is kept for later, and a frame may block the reader until
something outside it answers. However the stream is cut and whenever the answers come,
the frames and their answers are those of the stream itself.
-/

namespace Library

structure FrameReader (S A O : Type) where
  size : Nat
  size_pos : 0 < size
  process : S → List A → S × List O
  blocked : S → Bool
  release : S → S × List O
  released : ∀ state, blocked (release state).1 = false

namespace FrameReader

variable {S A O : Type} (reader : FrameReader S A O)

def settled (state : S) : S :=
  if reader.blocked state then (reader.release state).1 else state

/-- What the answer it waits for will give. -/
def awaited (state : S) : List O :=
  if reader.blocked state then (reader.release state).2 else []

def whole (state : S) (frame : List A) : S × List O :=
  let processed := reader.process state frame
  (reader.settled processed.1, processed.2 ++ reader.awaited processed.1)

/-- What each of the first `count` frames of a stream gives. -/
def trace (state : S) (stream : List A) : Nat → List (List O)
  | 0 => []
  | count + 1 =>
      let next := reader.whole state (stream.take reader.size)
      next.2 :: trace next.1 (stream.drop reader.size) count

/-- The state after the first `count` frames of a stream. -/
def after (state : S) (stream : List A) : Nat → S
  | 0 => state
  | count + 1 =>
      after (reader.whole state (stream.take reader.size)).1 (stream.drop reader.size) count

theorem unblocked_settled (state : S) : reader.blocked (reader.settled state) = false := by
  unfold settled
  by_cases waits : reader.blocked state
  · rw [if_pos waits, reader.released]
  · rw [if_neg waits]
    exact Bool.eq_false_iff.mpr waits

theorem settled_of_unblocked {state : S} (free : reader.blocked state = false) :
    reader.settled state = state := by
  rw [settled, free]
  rfl

theorem awaited_of_unblocked {state : S} (free : reader.blocked state = false) :
    reader.awaited state = [] := by
  rw [awaited, free]
  rfl

theorem take_trace (state : S) (stream : List A) {fewer count : Nat} (fits : fewer ≤ count) :
    (reader.trace state stream count).take fewer = reader.trace state stream fewer := by
  induction count generalizing state stream fewer with
  | zero =>
      rw [Nat.le_zero.mp fits]
      rfl
  | succ count ih =>
      cases fewer with
      | zero => rfl
      | succ fewer =>
          rw [trace, trace, List.take_succ_cons, ih _ _ (Nat.le_of_succ_le_succ fits)]

theorem trace_append (state : S) (stream more : List A) (count : Nat)
    (arrived : count * reader.size ≤ stream.length) :
    reader.trace state (stream ++ more) count = reader.trace state stream count := by
  induction count generalizing state stream with
  | zero => rfl
  | succ count ih =>
      rw [Nat.succ_mul] at arrived
      have first : reader.size ≤ stream.length := by omega
      have rest : count * reader.size ≤ (stream.drop reader.size).length := by
        rw [List.length_drop]
        omega
      rw [trace, trace, List.take_append_of_le_length first, List.drop_append_of_le_length first,
        ih _ _ rest]

theorem after_append (state : S) (stream more : List A) (count : Nat)
    (arrived : count * reader.size ≤ stream.length) :
    reader.after state (stream ++ more) count = reader.after state stream count := by
  induction count generalizing state stream with
  | zero => rfl
  | succ count ih =>
      rw [Nat.succ_mul] at arrived
      have first : reader.size ≤ stream.length := by omega
      have rest : count * reader.size ≤ (stream.drop reader.size).length := by
        rw [List.length_drop]
        omega
      rw [after, after, List.take_append_of_le_length first, List.drop_append_of_le_length first,
        ih _ _ rest]

/-- One frame more than `count`, at the end. -/
theorem trace_succ (state : S) (stream : List A) (count : Nat) :
    reader.trace state stream (count + 1) =
      reader.trace state stream count ++
        [(reader.whole (reader.after state stream count)
          ((stream.drop (count * reader.size)).take reader.size)).2] := by
  induction count generalizing state stream with
  | zero => simp only [trace, after, Nat.zero_mul, List.drop_zero, List.nil_append]
  | succ count ih =>
      rw [trace, ih, trace, List.cons_append, after, List.drop_drop, Nat.succ_mul,
        Nat.add_comm reader.size]

theorem after_succ (state : S) (stream : List A) (count : Nat) :
    reader.after state stream (count + 1) =
      (reader.whole (reader.after state stream count)
        ((stream.drop (count * reader.size)).take reader.size)).1 := by
  induction count generalizing state stream with
  | zero => simp only [after, Nat.zero_mul, List.drop_zero]
  | succ count ih =>
      rw [after, ih, after, List.drop_drop, Nat.succ_mul, Nat.add_comm reader.size]

/-- A reader that has been given `stream`, holds `buffer` back and has given `emitted`: it has
read `count` frames, and is where the stream itself leads but for an answer it waits for. -/
structure Follows (start : S) (stream : List A) (emitted : List O) (state : S)
    (buffer : List A) (count : Nat) : Prop where
  read : stream.drop (count * reader.size) = buffer
  arrived : count * reader.size ≤ stream.length
  reached : reader.settled state = reader.after start stream count
  given : emitted ++ reader.awaited state = (reader.trace start stream count).flatten

namespace Follows

variable {reader} {start state : S} {stream buffer : List A} {emitted : List O} {count : Nat}

theorem begun (start : S) (free : reader.blocked start = false) :
    reader.Follows start [] [] start [] 0 where
  read := List.drop_nil
  arrived := by simp
  reached := reader.settled_of_unblocked free
  given := by
    rw [reader.awaited_of_unblocked free]
    rfl

section

variable (follows : reader.Follows start stream emitted state buffer count)
include follows

theorem arrive (chunk : List A) :
    reader.Follows start (stream ++ chunk) emitted state (buffer ++ chunk) count where
  read := by rw [List.drop_append_of_le_length follows.arrived, follows.read]
  arrived := by
    rw [List.length_append]
    exact Nat.le_add_right_of_le follows.arrived
  reached := by rw [reader.after_append _ _ _ _ follows.arrived, follows.reached]
  given := by rw [reader.trace_append _ _ _ _ follows.arrived, follows.given]

theorem release (waits : reader.blocked state = true) :
    reader.Follows start stream (emitted ++ (reader.release state).2) (reader.release state).1
      buffer count where
  read := follows.read
  arrived := follows.arrived
  reached := by
    rw [reader.settled_of_unblocked (reader.released state), ← follows.reached, settled,
      if_pos waits]
  given := by
    rw [reader.awaited_of_unblocked (reader.released state), List.append_nil, ← follows.given,
      awaited, if_pos waits]

theorem process (free : reader.blocked state = false) (filled : reader.size ≤ buffer.length) :
    reader.Follows start stream
      (emitted ++ (reader.process state (buffer.take reader.size)).2)
      (reader.process state (buffer.take reader.size)).1 (buffer.drop reader.size)
      (count + 1) := by
  have here : state = reader.after start stream count := by
    rw [← follows.reached, reader.settled_of_unblocked free]
  have frame : (stream.drop (count * reader.size)).take reader.size = buffer.take reader.size := by
    rw [follows.read]
  have before : emitted = (reader.trace start stream count).flatten := by
    rw [← follows.given, reader.awaited_of_unblocked free, List.append_nil]
  refine { read := ?_, arrived := ?_, reached := ?_, given := ?_ }
  · rw [← follows.read, List.drop_drop, Nat.succ_mul]
  · have length := congrArg List.length follows.read
    have fits := follows.arrived
    rw [List.length_drop] at length
    rw [Nat.succ_mul]
    omega
  · rw [reader.after_succ, ← here, frame, whole]
  · rw [reader.trace_succ, ← here, frame, List.flatten_append, List.flatten_singleton, ← before,
      whole, List.append_assoc]

theorem count_eq (short : buffer.length < reader.size) : count = stream.length / reader.size := by
  have length := congrArg List.length follows.read
  rw [List.length_drop] at length
  have fits := follows.arrived
  refine (Nat.div_eq_of_lt_le fits ?_).symm
  rw [Nat.succ_mul]
  omega

end

end Follows

end FrameReader

end Library
