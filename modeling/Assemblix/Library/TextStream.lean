import Mathlib.Data.List.Basic
import Mathlib.Tactic.Common

/-
A text that comes as bytes, in chunks that may be cut anywhere, and is read line by line.

The decoder takes one byte after the other and keeps an unfinished character for later; a byte that
does not go on with it stands for a replacement character. The first letter of the whole is dropped
when it is a byte order mark. What follows the last line end is kept for the next chunk.
-/

namespace Library

/-! ### Characters -/

/-- The character read so far, how many bytes it still needs, and the bounds of the next one. -/
structure Utf8Decoder where
  codePoint : Nat := 0
  needed : Nat := 0
  lower : Nat := 0x80
  upper : Nat := 0xBF
  bomSeen : Bool := false
  deriving DecidableEq

namespace Utf8Decoder

def emit (decoder : Utf8Decoder) (code : Nat) : Utf8Decoder × List Char :=
  ({ bomSeen := true },
    if decoder.bomSeen = false ∧ code = 0xFEFF then [] else [Char.ofNat code])

def lead (decoder : Utf8Decoder) (byte : Nat) : Utf8Decoder × List Char :=
  if byte ≤ 0x7F then decoder.emit byte
  else if 0xC2 ≤ byte ∧ byte ≤ 0xDF then
    ({ decoder with needed := 1, codePoint := byte % 32 }, [])
  else if 0xE0 ≤ byte ∧ byte ≤ 0xEF then
    ({ decoder with
        needed := 2
        codePoint := byte % 16
        lower := if byte = 0xE0 then 0xA0 else 0x80
        upper := if byte = 0xED then 0x9F else 0xBF }, [])
  else if 0xF0 ≤ byte ∧ byte ≤ 0xF4 then
    ({ decoder with
        needed := 3
        codePoint := byte % 8
        lower := if byte = 0xF0 then 0x90 else 0x80
        upper := if byte = 0xF4 then 0x8F else 0xBF }, [])
  else decoder.emit 0xFFFD

def byte (decoder : Utf8Decoder) (next : Nat) : Utf8Decoder × List Char :=
  if decoder.needed = 0 then decoder.lead next
  else if decoder.lower ≤ next ∧ next ≤ decoder.upper then
    if decoder.needed = 1 then decoder.emit (decoder.codePoint * 64 + next % 64)
    else
      ({ decoder with
          codePoint := decoder.codePoint * 64 + next % 64
          needed := decoder.needed - 1
          lower := 0x80
          upper := 0xBF }, [])
  -- The byte is read again, now as the begin of a character.
  else
    let broken := decoder.emit 0xFFFD
    let again := broken.1.lead next
    (again.1, broken.2 ++ again.2)

def decode : Utf8Decoder → List UInt8 → Utf8Decoder × List Char
  | decoder, [] => (decoder, [])
  | decoder, next :: rest =>
      let read := decoder.byte next.toNat
      let later := decode read.1 rest
      (later.1, read.2 ++ later.2)

/-- Where the bytes are cut does not matter. -/
theorem decode_append (decoder : Utf8Decoder) (first second : List UInt8) :
    decoder.decode (first ++ second) =
      (((decoder.decode first).1.decode second).1,
        (decoder.decode first).2 ++ ((decoder.decode first).1.decode second).2) := by
  induction first generalizing decoder with
  | nil => rfl
  | cons next rest ih =>
      rw [List.cons_append, decode, ih, decode]
      dsimp only
      rw [List.append_assoc]

/-! #### Encoded text -/

section Encoded

variable {decoder : Utf8Decoder} {seen : Bool} {code next : Nat}

theorem emit_letter (unmarked : decoder.bomSeen = false → code ≠ 0xFEFF) :
    decoder.emit code = ({ bomSeen := true }, [Char.ofNat code]) := by
  rw [emit, if_neg]
  rintro ⟨first, mark⟩
  exact unmarked first mark

theorem byte_lead (ready : decoder.needed = 0) : decoder.byte next = decoder.lead next :=
  if_pos ready

theorem byte_more (more : 2 ≤ decoder.needed) (low : decoder.lower ≤ next)
    (high : next ≤ decoder.upper) :
    decoder.byte next =
      ({ decoder with
          codePoint := decoder.codePoint * 64 + next % 64
          needed := decoder.needed - 1
          lower := 0x80
          upper := 0xBF }, []) := by
  rw [byte, if_neg (by omega), if_pos ⟨low, high⟩, if_neg (by omega)]

theorem byte_last (last : decoder.needed = 1) (low : decoder.lower ≤ next)
    (high : next ≤ decoder.upper) :
    decoder.byte next = decoder.emit (decoder.codePoint * 64 + next % 64) := by
  rw [byte, if_neg (by omega), if_pos ⟨low, high⟩, if_pos last]

theorem toNat_ofNat {number : Nat} (small : number < 256) :
    (UInt8.ofNat number).toNat = number := by
  rw [UInt8.toNat_ofNat']
  exact Nat.mod_eq_of_lt small

theorem decode_one (high : code ≤ 0x7F) :
    decode { bomSeen := seen } [UInt8.ofNat code] = ({ bomSeen := true }, [Char.ofNat code]) := by
  rw [decode, toNat_ofNat (by omega), byte_lead rfl, lead, if_pos high, emit_letter (by omega)]
  rfl

theorem decode_two (low : 0x7F < code) (high : code ≤ 0x7FF) :
    decode { bomSeen := seen } [UInt8.ofNat (code / 64 % 32 + 0xC0),
        UInt8.ofNat (code % 64 + 0x80)] =
      ({ bomSeen := true }, [Char.ofNat code]) := by
  rw [decode, toNat_ofNat (by omega), byte_lead rfl, lead, if_neg (by omega),
    if_pos (by omega)]
  dsimp only
  rw [decode, toNat_ofNat (by omega), byte_last rfl (by dsimp only; omega) (by dsimp only; omega)]
  dsimp only
  rw [emit_letter (by dsimp only; omega)]
  have same : (code / 64 % 32 + 0xC0) % 32 * 64 + (code % 64 + 0x80) % 64 = code := by omega
  rw [same]
  rfl

theorem decode_three (low : 0x7FF < code) (high : code ≤ 0xFFFF)
    (valid : code < 0xD800 ∨ 0xDFFF < code) (unmarked : seen = false → code ≠ 0xFEFF) :
    decode { bomSeen := seen } [UInt8.ofNat (code / 4096 % 16 + 0xE0),
        UInt8.ofNat (code / 64 % 64 + 0x80), UInt8.ofNat (code % 64 + 0x80)] =
      ({ bomSeen := true }, [Char.ofNat code]) := by
  rw [decode, toNat_ofNat (by omega), byte_lead rfl, lead, if_neg (by omega), if_neg (by omega),
    if_pos (by omega)]
  dsimp only
  rw [decode, toNat_ofNat (by omega), byte_more (Nat.le_refl 2) (by dsimp only; split <;> omega)
    (by dsimp only; split <;> omega)]
  dsimp only
  rw [decode, toNat_ofNat (by omega), byte_last rfl (by dsimp only; omega) (by dsimp only; omega)]
  dsimp only
  have same : ((code / 4096 % 16 + 0xE0) % 16 * 64 + (code / 64 % 64 + 0x80) % 64) * 64 +
      (code % 64 + 0x80) % 64 = code := by omega
  rw [same, emit_letter unmarked]
  rfl

theorem decode_four (low : 0xFFFF < code) (high : code < 0x110000) :
    decode { bomSeen := seen } [UInt8.ofNat (code / 262144 % 8 + 0xF0),
        UInt8.ofNat (code / 4096 % 64 + 0x80), UInt8.ofNat (code / 64 % 64 + 0x80),
        UInt8.ofNat (code % 64 + 0x80)] =
      ({ bomSeen := true }, [Char.ofNat code]) := by
  rw [decode, toNat_ofNat (by omega), byte_lead rfl, lead, if_neg (by omega), if_neg (by omega),
    if_neg (by omega), if_pos (by omega)]
  dsimp only
  rw [decode, toNat_ofNat (by omega), byte_more (by dsimp only; omega)
    (by dsimp only; split <;> omega) (by dsimp only; split <;> omega)]
  dsimp only
  rw [decode, toNat_ofNat (by omega), byte_more (by dsimp only; omega) (by dsimp only; omega)
    (by dsimp only; omega)]
  dsimp only
  rw [decode, toNat_ofNat (by omega), byte_last rfl (by dsimp only; omega) (by dsimp only; omega)]
  dsimp only
  have same : (((code / 262144 % 8 + 0xF0) % 8 * 64 + (code / 4096 % 64 + 0x80) % 64) * 64 +
      (code / 64 % 64 + 0x80) % 64) * 64 + (code % 64 + 0x80) % 64 = code := by omega
  rw [same, emit_letter (by omega)]
  rfl

end Encoded

theorem decode_char {seen : Bool} {letter : Char}
    (unmarked : seen = false → letter ≠ Char.ofNat 0xFEFF) :
    decode { bomSeen := seen } (String.utf8EncodeChar letter) =
      ({ bomSeen := true }, [letter]) := by
  have valid : letter.val.toNat < 0xD800 ∨
      0xDFFF < letter.val.toNat ∧ letter.val.toNat < 0x110000 :=
    letter.valid
  have same : Char.ofNat letter.val.toNat = letter := Char.ofNat_toNat letter
  unfold String.utf8EncodeChar
  dsimp only
  by_cases one : letter.val.toNat ≤ 0x7F
  · rw [if_pos one, decode_one one, same]
  by_cases two : letter.val.toNat ≤ 0x7FF
  · rw [if_neg one, if_pos two, decode_two (Nat.lt_of_not_le one) two, same]
  by_cases three : letter.val.toNat ≤ 0xFFFF
  · rw [if_neg one, if_neg two, if_pos three, decode_three (Nat.lt_of_not_le two) three (by omega),
      same]
    intro first mark
    apply unmarked first
    rw [← same, mark]
  · rw [if_neg one, if_neg two, if_neg three, decode_four (Nat.lt_of_not_le three) (by omega), same]

theorem decode_started (text : List Char) :
    decode { bomSeen := true } (text.flatMap String.utf8EncodeChar) =
      ({ bomSeen := true }, text) := by
  induction text with
  | nil => rfl
  | cons letter rest ih =>
      rw [List.flatMap_cons, decode_append, decode_char (fun unseen => Bool.noConfusion unseen), ih]
      rfl

/-- A text that does not begin with a byte order mark is read as it is. -/
theorem decode_text {text : List Char} (unmarked : text.head? ≠ some (Char.ofNat 0xFEFF)) :
    (decode {} (text.flatMap String.utf8EncodeChar)).2 = text := by
  cases text with
  | nil => rfl
  | cons letter rest =>
      rw [List.flatMap_cons, decode_append, decode_char, decode_started]
      · rfl
      · rintro _ rfl
        exact unmarked rfl

theorem decode_marked (text : List Char) :
    (decode {} (String.utf8EncodeChar (Char.ofNat 0xFEFF) ++
      text.flatMap String.utf8EncodeChar)).2 = text := by
  have mark : decode {} (String.utf8EncodeChar (Char.ofNat 0xFEFF)) =
      ({ bomSeen := true }, []) := by
    decide +kernel
  rw [decode_append, mark, decode_started]
  rfl

end Utf8Decoder

/-! ### Lines -/

section Lines

variable {A : Type} [DecidableEq A] (sep : A)

def completeLines (text : List A) : List (List A) := (text.splitOn sep).dropLast

def unfinished (text : List A) : List A := (text.splitOn sep).getLast?.getD []

variable {sep} {text : List A}

theorem splitOn_of_not_mem (absent : sep ∉ text) : text.splitOn sep = [text] :=
  List.splitOn_eq_singleton absent

theorem completeLines_of_not_mem (absent : sep ∉ text) : completeLines sep text = [] := by
  rw [completeLines, splitOn_of_not_mem absent]
  rfl

theorem unfinished_of_not_mem (absent : sep ∉ text) : unfinished sep text = text := by
  rw [unfinished, splitOn_of_not_mem absent]
  rfl

theorem completeLines_append_cons (before after : List A) :
    completeLines sep (before ++ sep :: after) =
      before.splitOn sep ++ completeLines sep after := by
  rw [completeLines, List.splitOn_append_cons_self,
    List.dropLast_append_of_ne_nil (List.splitOn_ne_nil _ _), completeLines]

theorem unfinished_append_cons (before after : List A) :
    unfinished sep (before ++ sep :: after) = unfinished sep after := by
  rw [unfinished, List.splitOn_append_cons_self,
    List.getLast?_append_of_ne_nil _ (List.splitOn_ne_nil _ _), unfinished]

omit [DecidableEq A] in
theorem last_separator (member : sep ∈ text) :
    ∃ before after, text = before ++ sep :: after ∧ sep ∉ after := by
  obtain ⟨after, before, reversed, absent⟩ :=
    List.eq_append_cons_of_mem (List.mem_reverse.mpr member)
  refine ⟨before.reverse, after.reverse, ?_, ?_⟩
  · rw [← List.reverse_reverse text, reversed]
    simp
  · rw [List.mem_reverse]
    exact absent

theorem not_mem_unfinished (text : List A) : sep ∉ unfinished sep text := by
  by_cases member : sep ∈ text
  · obtain ⟨before, after, rfl, absent⟩ := last_separator member
    rw [unfinished_append_cons, unfinished_of_not_mem absent]
    exact absent
  · rw [unfinished_of_not_mem member]
    exact member

/-- What comes next is read as if it came after the unfinished line alone. -/
theorem completeLines_append (text more : List A) :
    completeLines sep (text ++ more) =
      completeLines sep text ++ completeLines sep (unfinished sep text ++ more) := by
  by_cases member : sep ∈ text
  · obtain ⟨before, after, rfl, absent⟩ := last_separator member
    rw [unfinished_append_cons, unfinished_of_not_mem absent, List.append_assoc, List.cons_append,
      completeLines_append_cons, completeLines_append_cons, completeLines_of_not_mem absent,
      List.append_nil]
  · rw [unfinished_of_not_mem member, completeLines_of_not_mem member, List.nil_append]

theorem completeLines_flatMap {lines : List (List A)} (whole : ∀ line ∈ lines, sep ∉ line) :
    completeLines sep (lines.flatMap (fun line => line ++ [sep])) = lines := by
  induction lines with
  | nil => rfl
  | cons line rest ih =>
      obtain ⟨here, later⟩ := List.forall_mem_cons.mp whole
      rw [List.flatMap_cons, List.append_assoc, List.singleton_append, completeLines_append_cons,
        splitOn_of_not_mem here, ih later]
      rfl

end Lines

end Library
