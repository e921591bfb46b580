import Assemblix.Library.Words

/-
Texts of JavaScript: blanks, and numbers read from the front of a text.
-/

namespace Library.JsText

def isSpace (letter : Char) : Bool :=
  letter.toNat ∈ [0x9, 0xA, 0xB, 0xC, 0xD, 0x20, 0xA0, 0x1680, 0x2028, 0x2029, 0x202F, 0x205F,
    0x3000, 0xFEFF] || (0x2000 ≤ letter.toNat && letter.toNat ≤ 0x200A)

def trim (text : String) : String := String.ofList (strip isSpace text.toList)

theorem trim_trim (text : String) : trim (trim text) = trim text := by
  rw [trim, trim, String.toList_ofList]
  by_cases blank : strip isSpace text.toList = []
  · rw [blank, strip_nil]
  · rw [(Trimmed.strip blank).strip_eq]

def leadingNumber (letters : List Char) : Option Nat :=
  let digits := letters.takeWhile Char.isDigit
  if digits = [] then none else some (Nat.ofDigitChars 10 digits 0)

/-- `parseInt(text, 10)`; no number is `none`. -/
def parseInt (text : String) : Option Int :=
  match text.toList.dropWhile isSpace with
  | '-' :: rest => (leadingNumber rest).map (fun number => -(number : Int))
  | '+' :: rest => (leadingNumber rest).map Int.ofNat
  | rest => (leadingNumber rest).map Int.ofNat

def lastPart (separator : Char) (text : String) : String :=
  String.ofList (text.toList.rtakeWhile (fun letter => letter ≠ separator))

theorem isDigit_of_mem_toDigits {number : Nat} {letter : Char}
    (member : letter ∈ Nat.toDigits 10 number) : letter.isDigit = true :=
  Nat.isDigit_of_mem_toDigits (by decide) (by decide) member

theorem not_isSpace_of_isDigit {letter : Char} (digit : letter.isDigit = true) :
    isSpace letter = false := by
  have bounds : 48 ≤ letter.toNat ∧ letter.toNat ≤ 57 := by
    simp only [Char.isDigit, Bool.and_eq_true, decide_eq_true_eq, ge_iff_le,
      UInt32.le_iff_toNat_le] at digit
    exact digit
  have apart : ∀ code < 58, 48 ≤ code →
      code ∉ [0x9, 0xA, 0xB, 0xC, 0xD, 0x20, 0xA0, 0x1680, 0x2028, 0x2029, 0x202F, 0x205F, 0x3000,
        0xFEFF] := by decide
  rw [isSpace, Bool.or_eq_false_iff]
  constructor
  · exact decide_eq_false (apart letter.toNat (by omega) bounds.1)
  · have low : ¬ 0x2000 ≤ letter.toNat := by omega
    rw [decide_eq_false low, Bool.false_and]

theorem leadingNumber_toDigits (number : Nat) :
    leadingNumber (Nat.toDigits 10 number) = some number := by
  have whole : (Nat.toDigits 10 number).takeWhile Char.isDigit = Nat.toDigits 10 number :=
    List.takeWhile_eq_self_iff.mpr (fun letter member => isDigit_of_mem_toDigits member)
  rw [leadingNumber, whole, if_neg Nat.toDigits_ne_nil, Nat.ofDigitChars_ten_toDigits]

theorem parseInt_toString (number : Nat) : parseInt (toString number) = some (number : Int) := by
  have letters : (toString number).toList = Nat.toDigits 10 number := Nat.toList_repr
  rw [parseInt, letters]
  cases digits : Nat.toDigits 10 number with
  | nil => exact absurd digits Nat.toDigits_ne_nil
  | cons first rest =>
      have member : first ∈ Nat.toDigits 10 number := by
        rw [digits]
        exact List.mem_cons_self
      have digit : first.isDigit = true := isDigit_of_mem_toDigits member
      rw [List.dropWhile_cons_of_neg (by rw [not_isSpace_of_isDigit digit]; exact Bool.false_ne_true),
        ← digits]
      split
      · rename_i tail shape
        rw [digits, List.cons.injEq] at shape
        rw [shape.1] at digit
        exact absurd digit (by decide)
      · rename_i tail shape
        rw [digits, List.cons.injEq] at shape
        rw [shape.1] at digit
        exact absurd digit (by decide)
      · rw [leadingNumber_toDigits]
        rfl

theorem lastPart_of_letters {separator : Char} {front back : List Char} {text : String}
    (letters : text.toList = front ++ separator :: back)
    (plain : ∀ letter ∈ back, letter ≠ separator) :
    lastPart separator text = String.ofList back := by
  have kept : ∀ letter ∈ back.reverse, decide (letter ≠ separator) = true :=
    fun letter member => decide_eq_true (plain letter (List.mem_reverse.mp member))
  rw [lastPart, letters, List.rtakeWhile, List.reverse_append, List.reverse_cons,
    List.append_assoc, List.takeWhile_append_of_pos kept, List.singleton_append,
    List.takeWhile_cons_of_neg (by simp), List.append_nil, List.reverse_reverse]

theorem toString_plain (number : Nat) {separator : Char} (other : separator.isDigit = false) :
    ∀ letter ∈ (toString number).toList, letter ≠ separator := by
  have digits : (toString number).toList = Nat.toDigits 10 number := Nat.toList_repr
  intro letter member same
  rw [digits, same] at member
  rw [isDigit_of_mem_toDigits member] at other
  cases other

end Library.JsText
