import AesdChar.Library.CString
import Mathlib.Data.Nat.Digits.Lemmas

set_option autoImplicit false

namespace CString

def isSpace (c : UInt8) : Bool := c == 32 || (decide (9 ≤ c) && decide (c ≤ 13))

def isDigit (c : UInt8) : Bool := decide (48 ≤ c) && decide (c ≤ 57)

-- The leading digits. none: the block ends before any other byte.
def digitsOf : List UInt8 → Option (List UInt8)
  | [] => none
  | c :: rest => if isDigit c then (digitsOf rest).map fun digits => c :: digits else some []

def decimalValue (digits : List UInt8) : Nat := digits.foldl (fun value digit => 10 * value + (digit.toNat - 48)) 0

def afterSign : List UInt8 → Bool × List UInt8
  | [] => (false, [])
  | c :: rest => if c = 45 then (true, rest) else if c = 43 then (false, rest) else (false, c :: rest)

-- strtoul(text, NULL, 10) with an unsigned long of 64 bits, where text goes to
-- the end of its block. A value out of range gives ULONG_MAX.
def strtoul (text : List UInt8) : Option UInt64 :=
  let signed := afterSign (text.dropWhile isSpace)
  (digitsOf signed.2).map fun digits =>
    if 2 ^ 64 ≤ decimalValue digits then UInt64.ofNat (2 ^ 64 - 1)
    else if signed.1 then -UInt64.ofNat (decimalValue digits) else UInt64.ofNat (decimalValue digits)

theorem digits_of_front (digits rest : List UInt8) (c : UInt8) (all : ∀ digit ∈ digits, isDigit digit = true)
    (other : isDigit c = false) : digitsOf (digits ++ c :: rest) = some digits := by
  induction digits with
  | nil => simp [digitsOf, other]
  | cons digit tail ih =>
      have later := ih fun next member => all next (List.mem_cons_of_mem _ member)
      simp [digitsOf, all digit (by simp), later]

theorem digits_of_nul (text rest : List UInt8) : digitsOf (text ++ 0 :: rest) ≠ none := by
  induction text with
  | nil => simp [digitsOf, isDigit]
  | cons c tail ih =>
      rw [List.cons_append, digitsOf]
      split
      · simpa using ih
      · simp

theorem drop_spaces_nul (text rest : List UInt8) :
    (text ++ 0 :: rest).dropWhile isSpace = text.dropWhile isSpace ++ 0 :: rest := by
  induction text with
  | nil => simp [isSpace]
  | cons c tail ih =>
      rw [List.cons_append, List.dropWhile_cons, List.dropWhile_cons]
      split
      · exact ih
      · rfl

-- The NUL of a string stops strtoul at the latest.
theorem strtoul_nul (text rest : List UInt8) : strtoul (text ++ 0 :: rest) ≠ none := by
  rw [strtoul, drop_spaces_nul]
  cases text.dropWhile isSpace with
  | nil => simp [afterSign, digitsOf, isDigit]
  | cons c tail =>
      have signed := digits_of_nul tail rest
      have unsigned := digits_of_nul (c :: tail) rest
      simp only [List.cons_append, afterSign]
      split
      · simpa using signed
      · split
        · simpa using signed
        · simpa using unsigned

theorem strtoul_ended (block : List UInt8) (ended : 0 ∈ block) : strtoul block ≠ none := by
  obtain ⟨text, rest, rfl⟩ := List.append_of_mem ended
  exact strtoul_nul text rest

theorem strtoul_front (digits rest : List UInt8) (c : UInt8) (all : ∀ digit ∈ digits, isDigit digit = true)
    (other : isDigit c = false) (plain : digits = [] → isSpace c = false ∧ c ≠ 45 ∧ c ≠ 43)
    (fits : decimalValue digits < 2 ^ 64) :
    strtoul (digits ++ c :: rest) = some (UInt64.ofNat (decimalValue digits)) := by
  have leading : ∀ first tail, isSpace first = false → first ≠ 45 → first ≠ 43 → digits ++ c :: rest = first :: tail →
      afterSign ((digits ++ c :: rest).dropWhile isSpace) = (false, digits ++ c :: rest) := by
    intro first tail noSpace noMinus noPlus same
    rw [same, List.dropWhile_cons_of_neg (by simp [noSpace])]
    simp [afterSign, noMinus, noPlus]
  have unsigned : afterSign ((digits ++ c :: rest).dropWhile isSpace) = (false, digits ++ c :: rest) := by
    cases digits with
    | nil =>
        obtain ⟨noSpace, noMinus, noPlus⟩ := plain rfl
        exact leading c rest noSpace noMinus noPlus rfl
    | cons digit tail =>
        have isOne := all digit (by simp)
        simp only [isDigit, Bool.and_eq_true, decide_eq_true_eq, UInt8.le_iff_toNat_le, UInt8.reduceToNat] at isOne
        refine leading digit (tail ++ c :: rest) ?_ ?_ ?_ rfl
        · have noSpace : digit ≠ 32 := by rintro rfl; simp at isOne
          have large : ¬ digit ≤ 13 := by
            rw [UInt8.le_iff_toNat_le]
            simp only [UInt8.reduceToNat]
            omega
          simp [isSpace, noSpace, large]
        · rintro rfl
          simp at isOne
        · rintro rfl
          simp at isOne
  simp only [strtoul, unsigned, digits_of_front digits rest c all other, Option.map_some, Nat.not_le.mpr fits, if_false,
    Bool.false_eq_true]

theorem decimal_value_snoc (digits : List UInt8) (digit : UInt8) :
    decimalValue (digits ++ [digit]) = 10 * decimalValue digits + (digit.toNat - 48) := by
  simp [decimalValue, List.foldl_append]

def digitChar (digit : Nat) : UInt8 := UInt8.ofNat (48 + digit)

theorem digit_char_value (digit : Nat) (small : digit < 10) : (digitChar digit).toNat = 48 + digit := by
  simp only [digitChar, UInt8.toNat_ofNat']
  omega

theorem digit_char_digit (digit : Nat) (small : digit < 10) : isDigit (digitChar digit) = true := by
  have value := digit_char_value digit small
  simp only [isDigit, Bool.and_eq_true, decide_eq_true_eq, UInt8.le_iff_toNat_le, value, UInt8.reduceToNat]
  omega

-- Digits from the last one on, as Nat.digits gives them.
theorem decimal_value_reverse (digits : List Nat) (small : ∀ digit ∈ digits, digit < 10) :
    decimalValue (digits.reverse.map digitChar) = Nat.ofDigits 10 digits := by
  induction digits with
  | nil => rfl
  | cons digit rest ih =>
      have later := ih fun next member => small next (List.mem_cons_of_mem _ member)
      have value := digit_char_value digit (small digit (by simp))
      rw [List.reverse_cons, List.map_append, List.map_singleton, decimal_value_snoc, later, value, Nat.ofDigits_cons]
      omega

def decimal (n : Nat) : List UInt8 := if n = 0 then [48] else (Nat.digits 10 n).reverse.map digitChar

theorem decimal_digits (n : Nat) : ∀ digit ∈ decimal n, isDigit digit = true := by
  intro c member
  by_cases zero : n = 0
  · rw [decimal, if_pos zero] at member
    rw [List.mem_singleton.mp member]
    rfl
  · rw [decimal, if_neg zero] at member
    obtain ⟨digit, inDigits, rfl⟩ := List.mem_map.mp member
    exact digit_char_digit digit (Nat.digits_lt_base (by decide) (List.mem_reverse.mp inDigits))

theorem decimal_value (n : Nat) : decimalValue (decimal n) = n := by
  by_cases zero : n = 0
  · rw [decimal, if_pos zero, zero]
    rfl
  · rw [decimal, if_neg zero, decimal_value_reverse _ fun _ member => Nat.digits_lt_base (by decide) member,
      Nat.ofDigits_digits]

theorem decimal_length (n : Nat) (positive : n ≠ 0) : (decimal n).length = (Nat.digits 10 n).length := by
  rw [decimal, if_neg positive, List.length_map, List.length_reverse]

theorem decimal_length_lt (n bound : Nat) (positive : 0 < bound) : bound < (decimal n).length ↔ 10 ^ bound ≤ n := by
  by_cases zero : n = 0
  · subst zero
    have power : 0 < 10 ^ bound := Nat.pow_pos (by decide)
    rw [decimal, if_pos rfl, List.length_singleton]
    omega
  · rw [decimal_length n zero, Nat.lt_digits_length_iff (by decide)]

theorem decimal_nonempty (n : Nat) : 0 < (decimal n).length := by
  by_cases zero : n = 0
  · rw [decimal, if_pos zero]
    decide
  · rw [decimal_length n zero, Nat.lt_digits_length_iff (by decide)]
    omega

theorem decimal_plain (n : Nat) (c : UInt8) (other : isDigit c = false) : c ∉ decimal n := by
  intro member
  rw [decimal_digits n c member] at other
  cases other

-- Leaving out the first digits of n leaves its remainder by a power of ten.
theorem decimal_value_drop (n skipped : Nat) (positive : n ≠ 0) :
    decimalValue ((decimal n).drop skipped) = n % 10 ^ ((decimal n).length - skipped) := by
  rw [decimal_length n positive, Nat.self_mod_pow_eq_ofDigits_take _ n (by decide), decimal,
    if_neg positive, ← List.map_drop,
    List.drop_reverse]
  exact decimal_value_reverse _ fun digit member => Nat.digits_lt_base (by decide) (List.mem_of_mem_take member)

end CString
