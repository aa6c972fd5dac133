/-
Module: CycFlowPy.Lib.PyText
Purpose: Python's `str.strip`, `str.rpartition` and the conversions between
  integers and decimal text, over texts as lists of characters.
Trusted boundary: which characters are decimal digits is Unicode's
  (`Decimals`); the limit on the digits of an integer is the default one
Main exports: Text, isSpace, strip, strip_strip, rpartition,
  rpartition_append, maxStrDigits, str, Decimals, asciiDecimals, int,
  natAbs_int_lt, int_str, strip_join
-/
import Mathlib.Algebra.Group.Nat.Defs
import Mathlib.Data.List.DropRight
import Mathlib.Data.List.TakeWhile

namespace PyText

abbrev Text := List Char

/-! ### Blanks -/

/-- The code points for which `str.isspace` holds. -/
def spaces : List Nat :=
  [9, 10, 11, 12, 13, 28, 29, 30, 31, 32, 133, 160, 5760, 8192, 8193, 8194,
    8195, 8196, 8197, 8198, 8199, 8200, 8201, 8202, 8232, 8233, 8239, 8287,
    12288]

def isSpace (char : Char) : Bool :=
  spaces.contains char.toNat

/-- `text.strip()`. -/
def strip (text : Text) : Text :=
  (text.dropWhile isSpace).rdropWhile isSpace

theorem length_strip_le (text : Text) :
    (strip text).length ≤ text.length := by
  have back := (List.rdropWhile_prefix isSpace
    (text.dropWhile isSpace)).length_le
  have front := (List.dropWhile_suffix (l := text) isSpace).length_le
  exact Nat.le_trans back front

/-- A text that `strip` leaves alone does not begin with a blank. -/
theorem not_space_of_strip {char : Char} {rest : Text}
    (stripped : strip (char :: rest) = char :: rest) :
    isSpace char = false := by
  by_contra space
  rw [Bool.not_eq_false] at space
  have shorter : (strip (char :: rest)).length ≤ rest.length := by
    rw [strip, List.dropWhile_cons_of_pos space]
    exact length_strip_le rest
  rw [stripped] at shorter
  exact Nat.lt_irrefl _ shorter

theorem strip_strip (text : Text) : strip (strip text) = strip text := by
  cases shape : strip text with
  | nil => rfl
  | cons char rest =>
      -- the first character is the one at which the front was cut
      have front : isSpace char = false := by
        rcases List.rdropWhile_prefix isSpace (text.dropWhile isSpace) with
          ⟨blanks, appended⟩
        have cut := List.head?_dropWhile_not isSpace text
        rw [← appended, show (text.dropWhile isSpace).rdropWhile isSpace =
          char :: rest from shape] at cut
        exact cut
      have back : (char :: rest).rdropWhile isSpace = char :: rest := by
        rw [← shape]
        exact List.rdropWhile_idempotent isSpace _
      rw [strip, List.dropWhile_cons_of_neg (by simp [front]), back]

/-! ### Cutting a text at its last separator -/

/-- `text.rpartition(sep)` for a separator of one character: what is before
the last one, the separator, and what is behind it. -/
def rpartition (sep : Char) (text : Text) : Text × Text × Text :=
  if sep ∈ text then
    ((text.rdropWhile (· ≠ sep)).dropLast, [sep],
      text.rtakeWhile (· ≠ sep))
  else ([], [], text)

theorem rpartition_append {sep : Char} (front : Text) {back : Text}
    (absent : sep ∉ back) :
    rpartition sep (front ++ sep :: back) = (front, [sep], back) := by
  have others : ∀ char ∈ back.reverse, decide (char ≠ sep) = true := by
    intro char member
    rw [decide_eq_true_eq]
    rintro rfl
    exact absent (List.mem_reverse.mp member)
  have reversed : (front ++ sep :: back).reverse =
      back.reverse ++ sep :: front.reverse := by
    simp
  have before : (front ++ sep :: back).rdropWhile (· ≠ sep) =
      front ++ [sep] := by
    rw [List.rdropWhile, reversed, List.dropWhile_append_of_pos others,
      List.dropWhile_cons_of_neg (by simp)]
    simp
  have behind : (front ++ sep :: back).rtakeWhile (· ≠ sep) = back := by
    rw [List.rtakeWhile, reversed, List.takeWhile_append_of_pos others,
      List.takeWhile_cons_of_neg (by simp)]
    simp
  rw [rpartition, if_pos (by simp), before, behind, List.dropLast_concat]

/-! ### Integers -/

/-- The most digits of an integer that is read or written as text. -/
def maxStrDigits : Nat := 4300

/-- `str(n)`, for a number of at most `maxStrDigits` digits. -/
def str : Int → Text
  | .ofNat n => Nat.toDigits 10 n
  | .negSucc n => '-' :: Nat.toDigits 10 (n + 1)

/-- The decimal digits among the characters, with their values. -/
structure Decimals where
  value : Char → Option Nat
  ascii : ∀ char : Char, char.isDigit = true →
    value char = some (char.toNat - '0'.toNat)
  underscore : value '_' = none
  small : ∀ (char : Char) (digit : Nat), value char = some digit → digit < 10

theorem toNat_of_isDigit {char : Char} (digit : char.isDigit = true) :
    48 ≤ char.toNat ∧ char.toNat ≤ 57 := by
  rw [Char.isDigit, Bool.and_eq_true, decide_eq_true_eq,
    decide_eq_true_eq] at digit
  exact digit

/-- The digits of ASCII alone. -/
def asciiDecimals : Decimals where
  value char :=
    if char.isDigit then some (char.toNat - '0'.toNat) else none
  ascii _ digit := if_pos digit
  underscore := rfl
  small char digit is := by
    by_cases ascii : char.isDigit = true
    · rw [if_pos ascii] at is
      have range := toNat_of_isDigit ascii
      have zero : '0'.toNat = 48 := rfl
      have same := Option.some.inj is
      omega
    · rw [if_neg ascii] at is
      cases is

/-- Digits behind a number, single underscores between them allowed. -/
def digits (decimals : Decimals) : Nat → Text → Option Nat
  | number, [] => some number
  | number, '_' :: char :: text => do
      let digit ← decimals.value char
      digits decimals (10 * number + digit) text
  | number, char :: text => do
      let digit ← decimals.value char
      digits decimals (10 * number + digit) text

/-- How many characters of the text are no underscores. -/
def digitCount (text : Text) : Nat :=
  text.countP fun char => char ≠ '_'

def natural (decimals : Decimals) (text : Text) : Option Nat :=
  if maxStrDigits < digitCount text then none
  else
    match text with
    | [] => none
    | char :: text => do
        let digit ← decimals.value char
        digits decimals digit text

/-- `int(text)`; `none` stands for the `ValueError`. -/
def int (decimals : Decimals) (text : Text) : Option Int :=
  match strip text with
  | '-' :: text => (natural decimals text).map fun n : Nat => -(n : Int)
  | '+' :: text => (natural decimals text).map fun n : Nat => (n : Int)
  | text => (natural decimals text).map fun n : Nat => (n : Int)

theorem digits_ascii (decimals : Decimals) {text : Text}
    (ascii : ∀ char ∈ text, char.isDigit = true) (number : Nat) :
    digits decimals number text = some (Nat.ofDigitChars 10 text number) := by
  induction text generalizing number with
  | nil =>
      rw [Nat.ofDigitChars_nil]
      rfl
  | cons char text inductionHypothesis =>
      rw [List.forall_mem_cons] at ascii
      have other : char ≠ '_' := by
        rintro rfl
        exact absurd ascii.1 (by decide)
      rw [digits.eq_def]
      split
      case h_1 => simp_all
      case h_2 same => simp_all
      case h_3 same =>
        cases same
        rw [decimals.ascii char ascii.1, Option.bind_eq_bind,
          Option.bind_some, inductionHypothesis ascii.2,
          Nat.ofDigitChars_cons]

theorem natural_toDigits (decimals : Decimals) {n : Nat}
    (small : n < 10 ^ maxStrDigits) :
    natural decimals (Nat.toDigits 10 n) = some n := by
  have few : ¬ maxStrDigits < digitCount (Nat.toDigits 10 n) := by
    have length := (Nat.length_toDigits_le_iff (b := 10) (by decide)
      (show 0 < maxStrDigits by decide)).mpr small
    exact Nat.not_lt.mpr (Nat.le_trans List.countP_le_length length)
  have ascii : ∀ char ∈ Nat.toDigits 10 n, char.isDigit = true := by
    intro char member
    exact Nat.isDigit_of_mem_toDigits (by decide) (by decide) member
  have value := Nat.ofDigitChars_ten_toDigits (n := n)
  rw [natural.eq_def, if_neg few]
  cases shape : Nat.toDigits 10 n with
  | nil => exact absurd shape Nat.toDigits_ne_nil
  | cons char text =>
      rw [shape] at ascii value
      rw [List.forall_mem_cons] at ascii
      change ((decimals.value char).bind fun digit =>
        digits decimals digit text) = some n
      rw [decimals.ascii char ascii.1, Option.bind_some,
        digits_ascii decimals ascii.2]
      rw [Nat.ofDigitChars_cons, Nat.mul_zero, Nat.zero_add] at value
      rw [value]

theorem ne_underscore {decimals : Decimals} {char : Char} {digit : Nat}
    (value : decimals.value char = some digit) : char ≠ '_' := by
  rintro rfl
  rw [decimals.underscore] at value
  cases value

theorem digitCount_cons {char : Char} (digit : char ≠ '_') (text : Text) :
    digitCount (char :: text) = digitCount text + 1 :=
  List.countP_cons_of_pos (by simpa using digit)

theorem digits_step_lt {number digit n count : Nat} (small : digit < 10)
    (below : n < (10 * number + digit + 1) * 10 ^ count) :
    n < (number + 1) * 10 ^ (count + 1) := by
  have factor : 10 * number + digit + 1 ≤ (number + 1) * 10 := by
    omega
  calc
    n < (10 * number + digit + 1) * 10 ^ count := below
    _ ≤ (number + 1) * 10 * 10 ^ count := Nat.mul_le_mul_right _ factor
    _ = (number + 1) * 10 ^ (count + 1) := by
      rw [Nat.pow_succ, Nat.mul_assoc, Nat.mul_comm 10]

theorem digits_lt (decimals : Decimals) {number n : Nat} {text : Text}
    (read : digits decimals number text = some n) :
    n < (number + 1) * 10 ^ digitCount text := by
  fun_induction digits decimals number text with
  | case1 number =>
      cases read
      simp [digitCount]
  | case2 number char text inductionHypothesis =>
      rcases Option.bind_eq_some_iff.mp read with ⟨digit, value, rest⟩
      have skipped : digitCount ('_' :: char :: text) =
          digitCount (char :: text) :=
        List.countP_cons_of_neg (by simp)
      rw [skipped, digitCount_cons (ne_underscore value)]
      exact digits_step_lt (decimals.small char digit value)
        (inductionHypothesis digit rest)
  | case3 number char text _ inductionHypothesis =>
      rcases Option.bind_eq_some_iff.mp read with ⟨digit, value, rest⟩
      rw [digitCount_cons (ne_underscore value)]
      exact digits_step_lt (decimals.small char digit value)
        (inductionHypothesis digit rest)

theorem natural_lt (decimals : Decimals) {n : Nat} {text : Text}
    (read : natural decimals text = some n) : n < 10 ^ maxStrDigits := by
  unfold natural at read
  split at read
  case isTrue => cases read
  case isFalse few =>
    cases text with
    | nil => cases read
    | cons char text =>
        rcases Option.bind_eq_some_iff.mp read with ⟨digit, value, rest⟩
        have leading : digit + 1 ≤ 10 ^ 1 := decimals.small char digit value
        rw [digitCount_cons (ne_underscore value)] at few
        calc
          n < (digit + 1) * 10 ^ digitCount text := digits_lt decimals rest
          _ ≤ 10 ^ 1 * 10 ^ digitCount text :=
            Nat.mul_le_mul_right _ leading
          _ = 10 ^ (1 + digitCount text) := (Nat.pow_add ..).symm
          _ ≤ 10 ^ maxStrDigits :=
            Nat.pow_le_pow_right (by decide) (by omega)

/-- What is read is short enough to be written. -/
theorem natAbs_int_lt (decimals : Decimals) {n : Int} {text : Text}
    (read : int decimals text = some n) : n.natAbs < 10 ^ maxStrDigits := by
  unfold int at read
  split at read
  all_goals
    rcases Option.map_eq_some_iff.mp read with ⟨m, number, rfl⟩
    have small := natural_lt decimals number
    omega

theorem mem_str {char : Char} {n : Int} (member : char ∈ str n) :
    char = '-' ∨ char.isDigit = true := by
  cases n with
  | ofNat n =>
      right
      exact Nat.isDigit_of_mem_toDigits (by decide) (by decide) member
  | negSucc n =>
      rcases List.mem_cons.mp member with sign | digit
      · exact .inl sign
      · right
        exact Nat.isDigit_of_mem_toDigits (by decide) (by decide) digit

theorem str_ne_nil (n : Int) : str n ≠ [] := by
  cases n with
  | ofNat n => exact Nat.toDigits_ne_nil
  | negSucc n => exact List.cons_ne_nil _ _

theorem not_space_of_mem_str {char : Char} {n : Int}
    (member : char ∈ str n) : isSpace char = false := by
  rcases mem_str member with rfl | digit
  · decide
  · have range := toNat_of_isDigit digit
    rw [isSpace, List.contains_eq_mem, decide_eq_false_iff_not]
    intro space
    simp only [spaces, List.mem_cons, List.not_mem_nil, or_false] at space
    omega

theorem strip_of_not_space {text : Text}
    (blankless : ∀ char ∈ text, isSpace char = false) :
    strip text = text := by
  have front : text.dropWhile isSpace = text := by
    cases text with
    | nil => rfl
    | cons char rest =>
        rw [List.dropWhile_cons_of_neg]
        simp [blankless char List.mem_cons_self]
  rw [strip, front, List.rdropWhile_eq_self_iff]
  intro nonempty
  simp [blankless _ (List.getLast_mem nonempty)]

theorem strip_str (n : Int) : strip (str n) = str n :=
  strip_of_not_space fun _ member => not_space_of_mem_str member

/-- Reading an integer back. -/
theorem int_str (decimals : Decimals) {n : Int}
    (small : n.natAbs < 10 ^ maxStrDigits) :
    int decimals (str n) = some n := by
  rw [int, strip_str]
  cases n with
  | ofNat n =>
      have ascii : ∀ char ∈ Nat.toDigits 10 n, char.isDigit = true := by
        intro char member
        exact Nat.isDigit_of_mem_toDigits (by decide) (by decide) member
      have value := natural_toDigits decimals (n := n) small
      change (match Nat.toDigits 10 n with
        | '-' :: text => _
        | '+' :: text => _
        | text => _) = _
      split
      case h_1 text shape =>
        rw [shape] at ascii
        exact absurd (ascii '-' List.mem_cons_self) (by decide)
      case h_2 text shape =>
        rw [shape] at ascii
        exact absurd (ascii '+' List.mem_cons_self) (by decide)
      case h_3 =>
        rw [value]
        rfl
  | negSucc n =>
      change (natural decimals (Nat.toDigits 10 (n + 1))).map _ = _
      rw [natural_toDigits decimals (n := n + 1) small]
      rfl

/-- A text without blanks at its ends keeps none when a text without blanks
is put behind it. -/
theorem strip_join {front back : Text} (sep : Char)
    (stripped : strip front = front) (nonempty : front ≠ [])
    (more : back ≠ []) (blankless : ∀ char ∈ back, isSpace char = false) :
    strip (front ++ sep :: back) = front ++ sep :: back := by
  cases front with
  | nil => exact absurd rfl nonempty
  | cons char rest =>
      have first := not_space_of_strip stripped
      have last : (char :: rest ++ sep :: back.dropLast) ++
          [back.getLast more] = char :: (rest ++ sep :: back) := by
        simp [List.dropLast_append_getLast more]
      have blank := blankless _ (List.getLast_mem more)
      rw [strip, List.cons_append, List.dropWhile_cons_of_neg
        (by simp [first]), ← last, List.rdropWhile_concat_neg _ _ _
        (by simp [blank])]

end PyText
