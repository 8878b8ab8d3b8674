import Mathlib.Algebra.Order.Field.Rat
import Mathlib.Tactic.Linarith

/-!
# Numerals at the start of a text

`std::stoi` and `std::stod` read the longest numeral that a text begins with, after white
space, and throw where there is none or where it is out of range. Finite doubles are exact
rationals, so nothing is rounded; infinities and NaN are values of their own.
-/

namespace Numerals

/-- A double. -/
inductive Double where
  | finite (value : ℚ)
  | infinite (negative : Bool)
  | nan
deriving DecidableEq

namespace Double

/-- `left < right`; with NaN it is false. -/
def lt : Double → Double → Bool
  | .nan, _ => false
  | _, .nan => false
  | .infinite negative, .infinite negative' => negative && !negative'
  | .infinite negative, .finite _ => negative
  | .finite _, .infinite negative => !negative
  | .finite left, .finite right => left < right

/-- `left >= right`; with NaN it is false. -/
def ge (left right : Double) : Bool :=
  match left, right with
  | .nan, _ => false
  | _, .nan => false
  | left, right => !left.lt right

/-- `left + right`. -/
def add : Double → Double → Double
  | .nan, _ => .nan
  | _, .nan => .nan
  | .infinite negative, .infinite negative' =>
      if negative = negative' then .infinite negative else .nan
  | .infinite negative, .finite _ => .infinite negative
  | .finite _, .infinite negative => .infinite negative
  | .finite left, .finite right => .finite (left + right)

/-- `value * factor`, for a factor that is positive. -/
def scale (factor : ℚ) : Double → Double
  | .finite value => .finite (value * factor)
  | value => value

/-- `std::clamp(value, low, high)`. -/
def clamp (value low high : Double) : Double :=
  if value.lt low then low else if high.lt value then high else value

/-- Clamping gives a number between the bounds, unless there is no number to clamp. -/
theorem clamp_finite_iff (value : Double) {low high : ℚ} (ordered : low ≤ high) :
    (∃ q, value.clamp (.finite low) (.finite high) = .finite q ∧ low ≤ q ∧ q ≤ high) ↔
      value ≠ .nan := by
  cases value with
  | nan => simp [clamp, lt]
  | infinite negative => cases negative <;> simp [clamp, lt, ordered]
  | finite value =>
      simp only [clamp, lt, decide_eq_true_eq]
      by_cases below : value < low
      · simp [below, ordered]
      by_cases above : high < value
      · simp [below, above, ordered]
      · simp [below, above, not_lt.mp below, not_lt.mp above]

end Double

section Reading

/-- `std::isspace` in the C locale. -/
def isSpace (c : Char) : Bool :=
  c = ' ' || c = '\t' || c = '\n' || c = '\x0b' || c = '\x0c' || c = '\r'

/-- The value of a decimal digit. -/
def decimalDigit (c : Char) : Option ℕ :=
  if '0' ≤ c && c ≤ '9' then some (c.toNat - '0'.toNat) else none

/-- The value of a hexadecimal digit. -/
def hexDigit (c : Char) : Option ℕ :=
  if 'a' ≤ c.toLower && c.toLower ≤ 'f' then some (c.toLower.toNat - 'a'.toNat + 10)
  else decimalDigit c

/-- The longest run of digits, and what follows it. -/
def digitRun (digit : Char → Option ℕ) : List Char → List ℕ × List Char
  | [] => ([], [])
  | c :: rest =>
      match digit c with
      | some value => (value :: (digitRun digit rest).1, (digitRun digit rest).2)
      | none => ([], c :: rest)

/-- The number with these digits. -/
def ofDigits (base : ℕ) (digits : List ℕ) : ℕ :=
  digits.foldl (fun number digit => number * base + digit) 0

/-- An optional sign: whether it is a minus, and what follows it. -/
def optSign : List Char → Bool × List Char
  | '-' :: rest => (true, rest)
  | '+' :: rest => (false, rest)
  | rest => (false, rest)

/-- The number of a sign and a magnitude. -/
def signed (negative : Bool) (q : ℚ) : ℚ := if negative then -q else q

/-- An exponent: the marker, an optional sign and digits. Without all of it there is none,
and the numeral ends before the marker. -/
def exponent (marker : Char) : List Char → ℤ
  | [] => 0
  | c :: rest =>
      let (negative, rest) := optSign rest
      let number : ℤ := ofDigits 10 (digitRun decimalDigit rest).1
      if c.toLower = marker then if negative then -number else number else 0

/-- Digits of `base` around an optional point, with an exponent of `radix`; each digit after
the point is worth `perDigit` of it. -/
def numeral (digit : Char → Option ℕ) (base radix : ℕ) (perDigit : ℤ) (marker : Char)
    (chars : List Char) : Option ℚ :=
  let (whole, rest) := digitRun digit chars
  let (fraction, rest) :=
    match rest with
    | '.' :: rest => digitRun digit rest
    | rest => ([], rest)
  if whole.isEmpty && fraction.isEmpty then none
  else some (ofDigits base (whole ++ fraction) *
    (radix : ℚ) ^ (exponent marker rest - perDigit * fraction.length))

/-- The text begins with these lower-case letters, in either case. -/
def startsWith (letters : String) (chars : List Char) : Bool :=
  letters.toList.isPrefixOf (chars.map Char.toLower)

/-- The magnitude of a finite numeral: hexadecimal after `0x`, else decimal. -/
def magnitude (chars : List Char) : Option ℚ :=
  if startsWith "0x" chars then
    (numeral hexDigit 16 2 4 'p' (chars.drop 2)).or (some 0)
  else numeral decimalDigit 10 10 1 'e' chars

/-- A double holds the number: it does not overflow, and where it is below the normal
numbers it is exact. -/
def inRange (q : ℚ) : Bool :=
  |q| < 2 ^ 1024 - 2 ^ 970 && (2 ^ (-1022 : ℤ) ≤ |q| || (q * 2 ^ 1074).den = 1)

/-- `std::stod`; nothing where it throws `std::invalid_argument` or `std::out_of_range`. -/
def stod (text : String) : Option Double :=
  let (negative, rest) := optSign (text.toList.dropWhile isSpace)
  if startsWith "inf" rest then some (.infinite negative)
  else if startsWith "nan" rest then some .nan
  else (magnitude rest).bind fun q =>
    if inRange q then some (.finite (signed negative q)) else none

/-- `std::stoi`; nothing where it throws. -/
def stoi (text : String) : Option ℤ :=
  let (negative, rest) := optSign (text.toList.dropWhile isSpace)
  let digits := (digitRun decimalDigit rest).1
  let number : ℤ := if negative then -ofDigits 10 digits else ofDigits 10 digits
  if digits.isEmpty || number < -2147483648 || 2147483647 < number then none else some number

example : stod " -7.5e1s" = some (.finite (-75)) := by decide +kernel

example : stod "0x1.8p3" = some (.finite 12) := by decide +kernel

example : stod "Fri, 31 Dec 1999 23:59:59 GMT" = none := by decide +kernel

end Reading

end Numerals
