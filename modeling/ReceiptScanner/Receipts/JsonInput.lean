import ReceiptScanner.Receipts.Errors
import Mathlib.Data.Rat.Floor

/-!
# Typed field readers for request bodies

Each reader takes a JSON value and the name of its field, and throws a
validation error whose message begins with that name. Texts are valid UTF-8, so a
`String` stands for them; numbers are exact.
-/

namespace ReceiptScanner

/-- A parsed JSON value. `unsigned` is an integer written without a sign,
`integer` one written with it, and an object lists its members. -/
inductive Json where
  | null
  | boolean (value : Bool)
  | unsigned (value : ℕ)
  | integer (value : ℤ)
  | float (value : ℚ)
  | string (value : String)
  | array (elements : List Json)
  | object (members : List (String × Json))
  | discarded

namespace Json

/-- The member of an object under `key`. -/
def find (body : Json) (key : String) : Option Json :=
  match body with
  | .object members => members.lookup key
  | _ => none

/-- The object has a member under `key`. -/
def contains (body : Json) (key : String) : Bool := (body.find key).isSome

end Json

namespace JsonInput

/-- A reader of one field. -/
abbrev Reader (α : Type) := Json → String → Except Err α

/-- Throw "<field> <problem>". -/
def fail {α : Type} (field problem : String) : Except Err α :=
  .error (.validation (field ++ " " ++ problem))

/-- `std::isspace` in the C locale. -/
def isSpace (c : Char) : Bool :=
  c = ' ' || c = '\t' || c = '\n' || c = '\x0b' || c = '\x0c' || c = '\r'

/-- Strip leading and trailing whitespace. -/
def trim (s : String) : String :=
  String.ofList ((s.toList.dropWhile isSpace).reverse.dropWhile isSpace).reverse

/-- An integer that an `int64_t` holds. -/
def asInt64 : Json → Option ℤ
  | .unsigned u => if u > 9223372036854775807 then none else some u
  | .integer n => some n
  | _ => none

/-- The body must be an object. -/
def requireObject : Json → Except Err Unit
  | .object _ => .ok ()
  | _ => .error (.validation "request body must be a JSON object")

/-- Every key must be one of `allowed`. -/
def rejectUnknownKeys (body : Json) (allowed : List String) : Except Err Unit :=
  match body with
  | .object members => members.forM fun (key, _) =>
      if allowed.contains key then .ok () else fail key "is not a recognized field"
  | _ => .ok ()

/-- Trimmed; empty is an error. -/
def requiredString : Reader String := fun value field =>
  match value with
  | .string text =>
      if (trim text).isEmpty then fail field "must not be empty" else .ok (trim text)
  | _ => fail field "must be a string"

/-- null, or a string that is empty after trimming, is none. -/
def nullableString : Reader (Option String) := fun value field =>
  match value with
  | .null => .ok none
  | .string text => .ok (if (trim text).isEmpty then none else some (trim text))
  | _ => fail field "must be a string or null"

/-- An integer of at least 0. -/
def cents : Reader ℤ := fun value field =>
  match asInt64 value with
  | some n => if n < 0 then fail field "must be a non-negative integer (cents)" else .ok n
  | none => fail field "must be a non-negative integer (cents)"

/-- null, or `cents`. -/
def nullableCents : Reader (Option ℤ) := fun value field =>
  match value with
  | .null => .ok none
  | value => some <$> cents value field

/-- A positive integer, or null. -/
def nullableId : Reader (Option ℕ) := fun value field =>
  match value with
  | .null => .ok none
  | value =>
      match asInt64 value with
      | some n => if n ≤ 0 then fail field "must be a positive integer id or null" else
          .ok (some n.toNat)
      | none => fail field "must be a positive integer id or null"

/-- true or false. -/
def boolean : Reader Bool := fun value field =>
  match value with
  | .boolean b => .ok b
  | _ => fail field "must be true or false"

/-- `std::stoi` on digits and dashes: an optional sign, then the longest run of
digits; without one it throws. -/
def stoi (chars : List Char) : Option ℤ :=
  let (sign, rest) :=
    match chars with
    | '-' :: rest => ((-1 : ℤ), rest)
    | rest => (1, rest)
  match rest.takeWhile Char.isDigit with
  | [] => none
  | digits => some (sign * (digits.foldl (fun n c => n * 10 + (c.toNat - '0'.toNat)) 0 : ℕ))

/-- Days in a month of the Gregorian calendar. -/
def daysInMonth (year month : ℤ) : ℤ :=
  if month = 2 then
    if year % 4 = 0 ∧ (year % 100 ≠ 0 ∨ year % 400 = 0) then 29 else 28
  else if month = 4 ∨ month = 6 ∨ month = 9 ∨ month = 11 then 30
  else 31

/-- `year_month_day::ok`. -/
def realDate (year month day : ℤ) : Bool :=
  1 ≤ month ∧ month ≤ 12 ∧ 1 ≤ day ∧ day ≤ daysInMonth year month

/-- The three numbers of a YYYY-MM-DD text, as `substr` and `stoi` read them. -/
def dateParts (s : String) : Option (ℤ × ℤ × ℤ) := do
  let year ← stoi (s.toList.take 4)
  let month ← stoi ((s.toList.drop 5).take 2)
  let day ← stoi ((s.toList.drop 8).take 2)
  pure (year, month, day)

/-- The text has the shape that `date` checks before it reads numbers. -/
def dateShaped (s : String) : Bool :=
  let chars := s.toList
  chars.length = 10 && chars[4]? = some '-' && chars[7]? = some '-' &&
    chars.all fun c => c = '-' || c.isDigit

/-- "YYYY-MM-DD" naming a real calendar date. -/
def date : Reader String := fun value field =>
  match value with
  | .string s =>
      if dateShaped s then
        match dateParts s with
        | none => .error (.runtime "stoi")
        | some (year, month, day) =>
            if realDate year month day then .ok s else fail field "is not a real calendar date"
      else fail field "must be a YYYY-MM-DD string"
  | _ => fail field "must be a YYYY-MM-DD string"

/-- null, or `date`. -/
def nullableDate : Reader (Option String) := fun value field =>
  match value with
  | .null => .ok none
  | value => some <$> date value field

/-- Three ASCII letters, returned uppercased. -/
def currency : Reader String := fun value field =>
  match value with
  | .string s =>
      if s.toList.length = 3 && s.toList.all Char.isAlpha then .ok (s.map Char.toUpper)
      else fail field "must be a 3-letter currency code"
  | _ => fail field "must be a 3-letter currency code"

/-- The number a JSON value is, if it is one. -/
def number : Json → Option ℚ
  | .unsigned u => some u
  | .integer n => some n
  | .float q => some q
  | _ => none

/-- Greater than 0, or null. -/
def nullablePositiveNumber : Reader (Option ℚ) := fun value field =>
  match value with
  | .null => .ok none
  | value =>
      match number value with
      | some q => if q ≤ 0 then fail field "must be a positive number or null" else .ok (some q)
      | none => fail field "must be a positive number or null"

/-- Array of positive integers; duplicates dropped, order kept. -/
def idList : Reader (List ℕ) := fun value field =>
  match value with
  | .array elements =>
      elements.foldlM (fun ids element =>
        match asInt64 element with
        | some n =>
            if n ≤ 0 then fail field "must be an array of positive integer ids"
            else .ok (if ids.contains n.toNat then ids else ids ++ [n.toNat])
        | none => fail field "must be an array of positive integer ids") []
  | _ => fail field "must be an array of ids"

/-- The value under `key` when the body has one, else `target` as it is. -/
def setIfPresent {α : Type} (body : Json) (key : String) (target : α) (read : Reader α) :
    Except Err α :=
  match body.find key with
  | some value => read value key
  | none => .ok target

/-- A key that is absent leaves its target. -/
@[simp] theorem setIfPresent_absent {α : Type} {body : Json} {key : String} (target : α)
    (read : Reader α) (absent : body.find key = none) :
    setIfPresent body key target read = .ok target := by
  simp [setIfPresent, absent]

end JsonInput

end ReceiptScanner
