import ReceiptScanner.Services.ScanWorker
import Mathlib.Data.List.TakeWhile

/-!
# The dates that are accepted

`JsonInput.date` checks a shape that lets a dash stand for any digit, and reads the
numbers with `std::stoi`, which stops at a dash and takes a leading one for a sign. It
accepts the calendar dates, and the texts that are `Lenient`.
-/

namespace ReceiptScanner

open JsonInput

/-- The number that decimal digits write. -/
def decimal (digits : List Char) : ℕ :=
  digits.foldl (fun n c => n * 10 + (c.toNat - '0'.toNat)) 0

/-- A leap year of the proleptic Gregorian calendar. -/
def IsLeap (year : ℕ) : Prop := 4 ∣ year ∧ (100 ∣ year → 400 ∣ year)

instance (year : ℕ) : Decidable (IsLeap year) := by
  unfold IsLeap
  infer_instance

/-- The length of a month. -/
def monthLength (year : ℕ) : ℕ → ℕ
  | 2 => if IsLeap year then 29 else 28
  | 4 | 6 | 9 | 11 => 30
  | _ => 31

/-- Four characters, two and two, with dashes between. -/
structure Fields (s : String) (year month day : List Char) : Prop where
  text : s.toList = year ++ '-' :: (month ++ '-' :: day)
  four : year.length = 4
  two : month.length = 2
  twoDays : day.length = 2

/-- "dddd-dd-dd", and the numbers are a day of the calendar. -/
def IsCalendarDate (s : String) : Prop :=
  ∃ year month day, Fields s year month day ∧ (∀ c ∈ year ++ month ++ day, c.isDigit = true) ∧
    1 ≤ decimal month ∧ decimal month ≤ 12 ∧
    1 ≤ decimal day ∧ decimal day ≤ monthLength (decimal year) (decimal month)

/-- Digits and dashes, with a dash in the place of a digit; and what `std::stoi` reads in
the three fields is a day of the calendar. -/
def Lenient (s : String) : Prop :=
  ∃ year month day, Fields s year month day ∧
    (∀ c ∈ year ++ month ++ day, c = '-' ∨ c.isDigit = true) ∧ '-' ∈ year ++ month ++ day ∧
    ∃ y m d, stoi year = some y ∧ stoi month = some m ∧ stoi day = some d ∧ realDate y m d = true

namespace Fields

variable {s : String} {year month day year' month' day' : List Char}

/-- A text has its fields in one way. -/
theorem unique (first : Fields s year month day) (second : Fields s year' month' day') :
    year = year' ∧ month = month' ∧ day = day' := by
  have same := first.text.symm.trans second.text
  obtain ⟨rfl, rest⟩ := List.append_inj same (first.four.trans second.four.symm)
  obtain ⟨rfl, last⟩ := List.append_inj (List.cons.inj rest).2 (first.two.trans second.two.symm)
  exact ⟨rfl, rfl, (List.cons.inj last).2⟩

/-- What `substr` and `stoi` read. -/
theorem parts (fields : Fields s year month day) :
    dateParts s = (do
      let y ← stoi year
      let m ← stoi month
      let d ← stoi day
      pure (y, m, d)) := by
  obtain ⟨y₁, y₂, y₃, y₄, rfl⟩ := List.length_eq_four.mp fields.four
  obtain ⟨m₁, m₂, rfl⟩ := List.length_eq_two.mp fields.two
  obtain ⟨d₁, d₂, rfl⟩ := List.length_eq_two.mp fields.twoDays
  simp [dateParts, fields.text]

end Fields

section Reading

variable {s : String} {year month day digits : List Char}

/-- The shape that `date` checks. -/
theorem dateShaped_iff : dateShaped s = true ↔ ∃ year month day, Fields s year month day ∧
    ∀ c ∈ year ++ month ++ day, c = '-' ∨ c.isDigit = true := by
  simp only [dateShaped, Bool.and_eq_true, decide_eq_true_eq, List.all_eq_true, Bool.or_eq_true]
  constructor
  · rintro ⟨⟨⟨ten, first⟩, second⟩, loose⟩
    obtain ⟨y₁, y₂, y₃, y₄, a, m₁, m₂, b, d₁, d₂, isList⟩ :
        ∃ y₁ y₂ y₃ y₄ a m₁ m₂ b d₁ d₂, s.toList = [y₁, y₂, y₃, y₄, a, m₁, m₂, b, d₁, d₂] := by
      match isList : s.toList, ten with
      | [y₁, y₂, y₃, y₄, a, m₁, m₂, b, d₁, d₂], _ => exact ⟨_, _, _, _, _, _, _, _, _, _, rfl⟩
    rw [isList] at first second loose
    obtain rfl : a = '-' := by simpa using first
    obtain rfl : b = '-' := by simpa using second
    refine ⟨[y₁, y₂, y₃, y₄], [m₁, m₂], [d₁, d₂], ⟨isList, rfl, rfl, rfl⟩, fun c member => ?_⟩
    refine loose c ?_
    simp only [List.cons_append, List.nil_append, List.mem_cons, List.not_mem_nil, or_false]
      at member ⊢
    tauto
  · rintro ⟨year, month, day, fields, loose⟩
    obtain ⟨y₁, y₂, y₃, y₄, rfl⟩ := List.length_eq_four.mp fields.four
    obtain ⟨m₁, m₂, rfl⟩ := List.length_eq_two.mp fields.two
    obtain ⟨d₁, d₂, rfl⟩ := List.length_eq_two.mp fields.twoDays
    have isList := fields.text
    simp only [List.cons_append, List.nil_append] at isList loose
    rw [isList]
    refine ⟨⟨⟨rfl, rfl⟩, rfl⟩, fun c member => ?_⟩
    by_cases dash : c = '-'
    · exact .inl dash
    · refine loose c ?_
      simp only [List.mem_cons, List.not_mem_nil, or_false] at member ⊢
      tauto

/-- What `date` accepts, it returns as it is. -/
theorem date_eq_ok {field t : String} : date (.string s) field = .ok t ↔
    t = s ∧ ∃ year month day, Fields s year month day ∧
      (∀ c ∈ year ++ month ++ day, c = '-' ∨ c.isDigit = true) ∧
      ∃ y m d, stoi year = some y ∧ stoi month = some m ∧ stoi day = some d ∧
        realDate y m d = true := by
  cases shaped : dateShaped s with
  | false =>
      simp only [date, shaped, fail, Bool.false_eq_true, if_false, reduceCtorEq, false_iff]
      rintro ⟨-, year, month, day, fields, loose, -⟩
      rw [dateShaped_iff.mpr ⟨year, month, day, fields, loose⟩] at shaped
      cases shaped
  | true =>
      obtain ⟨year, month, day, fields, loose⟩ := dateShaped_iff.mp shaped
      have accepted : date (.string s) field = .ok t ↔ t = s ∧ ∃ y m d,
          dateParts s = some (y, m, d) ∧ realDate y m d = true := by
        simp only [date, shaped, if_true]
        cases dateParts s with
        | none => simp
        | some parts =>
            obtain ⟨y, m, d⟩ := parts
            cases real : realDate y m d with
            | false => simp [real, fail]
            | true => simp [real, @eq_comm _ s t]
      rw [accepted, fields.parts]
      refine and_congr_right fun _ => ?_
      constructor
      · rintro ⟨y, m, d, parts, real⟩
        simp only [bind, Option.bind_eq_some_iff, pure, Option.some.injEq, Prod.mk.injEq] at parts
        obtain ⟨_, isYear, _, isMonth, _, isDay, rfl, rfl, rfl⟩ := parts
        exact ⟨year, month, day, fields, loose, _, _, _, isYear, isMonth, isDay, real⟩
      · rintro ⟨year', month', day', fields', -, y, m, d, isYear, isMonth, isDay, real⟩
        obtain ⟨rfl, rfl, rfl⟩ := fields.unique fields'
        exact ⟨y, m, d, by simp [isYear, isMonth, isDay], real⟩

/-- On digits alone `std::stoi` reads their number. -/
theorem stoi_digits (digit : ∀ c ∈ digits, c.isDigit = true) (written : digits ≠ []) :
    stoi digits = some (decimal digits : ℤ) := by
  obtain ⟨first, rest, rfl⟩ := List.exists_cons_of_ne_nil written
  have unsigned : first ≠ '-' := by
    rintro rfl
    exact absurd (digit '-' List.mem_cons_self) (by decide)
  have all := List.takeWhile_eq_self_iff.mpr digit
  unfold stoi
  split
  rename_i sign digits' signed
  split at signed
  · rename_i same
    exact absurd (List.cons.inj same).1 unsigned
  · obtain ⟨rfl, rfl⟩ := Prod.mk.inj signed
    rw [all]
    simp [decimal]

/-- `year_month_day::ok` is the calendar's rule. -/
theorem realDate_iff {y m d : ℕ} : realDate y m d = true ↔
    1 ≤ m ∧ m ≤ 12 ∧ 1 ≤ d ∧ d ≤ monthLength y m := by
  have leap : ((y : ℤ) % 4 = 0 ∧ ((y : ℤ) % 100 ≠ 0 ∨ (y : ℤ) % 400 = 0)) ↔ IsLeap y := by
    unfold IsLeap
    omega
  have days : daysInMonth y m = monthLength y m := by
    unfold daysInMonth
    simp only [leap]
    match m with
    | 2 =>
        simp only [monthLength, Nat.cast_ofNat, if_true]
        split <;> rfl
    | 4 | 6 | 9 | 11 => rfl
    | 0 | 1 | 3 | 5 | 7 | 8 | 10 => rfl
    | n + 12 =>
        have other : monthLength y (n + 12) = 31 := rfl
        rw [other]
        split_ifs <;> first | rfl | omega
  simp only [realDate, days, decide_eq_true_eq]
  omega

end Reading

/-- Fields of digits alone, which `std::stoi` reads as they are written. -/
theorem real_digits {s : String} {year month day : List Char} (fields : Fields s year month day)
    (digit : ∀ c ∈ year ++ month ++ day, c.isDigit = true) :
    (∃ y m d, stoi year = some y ∧ stoi month = some m ∧ stoi day = some d ∧
      realDate y m d = true) ↔ 1 ≤ decimal month ∧ decimal month ≤ 12 ∧
        1 ≤ decimal day ∧ decimal day ≤ monthLength (decimal year) (decimal month) := by
  have isYear := @stoi_digits year (fun c member => digit c (by simp [member]))
    (List.ne_nil_of_length_eq_add_one fields.four)
  have isMonth := @stoi_digits month (fun c member => digit c (by simp [member]))
    (List.ne_nil_of_length_eq_add_one fields.two)
  have isDay := @stoi_digits day (fun c member => digit c (by simp [member]))
    (List.ne_nil_of_length_eq_add_one fields.twoDays)
  rw [isYear, isMonth, isDay, ← realDate_iff]
  simp

/-- `date` accepts the calendar dates and the lenient texts. -/
theorem date_eq_ok_iff {s field t : String} :
    date (.string s) field = .ok t ↔ t = s ∧ (IsCalendarDate s ∨ Lenient s) := by
  rw [date_eq_ok]
  refine and_congr_right fun _ => ?_
  constructor
  · rintro ⟨year, month, day, fields, loose, real⟩
    by_cases dash : '-' ∈ year ++ month ++ day
    · exact .inr ⟨year, month, day, fields, loose, dash, real⟩
    · have digit : ∀ c ∈ year ++ month ++ day, c.isDigit = true := fun c member =>
        (loose c member).resolve_left fun same => dash (same ▸ member)
      exact .inl ⟨year, month, day, fields, digit, (real_digits fields digit).mp real⟩
  · rintro (⟨year, month, day, fields, digit, real⟩ | ⟨year, month, day, fields, loose, -, real⟩)
    · exact ⟨year, month, day, fields, fun c member => .inr (digit c member),
        (real_digits fields digit).mpr real⟩
    · exact ⟨year, month, day, fields, loose, real⟩

/-- No calendar date is lenient. -/
theorem not_isCalendarDate_of_lenient {s : String} (lenient : Lenient s) :
    ¬ IsCalendarDate s := by
  obtain ⟨year, month, day, fields, -, dash, -⟩ := lenient
  rintro ⟨year', month', day', fields', digit, -⟩
  obtain ⟨rfl, rfl, rfl⟩ := fields.unique fields'
  exact absurd (digit '-' dash) (by decide)

/-- A scan result that is kept has passed `date`. -/
theorem date_of_validateResult {result kept : ScanResult} {verifying : Bool} {s : String}
    (dated : result.purchaseDate = some s)
    (validated : ScanWorker.validateResult result verifying = .ok kept) :
    kept.purchaseDate = some s ∧ date (.string s) "purchase_date" = .ok s := by
  simp only [ScanWorker.validateResult, bind_eq_ok, dated] at validated
  obtain ⟨_, -, _, -, _, -, currency, -, _, checked, same⟩ := validated
  obtain rfl := Except.ok.inj same
  refine ⟨rfl, ?_⟩
  cases accepted : date (.string s) "purchase_date" with
  | ok t => rw [(date_eq_ok_iff.mp accepted).1]
  | error raised =>
      rw [accepted] at checked
      cases raised <;> cases checked

/-- The reader accepts the text exactly if it is a calendar date, and returns it as it is;
so do the readers of requests, and so is the date of a scan result that is kept. -/
structure ReadsDate (s : String) : Prop where
  reader : ∀ field t, date (.string s) field = .ok t ↔ t = s ∧ IsCalendarDate s
  request : ∀ field t, nullableDate (.string s) field = .ok (some t) ↔ t = s ∧ IsCalendarDate s
  scanned : ∀ result verifying kept, result.purchaseDate = some s →
    ScanWorker.validateResult result verifying = .ok kept →
    kept.purchaseDate = some s ∧ IsCalendarDate s

/-- The readers do what they should on all texts but the lenient ones. -/
theorem readsDate_iff (s : String) : ReadsDate s ↔ ¬ Lenient s := by
  constructor
  · intro reads lenient
    have accepted : date (.string s) "" = .ok s := date_eq_ok_iff.mpr ⟨rfl, .inr lenient⟩
    exact not_isCalendarDate_of_lenient lenient ((reads.reader "" s).mp accepted).2
  · intro strict
    have reader : ∀ field t, date (.string s) field = .ok t ↔ t = s ∧ IsCalendarDate s := by
      intro field t
      rw [date_eq_ok_iff, or_iff_left strict]
    refine ⟨reader, fun field t => ?_, fun result verifying kept dated validated => ?_⟩
    · rw [← reader field t]
      simp only [nullableDate]
      cases date (.string s) field <;> simp
    · obtain ⟨same, accepted⟩ := date_of_validateResult dated validated
      exact ⟨same, ((reader _ _).mp accepted).2⟩

/-- A year that begins with a dash. -/
theorem not_readsDate_of_negativeYear : ¬ ∀ s, ReadsDate s := by
  intro reads
  have accepted : date (.string "-123-01-01") "purchase_date" = .ok "-123-01-01" := by
    decide +kernel
  have lenient : Lenient "-123-01-01" :=
    ⟨['-', '1', '2', '3'], ['0', '1'], ['0', '1'], ⟨rfl, rfl, rfl, rfl⟩, by simp,
      by decide, -123, 1, 1, by decide, by decide, by decide, by decide⟩
  exact not_isCalendarDate_of_lenient lenient
    (((reads "-123-01-01").reader "purchase_date" "-123-01-01").mp accepted).2

end ReceiptScanner
