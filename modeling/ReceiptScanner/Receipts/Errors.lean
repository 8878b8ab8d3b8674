import ReceiptScanner.ReadCommitted.Statement

/-!
# Exceptions

One type for everything a service can throw. `what` is the message a client or
a log sees.
-/

namespace ReceiptScanner

open ReadCommitted

/-- The exceptions, by class. -/
inductive Err where
  | receiptNotFound
  | notFound (message : String)
  | validation (message : String)
  | conflict (message : String)
  | tooManyImages
  | duplicateEmail
  | imageDecode (message : String)
  | scanError (message : String)
  | sql (failure : SqlFailure)
  | runtime (message : String)
  | nonStd
deriving DecidableEq, Repr

/-- The text libpq gives a refused statement. -/
def sqlMessage : SqlFailure → String
  | .unique => "duplicate key value violates unique constraint"
  | .foreignKey => "violates foreign key constraint"
  | .check => "violates check constraint"
  | .other => "database error"

/-- `what()`; what is not a `std::exception` has none. -/
def Err.what : Err → String
  | .receiptNotFound => "receipt not found"
  | .notFound message => message
  | .validation message => message
  | .conflict message => message
  | .tooManyImages => "image cap exceeded"
  | .duplicateEmail => "email already registered"
  | .imageDecode message => message
  | .scanError message => message
  | .sql failure => sqlMessage failure
  | .runtime message => message
  | .nonStd => "non-std exception"

/-- The message contains Postgres's wording for a unique violation. -/
def Err.isDuplicateKey : Err → Bool
  | .sql .unique => true
  | _ => false

section Throwing

variable {α β : Type}

/-- A sequence that returned had a first part that returned. -/
theorem bind_eq_ok {first : Except Err α} {rest : α → Except Err β} {value : β} :
    (first >>= rest) = .ok value ↔ ∃ middle, first = .ok middle ∧ rest middle = .ok value := by
  cases first with
  | error raised => simp [bind, Except.bind]
  | ok middle => simp [bind, Except.bind]

/-- A loop that returned ran its body over every element. -/
theorem mapM_eq_ok {body : α → Except Err β} {elements : List α} {values : List β} :
    elements.mapM body = .ok values ↔
      List.Forall₂ (fun element value => body element = .ok value) elements values := by
  induction elements generalizing values with
  | nil =>
      rw [List.mapM_nil, List.forall₂_nil_left_iff]
      constructor
      · rintro ⟨⟩
        rfl
      · rintro rfl
        rfl
  | cons element rest inductionHypothesis =>
      rw [List.mapM_cons, bind_eq_ok, List.forall₂_cons_left_iff]
      constructor
      · rintro ⟨value, first, later⟩
        obtain ⟨others, loop, same⟩ := bind_eq_ok.mp later
        cases same
        exact ⟨value, others, first, inductionHypothesis.mp loop, rfl⟩
      · rintro ⟨value, others, first, loop, rfl⟩
        exact ⟨value, first, bind_eq_ok.mpr ⟨others, inductionHypothesis.mpr loop, rfl⟩⟩

/-- `if (bad) throw ValidationError(message);` -/
def rejectIf (bad : Bool) (message : String) : Except Err Unit :=
  if bad then .error (.validation message) else .ok ()

@[simp] theorem rejectIf_eq_ok {bad : Bool} {message : String} {returned : Unit} :
    rejectIf bad message = .ok returned ↔ bad = false := by
  cases bad <;> simp [rejectIf]

end Throwing

end ReceiptScanner
