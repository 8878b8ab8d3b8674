/-!
# Transaction kinds and the other stored domains

The kind table of the ledger, the scan lane, and where a receipt came from. The
three domains are closed in the schema by CHECK constraints, so a stored value is
an inductive type here; a name that arrives from outside goes through `findKind`.
-/

namespace ReceiptScanner

/-- The direction of the money. -/
inductive Direction where
  | inflow
  | outflow
deriving DecidableEq, Repr

/-- The stored name of a direction. -/
def Direction.name : Direction → String
  | .inflow => "inflow"
  | .outflow => "outflow"

/-- `kDirections`. -/
def kDirections : List Direction := [.inflow, .outflow]

/-- The direction a text names; `isKnownDirection` holds when there is one. -/
def findDirection (name : String) : Option Direction :=
  kDirections.find? fun direction => direction.name == name

/-- The transaction kinds. -/
inductive Kind where
  | purchase
  | refund
  | reimbursement
  | income
  | transfer
deriving DecidableEq, Repr

/-- The stored name of a kind. -/
def Kind.name : Kind → String
  | .purchase => "purchase"
  | .refund => "refund"
  | .reimbursement => "reimbursement"
  | .income => "income"
  | .transfer => "transfer"

/-- The rules of one kind. `scanDocuments` is empty for a kind that the scanner
never classifies a document as. -/
structure KindRules where
  canonicalDirection : Option Direction
  allowsTaxDeductible : Bool
  canOffset : Bool
  isOffsetTarget : Bool
  usesIncomeCategories : Bool
  scanDocuments : String

/-- A scanner may classify a document as this kind. -/
def KindRules.scannable (rules : KindRules) : Bool := !rules.scanDocuments.isEmpty

/-- `kKinds`, in its order. -/
def kKinds : List Kind := [.purchase, .refund, .reimbursement, .income, .transfer]

/-- The table row of a kind. -/
def rulesFor : Kind → KindRules
  | .purchase =>
    { canonicalDirection := some .outflow
      allowsTaxDeductible := true
      canOffset := false
      isOffsetTarget := true
      usesIncomeCategories := false
      scanDocuments := "a receipt, tax invoice or order confirmation for something bought" }
  | .refund =>
    { canonicalDirection := some .inflow
      allowsTaxDeductible := false
      canOffset := true
      isOffsetTarget := false
      usesIncomeCategories := false
      scanDocuments := "a return or refund docket from the business that sold something: " ++
        "money back for a return" }
  | .reimbursement =>
    { canonicalDirection := some .inflow
      allowsTaxDeductible := false
      canOffset := true
      isOffsetTarget := false
      usesIncomeCategories := false
      scanDocuments := "proof that someone (an employer, a friend) paid the user back for an " ++
        "expense: an expense app or claim marked reimbursed or paid, a remittance advice, " ++
        "a payment notification" }
  | .income =>
    { canonicalDirection := some .inflow
      allowsTaxDeductible := false
      canOffset := false
      isOffsetTarget := false
      usesIncomeCategories := true
      scanDocuments := "a payslip, pay advice or paycheck" }
  | .transfer =>
    { canonicalDirection := none
      allowsTaxDeductible := false
      canOffset := false
      isOffsetTarget := false
      usesIncomeCategories := false
      scanDocuments := "" }

/-- `kDefaultKind`: manual entry's default, and an upload's provisional kind. -/
def kDefaultKind : Kind := .purchase

/-- The kind a text names, if any. -/
def findKind (name : String) : Option Kind := kKinds.find? fun kind => kind.name == name

/-- The allowed kinds, as error messages list them. -/
def kindNames : String := ", ".intercalate (kKinds.map Kind.name)

/-- `r.kind IN (...)` with the list of `incomeKindsSqlList`, as a test on a row's kind. -/
def inIncomeKinds (kind : Kind) : Bool :=
  (kKinds.filter fun listed => (rulesFor listed).usesIncomeCategories).contains kind

/-- Every kind is listed in the table. -/
theorem mem_kKinds (kind : Kind) : kind ∈ kKinds := by
  cases kind <;> decide

/-- The table's own assertion: a scannable kind has a fixed direction. -/
theorem canonicalDirection_of_scannable {kind : Kind} (scannable : (rulesFor kind).scannable) :
    ((rulesFor kind).canonicalDirection).isSome := by
  cases kind with
  | transfer => simp [KindRules.scannable, rulesFor] at scannable
  | _ => rfl

/-- No kind both carries offset links and is pointed at by them. -/
theorem not_isOffsetTarget_of_canOffset {kind : Kind} (offsets : (rulesFor kind).canOffset) :
    (rulesFor kind).isOffsetTarget = false := by
  cases kind with
  | purchase => simp [rulesFor] at offsets
  | _ => rfl

/-- Names tell kinds apart. -/
theorem findKind_name (kind : Kind) : findKind kind.name = some kind := by
  cases kind <;> decide

/-- The spliced SQL list is the table's income side. -/
theorem inIncomeKinds_eq (kind : Kind) :
    inIncomeKinds kind = (rulesFor kind).usesIncomeCategories := by
  cases kind <;> decide

/-- The scan lane of a receipt. -/
inductive ScanState where
  | idle
  | uploaded
  | scanning
  | scanFailed
deriving DecidableEq, Repr

/-- The stored name of a scan state. -/
def ScanState.name : ScanState → String
  | .idle => "idle"
  | .uploaded => "uploaded"
  | .scanning => "scanning"
  | .scanFailed => "scan_failed"

/-- Where a receipt came from. -/
inductive Source where
  | scanned
  | manual
  | recurring
deriving DecidableEq, Repr

/-- The stored name of a source. -/
def Source.name : Source → String
  | .scanned => "scanned"
  | .manual => "manual"
  | .recurring => "recurring"

end ReceiptScanner
