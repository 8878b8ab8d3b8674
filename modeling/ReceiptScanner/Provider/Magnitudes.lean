import ReceiptScanner.Provider.Agreement

/-!
# Scanned amounts are magnitudes

The figures of a reply are rounded to cents, made magnitudes and added up in `int64_t`. No
step of that is checked; they stay in range just as long as the printed figures are small.
-/

namespace ReceiptScanner

namespace Json

theorem member_eq_ok {value found : Json} {key : String} :
    value.member key = .ok found ↔ value.find key = some found := by
  constructor
  · intro isThere
    unfold member at isThere
    split at isThere
    · next other => cases isThere; exact other
    · cases isThere
    · cases isThere
  · exact member_eq

theorem getString_eq_ok {value : Json} {text : String} :
    value.getString = .ok text ↔ value = .string text := by
  cases value <;> simp [getString, wrongType]

theorem getDouble_eq_ok {value : Json} {q : ℚ} :
    value.getDouble = .ok q ↔ JsonInput.number value = some q := by
  unfold getDouble
  split
  · next isNumber => simp [isNumber]
  · next isNumber => simp [isNumber, wrongType]

theorem getBool_eq_ok {value : Json} {flag : Bool} :
    value.getBool = .ok flag ↔ value = .boolean flag := by
  cases value <;> simp [getBool, wrongType]

end Json

namespace AnthropicScanProvider

section Figures

variable (context : ScanContext) (output : Json)

/-- The lines that the loop over the items visits. -/
def linesRead : List Json := ((output.find "items").map Json.iterate).getD []

/-- The printed amount of a line, in cents that are not rounded yet. -/
def printedCents (line : Json) : ℚ := (optNumber line "amount").getD 0 * 100

/-- The flag of a line that carries information only. -/
def isInformational (line : Json) : Bool :=
  match line.find "informational" with
  | some (.boolean flag) => flag
  | _ => false

/-- The lines that become items: all of a refund, and else those that do not round to a
negative amount. -/
def keepsLine (line : Json) : Bool :=
  isRefund context output || 0 ≤ llround (printedCents line)

/-- The lines that `itemsAddUp` counts. -/
def countsLine (line : Json) : Bool := keepsLine context output line && !isInformational line

/-- The item of a line, with the magnitude of its amount. -/
structure ItemOf (line : Json) (item : ScannedItem) : Prop where
  name : item.name = optText line "name"
  quantity : item.quantity = (optNumber line "quantity").filter (0 < ·)
  unitPrice : item.unitPriceCents =
    ((optNumber line "unit_price").filter (0 ≤ ·)).map fun price => llround (price * 100)
  amount : item.amountCents = |llround (printedCents line)|
  category : item.category = optText line "category"
  informational : item.informational = isInformational line

/-- The amounts of a result are magnitudes, and its items are the kept lines in order. -/
structure Magnitudes (result : ScanResult) : Prop where
  total : 0 ≤ result.totalCents
  amounts : ∀ item ∈ result.items, 0 ≤ item.amountCents
  unitPrices : ∀ item ∈ result.items, ∀ price, item.unitPriceCents = some price → 0 ≤ price
  quantities : ∀ item ∈ result.items, ∀ quantity, item.quantity = some quantity → 0 < quantity
  kept : List.Forall₂ ItemOf ((linesRead output).filter (keepsLine context output)) result.items

/-- A figure is converted to cents, and so is its magnitude. -/
def ConvertsAbs (figure : ℚ) : Prop :=
  fitsInt64 (llround (figure * 100)) ∧ fitsInt64 |llround (figure * 100)|

/-- No conversion, magnitude, negation or running sum leaves `int64_t`, in the parser or in
`itemsAddUp` of the result with its record `raw`. -/
structure InRange (raw : Json) (result : ScanResult) : Prop where
  total : ∀ total, optNumber output "total" = some total → ConvertsAbs total
  amounts : ∀ line ∈ linesRead output, fitsInt64 (llround (printedCents line))
  negations : isRefund context output → ∀ line ∈ linesRead output,
    llround (printedCents line) < 0 → fitsInt64 (-llround (printedCents line))
  unitPrices : ∀ line ∈ linesRead output, ∀ price, optNumber line "unit_price" = some price →
    0 ≤ price → fitsInt64 (llround (price * 100))
  subtotal : ∀ subtotal, subtotalOf raw = some subtotal → ConvertsAbs subtotal
  sums : ∀ sum ∈ result.items.scanl addItem 0, fitsInt64 sum

/-- The largest `int64_t` is not reached by half a cent. -/
def SmallFigure (figure : ℚ) : Prop := |figure * 100| < 9223372036854775807 + 1 / 2

/-- The printed figures are small. A line that is dropped for its negative amount may be one
cent larger than the others; the lines that count are also small together. -/
structure SmallFigures : Prop where
  total : ∀ total, optNumber output "total" = some total → SmallFigure total
  subtotal : ∀ subtotal, optNumber output "subtotal" = some subtotal → SmallFigure subtotal
  amounts : ∀ line ∈ linesRead output, |printedCents line| <
    (if 0 ≤ printedCents line || isRefund context output then 9223372036854775807
      else 9223372036854775808) + 1 / 2
  unitPrices : ∀ line ∈ linesRead output, ∀ price, optNumber line "unit_price" = some price →
    0 ≤ price → SmallFigure price
  together : (((linesRead output).filter (countsLine context output)).map fun line =>
    |llround (printedCents line)|).sum ≤ 9223372036854775807

end Figures

section Reading

variable (json : JsonText) (body : String) (context : ScanContext) (result : ScanResult)

/-- A result with the response, the output and the record it was read from. -/
structure ParsedFrom (response output raw : Json) : Prop where
  isJson : json.parse body = .ok response
  found : outputOf json body = some output
  recorded : rawRecord response output = .ok raw
  read : ∃ fields, parseOutput context output = .ok fields ∧
    result = { fields with raw := json.dump raw }

/-- The claim of the parser's amounts: magnitudes, and nothing out of range on the way. -/
def SoundAmounts : Prop :=
  ∃ response output raw, ParsedFrom json body context result response output raw ∧
    Magnitudes context output result ∧ InRange context output raw result

variable {json body context result}

theorem parseText_eq_ok {response block : Json}
    (parsed : parseText json context response block = .ok result) :
    ∃ text output raw, block.find "text" = some (.string text) ∧ json.parse text = .ok output ∧
      rawRecord response output = .ok raw ∧ ∃ fields, parseOutput context output = .ok fields ∧
        result = { fields with raw := json.dump raw } := by
  unfold parseText at parsed
  obtain ⟨value, isThere, read⟩ := bind_eq_ok.mp parsed
  obtain ⟨text, isText, asJson⟩ := bind_eq_ok.mp read
  rw [Json.member_eq_ok] at isThere
  rw [Json.getString_eq_ok] at isText
  subst isText
  split at asJson
  · cases asJson
  · next output isOutput =>
      obtain ⟨fields, readFields, rest⟩ := bind_eq_ok.mp asJson
      obtain ⟨raw, recorded, same⟩ := bind_eq_ok.mp rest
      cases same
      exact ⟨text, output, raw, isThere, isOutput, recorded, fields, readFields, rfl⟩

/-- A result was read from an output. -/
theorem exists_parsedFrom (parsed : parseResponse json body context = .ok result) :
    ∃ response output raw, ParsedFrom json body context result response output raw := by
  unfold parseResponse at parsed
  split at parsed
  case h_2 => cases parsed
  case h_1 members isJson =>
    unfold parseReply at parsed
    obtain ⟨stopReason, _, parsed⟩ := bind_eq_ok.mp parsed
    obtain ⟨_, _, parsed⟩ := bind_eq_ok.mp parsed
    obtain ⟨_, _, parsed⟩ := bind_eq_ok.mp parsed
    obtain ⟨block, first, parsed⟩ := bind_eq_ok.mp parsed
    cases block with
    | none => cases parsed
    | some block =>
        have caught : parseText json context (.object members) block = .ok result := by
          cases outcome : parseText json context (.object members) block with
          | ok value =>
              simp only [outcome, mismatch] at parsed
              exact parsed
          | error raised => cases raised <;> simp [outcome, mismatch] at parsed
        obtain ⟨text, output, raw, isText, isOutput, recorded, read⟩ := parseText_eq_ok caught
        refine ⟨.object members, output, raw, isJson, ?_, recorded, read⟩
        simp only [outputOf, isJson, first, isText, isOutput]
        rfl

/-- The record keeps the output, and so its subtotal. -/
theorem subtotalOf_eq {response output raw : Json}
    (recorded : rawRecord response output = .ok raw) :
    subtotalOf raw = optNumber output "subtotal" := by
  unfold rawRecord at recorded
  obtain ⟨model, _, recorded⟩ := bind_eq_ok.mp recorded
  obtain ⟨messageId, _, same⟩ := bind_eq_ok.mp recorded
  cases same
  rfl

/-- The kind of a result is a refund's just if the reply is one's. -/
theorem isRefund_iff {output : Json} {kind : String} (known : kindOf context output = .ok kind) :
    isRefund context output ↔ kind = "refund" := by
  obtain ⟨knownKind, _, _, _⟩ := context
  cases knownKind with
  | some given =>
      obtain rfl : given.name = kind := Except.ok.inj known
      show decide (given = .refund) = true ↔ given.name = "refund"
      cases given <;> decide
  | none =>
      obtain ⟨value, isThere, isText⟩ := bind_eq_ok.mp known
      rw [Json.member_eq_ok] at isThere
      rw [Json.getString_eq_ok] at isText
      subst isText
      simp only [isRefund, Json.textOf, isThere, decide_eq_true_eq]

end Reading

section Line

/-- What the parser makes of a line before it looks at the sign of its amount. -/
structure LineItem (line : Json) (item : ScannedItem) : Prop where
  name : item.name = optText line "name"
  quantity : item.quantity = (optNumber line "quantity").filter (0 < ·)
  unitPrice : item.unitPriceCents = ((optNumber line "unit_price").filter (0 ≤ ·)).map toCents
  amount : item.amountCents = llroundInt64 (printedCents line)
  category : item.category = optText line "category"
  informational : item.informational = isInformational line

theorem lineItem_of_toItem {line : Json} {item : ScannedItem} (read : toItem line = .ok item) :
    LineItem line item := by
  unfold toItem at read
  obtain ⟨amountValue, amountThere, read⟩ := bind_eq_ok.mp read
  obtain ⟨amount, isNumber, read⟩ := bind_eq_ok.mp read
  obtain ⟨flagValue, flagThere, read⟩ := bind_eq_ok.mp read
  obtain ⟨flag, isFlag, read⟩ := bind_eq_ok.mp read
  obtain ⟨tags, _, same⟩ := bind_eq_ok.mp read
  rw [Json.member_eq_ok] at amountThere flagThere
  rw [Json.getDouble_eq_ok] at isNumber
  rw [Json.getBool_eq_ok] at isFlag
  subst isFlag
  cases same
  have number : optNumber line "amount" = some amount := by
    simp only [optNumber, amountThere, Option.bind_some, isNumber]
  refine ⟨rfl, rfl, rfl, ?_, rfl, ?_⟩
  · simp only [printedCents, number, Option.getD_some, toCents]
  · simp only [isInformational, flagThere]

variable {context : ScanContext} {output : Json} {kind : String}

/-- A line whose figures fit becomes the item with its magnitude, or no item where it is
dropped. -/
theorem keepItem_eq {line : Json} {item : ScannedItem} (read : LineItem line item)
    (refund : isRefund context output ↔ kind = "refund")
    (fits : fitsInt64 (llround (printedCents line)))
    (negation : isRefund context output → llround (printedCents line) < 0 →
      fitsInt64 (-llround (printedCents line)))
    (price : ∀ price, optNumber line "unit_price" = some price → 0 ≤ price →
      fitsInt64 (llround (price * 100))) :
    (keepsLine context output line = true ∧
        ∃ stored, keepItem kind item = some stored ∧ ItemOf line stored) ∨
      (keepsLine context output line = false ∧ keepItem kind item = none) := by
  have cents : item.amountCents = llround (printedCents line) := by
    rw [read.amount, llroundInt64_eq fits]
  have priced : item.unitPriceCents =
      ((optNumber line "unit_price").filter (0 ≤ ·)).map fun price => llround (price * 100) := by
    rw [read.unitPrice]
    apply Option.map_congr
    intro q kept
    obtain ⟨found, nonneg⟩ := Option.filter_eq_some_iff.mp kept
    exact toCents_eq (price q found (by simpa using nonneg))
  by_cases negative : llround (printedCents line) < 0
  · by_cases isOne : isRefund context output
    · left
      have least : llround (printedCents line) ≠ int64Min := by
        intro least
        have flipped := negation isOne negative
        rw [least] at flipped
        cases flipped
      have flipped : negInt64 item.amountCents = |llround (printedCents line)| := by
        rw [cents, negInt64, if_neg least, abs_of_neg negative]
      refine ⟨by simp [keepsLine, isOne], { item with amountCents := negInt64 item.amountCents },
        ?_, ?_⟩
      · simp only [keepItem, cents, negative, if_true, refund.mp isOne]
      · exact ⟨read.name, read.quantity, priced, flipped, read.category, read.informational⟩
    · right
      refine ⟨by simp [keepsLine, isOne, negative], ?_⟩
      simp only [keepItem, cents, negative, if_true, mt refund.mpr isOne, if_false]
  · left
    refine ⟨by simp [keepsLine, not_lt.mp negative], item, ?_, ?_⟩
    · simp only [keepItem, cents, negative, if_false]
    · refine ⟨read.name, read.quantity, priced, ?_, read.category, read.informational⟩
      rw [cents, abs_of_nonneg (not_lt.mp negative)]

/-- Every item is a line's. -/
theorem exists_line {lines : List Json} {items : List ScannedItem}
    (kept : List.Forall₂ ItemOf lines items) {item : ScannedItem} (among : item ∈ items) :
    ∃ line, ItemOf line item := by
  induction kept with
  | nil => cases among
  | @cons line head lines items itemOf _ inductionHypothesis =>
      obtain rfl | among := List.mem_cons.mp among
      · exact ⟨line, itemOf⟩
      · exact inductionHypothesis among

theorem ItemOf.amount_nonneg {line : Json} {item : ScannedItem} (itemOf : ItemOf line item) :
    0 ≤ item.amountCents := by
  rw [itemOf.amount]
  exact abs_nonneg _

theorem ItemOf.unitPrice_nonneg {line : Json} {item : ScannedItem} (itemOf : ItemOf line item)
    {price : ℤ} (priced : item.unitPriceCents = some price) : 0 ≤ price := by
  rw [itemOf.unitPrice] at priced
  obtain ⟨q, kept, rfl⟩ := Option.map_eq_some_iff.mp priced
  have nonneg := (Option.filter_eq_some_iff.mp kept).2
  rw [decide_eq_true_eq] at nonneg
  apply llround_nonneg
  linarith

theorem ItemOf.quantity_pos {line : Json} {item : ScannedItem} (itemOf : ItemOf line item)
    {quantity : ℚ} (measured : item.quantity = some quantity) : 0 < quantity := by
  rw [itemOf.quantity] at measured
  exact of_decide_eq_true (Option.filter_eq_some_iff.mp measured).2

/-- Lines whose figures fit become the kept items, in order. -/
theorem items_kept {lines : List Json} {items : List ScannedItem}
    (read : List.Forall₂ LineItem lines items)
    (refund : isRefund context output ↔ kind = "refund")
    (fits : ∀ line ∈ lines, fitsInt64 (llround (printedCents line)))
    (negations : isRefund context output → ∀ line ∈ lines,
      llround (printedCents line) < 0 → fitsInt64 (-llround (printedCents line)))
    (prices : ∀ line ∈ lines, ∀ price, optNumber line "unit_price" = some price → 0 ≤ price →
      fitsInt64 (llround (price * 100))) :
    List.Forall₂ ItemOf (lines.filter (keepsLine context output))
      (items.filterMap (keepItem kind)) := by
  induction read with
  | nil => exact .nil
  | @cons line item lines items head _ inductionHypothesis =>
      have rest := inductionHypothesis (fun line among => fits line (by simp [among]))
        (fun isOne line among => negations isOne line (by simp [among]))
        (fun line among => prices line (by simp [among]))
      have first := keepItem_eq head refund (fits line (by simp))
        (fun isOne => negations isOne line (by simp)) (prices line (by simp))
      obtain ⟨keeps, stored, made, itemOf⟩ | ⟨drops, nothing⟩ := first
      · rw [List.filter_cons_of_pos keeps, List.filterMap_cons_some made]
        exact .cons itemOf rest
      · rw [List.filter_cons_of_neg (by simp [drops]), List.filterMap_cons_none nothing]
        exact rest

end Line

section Sums

/-- The sum is that of the items that count. -/
theorem foldl_addItem (items : List ScannedItem) (start : ℤ) :
    items.foldl addItem start =
      start + ((items.filter fun item => !item.informational).map (·.amountCents)).sum := by
  induction items generalizing start with
  | nil => simp
  | cons item rest inductionHypothesis =>
      rw [List.foldl_cons, inductionHypothesis]
      cases flag : item.informational with
      | true => simp [addItem, flag]
      | false => simp [addItem, flag, add_assoc]

/-- Magnitudes only add up: no running sum passes the last one. -/
theorem scanl_addItem_le {items : List ScannedItem} (nonneg : ∀ item ∈ items, 0 ≤ item.amountCents)
    (start : ℤ) : ∀ sum ∈ items.scanl addItem start,
      start ≤ sum ∧ sum ≤ items.foldl addItem start := by
  induction items generalizing start with
  | nil => simp
  | cons item rest inductionHypothesis =>
      have grows : start ≤ addItem start item := by
        have magnitude := nonneg item (by simp)
        unfold addItem
        split <;> omega
      have later := inductionHypothesis (fun other among => nonneg other (by simp [among]))
        (addItem start item)
      have last : addItem start item ≤ rest.foldl addItem (addItem start item) := by
        cases rest with
        | nil => exact le_refl _
        | cons next rest => exact (later (addItem start item) (by simp [List.scanl])).2
      intro sum among
      rw [List.scanl_cons, List.mem_cons] at among
      obtain rfl | among := among
      · exact ⟨le_refl _, grows.trans last⟩
      · exact ⟨grows.trans (later sum among).1, (later sum among).2⟩

theorem foldl_mem_scanl (items : List ScannedItem) (start : ℤ) :
    items.foldl addItem start ∈ items.scanl addItem start := by
  induction items generalizing start with
  | nil => simp
  | cons item rest inductionHypothesis =>
      rw [List.scanl_cons, List.foldl_cons]
      exact List.mem_cons_of_mem start (inductionHypothesis _)

variable {context : ScanContext} {output : Json}

/-- The items add up to the magnitudes of the lines that count. -/
theorem sum_kept {items : List ScannedItem}
    (kept : List.Forall₂ ItemOf ((linesRead output).filter (keepsLine context output)) items) :
    items.foldl addItem 0 = (((linesRead output).filter (countsLine context output)).map
      fun line => |llround (printedCents line)|).sum := by
  have counted : (linesRead output).filter (countsLine context output) =
      ((linesRead output).filter (keepsLine context output)).filter
        fun line => !isInformational line := by
    rw [List.filter_filter]
    apply List.filter_congr
    intro line _
    simp [countsLine, Bool.and_comm]
  rw [foldl_addItem, zero_add, counted]
  generalize (linesRead output).filter (keepsLine context output) = lines at kept
  induction kept with
  | nil => rfl
  | @cons line item lines items head _ inductionHypothesis =>
      cases flag : isInformational line with
      | true => simp [flag, head.informational, inductionHypothesis]
      | false => simp [flag, head.informational, head.amount, inductionHypothesis]

/-- The running sums fit just if the lines that count are small together. -/
theorem sums_fit_iff {items : List ScannedItem}
    (kept : List.Forall₂ ItemOf ((linesRead output).filter (keepsLine context output)) items) :
    (∀ sum ∈ items.scanl addItem 0, fitsInt64 sum) ↔
      (((linesRead output).filter (countsLine context output)).map
        fun line => |llround (printedCents line)|).sum ≤ 9223372036854775807 := by
  rw [← sum_kept kept]
  have nonneg : ∀ item ∈ items, 0 ≤ item.amountCents := by
    intro item among
    obtain ⟨line, itemOf⟩ := exists_line kept among
    exact itemOf.amount_nonneg
  unfold fitsInt64 int64Min
  simp only [Bool.and_eq_true, decide_eq_true_eq]
  constructor
  · intro fit
    exact (fit _ (foldl_mem_scanl items 0)).2
  · intro small sum among
    have bounds := scanl_addItem_le nonneg 0 sum among
    omega

end Sums

section Exact

variable {json : JsonText} {body : String} {context : ScanContext} {result : ScanResult}
  {response output raw : Json}

theorem convertsAbs_iff (figure : ℚ) : ConvertsAbs figure ↔ SmallFigure figure :=
  fitsInt64_abs_llround_iff

/-- A line's amount fits, and its negation where a refund takes it. -/
theorem amount_fits_iff (line : Json) :
    (fitsInt64 (llround (printedCents line)) = true ∧ (isRefund context output →
        llround (printedCents line) < 0 → fitsInt64 (-llround (printedCents line)) = true)) ↔
      |printedCents line| <
        (if 0 ≤ printedCents line || isRefund context output then 9223372036854775807
          else 9223372036854775808) + 1 / 2 := by
  by_cases nonneg : 0 ≤ printedCents line
  · have rounded := llround_nonneg nonneg
    simp only [nonneg, decide_true, Bool.true_or, if_true, abs_of_nonneg,
      fitsInt64_llround_iff nonneg, not_lt.mpr rounded, IsEmpty.forall_iff, implies_true, and_true]
  · have negative := not_le.mp nonneg
    by_cases refund : isRefund context output
    · have rounded : llround (printedCents line) ≤ 0 := by
        have flipped := llround_nonneg (neg_nonneg.mpr negative.le)
        rw [llround_neg] at flipped
        omega
      simp only [refund, Bool.or_true, if_true, forall_const, ← fitsInt64_abs_llround_iff,
        abs_of_nonpos rounded]
      apply and_congr_right
      intro fits
      constructor
      · intro flips
        rcases rounded.lt_or_eq with less | zero
        · exact flips less
        · rw [zero]
          rfl
      · exact fun flipped _ => flipped
    · simp [nonneg, refund, fitsInt64_llround_neg_iff negative]

/-- What the fields of a result are, before anything is known of their size. -/
theorem ParsedFrom.fields (parsed : ParsedFrom json body context result response output raw) :
    ∃ kind total items, kindOf context output = .ok kind ∧ optNumber output "total" = some total ∧
      List.Forall₂ LineItem (linesRead output) items ∧
      result.totalCents = llabs (toCents total) ∧ result.items = items.filterMap (keepItem kind) := by
  obtain ⟨fields, read, rfl⟩ := parsed.read
  unfold parseOutput at read
  obtain ⟨_, _, read⟩ := bind_eq_ok.mp read
  obtain ⟨kind, kindRead, read⟩ := bind_eq_ok.mp read
  obtain ⟨_, _, read⟩ := bind_eq_ok.mp read
  obtain ⟨_, _, read⟩ := bind_eq_ok.mp read
  obtain ⟨totalValue, totalThere, read⟩ := bind_eq_ok.mp read
  obtain ⟨total, isNumber, read⟩ := bind_eq_ok.mp read
  obtain ⟨lines, linesThere, read⟩ := bind_eq_ok.mp read
  obtain ⟨items, itemsRead, same⟩ := bind_eq_ok.mp read
  rw [Json.member_eq_ok] at totalThere linesThere
  rw [Json.getDouble_eq_ok] at isNumber
  cases same
  refine ⟨kind, total, items, kindRead, ?_, ?_, rfl, rfl⟩
  · simp only [optNumber, totalThere, Option.bind_some, isNumber]
  · simp only [linesRead, linesThere, Option.map_some, Option.getD_some]
    exact (mapM_eq_ok.mp itemsRead).imp fun _ _ each => lineItem_of_toItem each

/-- Small figures come out as magnitudes. -/
theorem ParsedFrom.magnitudes (parsed : ParsedFrom json body context result response output raw)
    (small : SmallFigures context output) : Magnitudes context output result := by
  obtain ⟨kind, total, items, kindRead, isTotal, lines, totalCents, kept⟩ := parsed.fields
  have lineFits := fun line among => amount_fits_iff line |>.mpr (small.amounts line among)
  have itemsOf : List.Forall₂ ItemOf ((linesRead output).filter (keepsLine context output))
      result.items := by
    rw [kept]
    apply items_kept lines (isRefund_iff kindRead)
    · exact fun line among => (lineFits line among).1
    · exact fun isOne line among => (lineFits line among).2 isOne
    · intro line among price priced nonneg
      exact ((convertsAbs_iff price).mpr (small.unitPrices line among price priced nonneg)).1
  refine ⟨?_, ?_, ?_, ?_, itemsOf⟩
  · have fits := (convertsAbs_iff total).mpr (small.total total isTotal)
    rw [totalCents, llabs_nonneg_iff, toCents_eq fits.1]
    intro least
    have magnitude := fits.2
    rw [least] at magnitude
    cases magnitude
  · intro item among
    obtain ⟨line, itemOf⟩ := exists_line itemsOf among
    exact itemOf.amount_nonneg
  · intro item among price priced
    obtain ⟨line, itemOf⟩ := exists_line itemsOf among
    exact itemOf.unitPrice_nonneg priced
  · intro item among quantity measured
    obtain ⟨line, itemOf⟩ := exists_line itemsOf among
    exact itemOf.quantity_pos measured

/-- Where the amounts are magnitudes, they are in range just if the figures are small. -/
theorem ParsedFrom.inRange_iff (parsed : ParsedFrom json body context result response output raw)
    (magnitudes : Magnitudes context output result) :
    InRange context output raw result ↔ SmallFigures context output := by
  constructor
  · intro range
    refine ⟨?_, ?_, ?_, ?_, (sums_fit_iff magnitudes.kept).mp range.sums⟩
    · intro total isTotal
      exact (convertsAbs_iff total).mp (range.total total isTotal)
    · intro subtotal isSubtotal
      rw [← subtotalOf_eq parsed.recorded] at isSubtotal
      exact (convertsAbs_iff subtotal).mp (range.subtotal subtotal isSubtotal)
    · intro line among
      rw [← amount_fits_iff]
      exact ⟨range.amounts line among, fun isOne => range.negations isOne line among⟩
    · intro line among price priced nonneg
      have fits := range.unitPrices line among price priced nonneg
      rw [fitsInt64_llround_iff (by linarith)] at fits
      unfold SmallFigure
      rwa [abs_of_nonneg (by linarith)]
  · intro small
    refine ⟨?_, ?_, ?_, ?_, ?_, (sums_fit_iff magnitudes.kept).mpr small.together⟩
    · intro total isTotal
      exact (convertsAbs_iff total).mpr (small.total total isTotal)
    · intro line among
      exact ((amount_fits_iff line).mpr (small.amounts line among)).1
    · intro isOne line among
      exact ((amount_fits_iff line).mpr (small.amounts line among)).2 isOne
    · intro line among price priced nonneg
      exact ((convertsAbs_iff price).mpr (small.unitPrices line among price priced nonneg)).1
    · intro subtotal isSubtotal
      rw [subtotalOf_eq parsed.recorded] at isSubtotal
      exact (convertsAbs_iff subtotal).mpr (small.subtotal subtotal isSubtotal)

/-- The parser's amounts are magnitudes, and nothing overflows on the way to them and in
`itemsAddUp`, exactly when the printed figures are small. -/
theorem soundAmounts_iff (parsed : parseResponse json body context = .ok result) :
    SoundAmounts json body context result ↔
      ∃ output, outputOf json body = some output ∧ SmallFigures context output := by
  constructor
  · rintro ⟨response, output, raw, source, magnitudes, range⟩
    exact ⟨output, source.found, (source.inRange_iff magnitudes).mp range⟩
  · rintro ⟨output, found, small⟩
    obtain ⟨response, other, raw, source⟩ := exists_parsedFrom parsed
    obtain rfl : output = other := Option.some.inj (found.symm.trans source.found)
    have magnitudes := source.magnitudes small
    exact ⟨response, output, raw, source, magnitudes, (source.inRange_iff magnitudes).mpr small⟩

end Exact

section Docket

/-- A docket of one line over 12.50, and its total. -/
def docketOutput (total : ℚ) : Json :=
  .object [("currency", .string "AUD"), ("total", .float total), ("items", .array
    [.object [("amount", .float (25 / 2)), ("informational", .boolean false)]]),
    ("kind", .string "purchase")]

/-- Its text, with the total as it is printed. -/
def docketText (total : String) : String :=
  "\x7b\"currency\":\"AUD\",\"total\":" ++ total ++
  ",\"items\":[\x7b\"amount\":12.5,\"informational\":false\x7d],\"kind\":\"purchase\"\x7d"

/-- The response with that text. -/
def docketResponse (total : String) : Json :=
  .object [("stop_reason", .string "end_turn"), ("content", .array
    [.object [("type", .string "text"), ("text", .string (docketText total))]])]

/-- The body of that response. -/
def docketBody (total : String) : String :=
  "\x7b\"stop_reason\":\"end_turn\",\"content\":[\x7b\"type\":\"text\",\"text\":\"" ++
  "\x7b\\\"currency\\\":\\\"AUD\\\",\\\"total\\\":" ++ total ++
  ",\\\"items\\\":[\x7b\\\"amount\\\":12.5,\\\"informational\\\":false\x7d]," ++
  "\\\"kind\\\":\\\"purchase\\\"\x7d\"\x7d]\x7d"

/-- A reader of that body and that text. -/
def docketReader (printed : String) (total : ℚ) : JsonText :=
  readerOf [(docketBody printed, docketResponse printed), (docketText printed, docketOutput total)]

/-- The docket is read. -/
theorem docket_parsed (printed : String) (total : ℚ)
    (apart : docketText printed ≠ docketBody printed) :
    outputOf (docketReader printed total) (docketBody printed) = some (docketOutput total) ∧
      ∃ result, parseResponse (docketReader printed total) (docketBody printed) {} = .ok result := by
  have isResponse : (docketReader printed total).parse (docketBody printed) =
      .ok (docketResponse printed) := by
    simp [docketReader, readerOf]
  have isOutput : (docketReader printed total).parse (docketText printed) =
      .ok (docketOutput total) := by
    simp [docketReader, readerOf, List.lookup_cons, beq_eq_false_iff_ne.mpr apart]
  obtain ⟨fields, read⟩ : ∃ fields, parseOutput {} (docketOutput total) = .ok fields := ⟨_, rfl⟩
  have isText : parseText (docketReader printed total) {} (docketResponse printed)
      (.object [("type", .string "text"), ("text", .string (docketText printed))]) =
        .ok { fields with raw := "" } := by
    have holds : (Json.object [("type", .string "text"),
        ("text", .string (docketText printed))]).find "text" =
          some (.string (docketText printed)) := rfl
    simp only [parseText, Json.member_eq holds, Json.getString, isOutput, read, bind, Except.bind]
    rfl
  constructor
  · unfold outputOf
    rw [isResponse]
    show ((docketReader printed total).parse (docketText printed)).toOption = _
    rw [isOutput]
    rfl
  · refine ⟨{ fields with raw := "" }, ?_⟩
    unfold parseResponse
    rw [isResponse]
    show mismatch (parseText _ _ (docketResponse printed) _) = _
    rw [isText]
    rfl

end Docket

/-- The figures of a docket over 12.50 are small, so its amounts are sound. -/
theorem soundAmounts_of_docket :
    ∃ result, parseResponse (docketReader "12.5" (25 / 2)) (docketBody "12.5") {} = .ok result ∧
      SoundAmounts (docketReader "12.5" (25 / 2)) (docketBody "12.5") {} result := by
  obtain ⟨isOutput, result, parsed⟩ := docket_parsed "12.5" (25 / 2) (by decide)
  refine ⟨result, parsed, (soundAmounts_iff parsed).mpr ⟨_, isOutput, ?_⟩⟩
  refine ⟨?_, ?_, ?_, ?_, ?_⟩
  · rintro total ⟨⟩
    unfold SmallFigure
    norm_num
  · rintro subtotal ⟨⟩
  · intro line among
    obtain rfl := List.mem_singleton.mp among
    decide +kernel
  · intro line among
    obtain rfl := List.mem_singleton.mp among
    rintro price ⟨⟩
  · decide +kernel

/-- A total of 1e18 is converted to the least `int64_t`, which has no magnitude. -/
theorem not_soundAmounts_of_largeTotal :
    ¬∀ (json : JsonText) (body : String) (context : ScanContext) (result : ScanResult),
      parseResponse json body context = .ok result →
        SoundAmounts json body context result := by
  intro always
  obtain ⟨isOutput, result, parsed⟩ := docket_parsed "1e18" (10 ^ 18) (by decide)
  obtain ⟨response, output, raw, source, magnitudes, range⟩ := always _ _ _ _ parsed
  obtain rfl := Option.some.inj (isOutput.symm.trans source.found)
  have fits := range.total (10 ^ 18) rfl
  exact absurd fits.1 (by decide +kernel)

end AnthropicScanProvider

end ReceiptScanner
