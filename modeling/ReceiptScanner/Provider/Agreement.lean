import ReceiptScanner.Receipts.Rounding
import ReceiptScanner.Provider.Schema

/-!
# The parser accepts what the schema allows

A reply whose text validates against the schema is read without a mismatch, and what
`validateResult` can still object to is the currency and the date. The exceptions are the
response's own fields and the least `int64_t`, which has no magnitude.
-/

namespace ReceiptScanner

namespace Json

theorem isObject_of_find {value found : Json} {key : String}
    (isThere : value.find key = some found) : value.isObject := by
  cases value with
  | object members => rfl
  | _ => cases isThere

theorem member_eq {value found : Json} {key : String} (isThere : value.find key = some found) :
    value.member key = .ok found := by
  cases value with
  | object members => simp only [member, isThere]
  | _ => cases isThere

/-- A text that is not empty is the text of a member. -/
theorem find_of_textOf {value : Json} {key text : String} (named : value.textOf key = text)
    (nonempty : text ≠ "") : value.find key = some (.string text) := by
  unfold textOf at named
  split at named
  · next found => rw [found, named]
  · exact absurd named.symm nonempty

theorem getDouble_eq {value : Json} {q : ℚ} (isNumber : JsonInput.number value = some q) :
    value.getDouble = .ok q := by
  simp only [getDouble, isNumber]

theorem getStrings_ok {elements : List Json}
    (texts : ∀ each ∈ elements, ∃ text, each = .string text) :
    ∃ read, (Json.array elements).getStrings = .ok read := by
  induction elements with
  | nil => exact ⟨[], rfl⟩
  | cons element rest inductionHypothesis =>
      obtain ⟨text, rfl⟩ := texts element (by simp)
      obtain ⟨read, fine⟩ := inductionHypothesis fun each among => texts each (by simp [among])
      refine ⟨text :: read, ?_⟩
      have fine : rest.mapM getString = .ok read := fine
      simp [getStrings, List.mapM_cons, getString, fine, bind, Except.bind, pure, Except.pure]

end Json

namespace AnthropicScanProvider

open JsonInput

section Amounts

/-- The lines of an output. -/
def linesOf (output : Json) : List Json :=
  match output.find "items" with
  | some (.array lines) => lines
  | _ => []

/-- Every amount of an output, in main units. -/
def amounts (output : Json) : List ℚ :=
  (optNumber output "total").toList ++ (linesOf output).flatMap fun line =>
    (optNumber line "amount").toList ++ (optNumber line "unit_price").toList

/-- The reply is a refund's. -/
def isRefund (context : ScanContext) (output : Json) : Bool :=
  match context.knownKind with
  | some kind => kind = .refund
  | none => output.textOf "kind" = "refund"

theorem toCents_eq {amount : ℚ} (fits : fitsInt64 (llround (amount * 100))) :
    toCents amount = llround (amount * 100) := llroundInt64_eq fits

/-- The magnitude is one, but for the least value. -/
theorem llabs_nonneg_iff {n : ℤ} : 0 ≤ llabs n ↔ n ≠ int64Min := by
  unfold llabs negInt64 int64Min
  split
  · split <;> omega
  · omega

theorem negInt64_nonneg_iff {n : ℤ} (negative : n < 0) : 0 ≤ negInt64 n ↔ n ≠ int64Min := by
  unfold negInt64 int64Min
  split <;> omega

end Amounts

section Lines

variable {context : ScanContext} {line : Json}

theorem lineTags_ok (valid : Json.Validates (objectSchema (itemProperties context)) line) :
    ∃ tags, lineTags line = .ok tags := by
  obtain ⟨_, present, closed⟩ := valid.object
  by_cases noTags : context.tags.isEmpty
  · have absent : line.find "tags" = none := by
      by_contra found
      have among := closed "tags" (Option.isSome_iff_ne_none.mpr found)
      simp [itemProperties, noTags] at among
    exact ⟨[], by simp only [lineTags, absent]⟩
  · obtain ⟨tags, found, valid⟩ := present ("tags", .object [("type", .string "array"), ("items",
      .object [("type", .string "string"), ("enum", .array (context.tags.map .string))])])
      (by simp [itemProperties, noTags])
    obtain ⟨elements, rfl, each⟩ := valid.array
    obtain ⟨read, fine⟩ := Json.getStrings_ok fun each' among => by
      obtain ⟨text, _, isText⟩ := (each each' among).enum
      exact ⟨text, isText⟩
    exact ⟨read, by simp only [lineTags, found, fine]⟩

/-- What is read from a line that validates. -/
structure LineRead (line : Json) (item : ScannedItem) (amount : ℚ) : Prop where
  read : toItem line = .ok item
  number : optNumber line "amount" = some amount
  amount : item.amountCents = toCents amount
  quantity : item.quantity = (optNumber line "quantity").filter (0 < ·)
  unitPrice : item.unitPriceCents =
    ((optNumber line "unit_price").filter (0 ≤ ·)).map toCents

theorem line_read (valid : Json.Validates (objectSchema (itemProperties context)) line) :
    ∃ item amount, LineRead line item amount := by
  obtain ⟨_, present, _⟩ := valid.object
  obtain ⟨amount, amountFound, amountValid⟩ :=
    present ("amount", typed "number") (by simp [itemProperties])
  obtain ⟨informational, flagFound, flagValid⟩ :=
    present ("informational", typed "boolean") (by simp [itemProperties])
  obtain ⟨q, isNumber⟩ := amountValid.number
  obtain ⟨flag, rfl⟩ := flagValid.boolean
  obtain ⟨tags, tagsRead⟩ := lineTags_ok valid
  let item : ScannedItem :=
    { name := optText line "name"
      quantity := (optNumber line "quantity").filter (0 < ·)
      unitPriceCents := ((optNumber line "unit_price").filter (0 ≤ ·)).map toCents
      amountCents := toCents q
      category := optText line "category"
      informational := flag
      tags := tags }
  refine ⟨item, q, ?_, ?_, rfl, rfl, rfl⟩
  · simp only [toItem, Json.member_eq amountFound, Json.getDouble_eq isNumber,
      Json.member_eq flagFound, Json.getBool, tagsRead, bind, Except.bind, pure, Except.pure]
    rfl
  · simp only [optNumber, amountFound, Option.bind_some, isNumber]

end Lines

section Items

variable (kind : String)

/-- A line that validates gives a bad item just if it is a refund's and its amount has no
magnitude. -/
theorem badItem_iff {line : Json} {item : ScannedItem} {amount : ℚ}
    (read : LineRead line item amount)
    (fits : ∀ q ∈ (optNumber line "amount").toList ++ (optNumber line "unit_price").toList,
      fitsInt64 (llround (q * 100))) :
    (keepItem kind item).any ScanWorker.badItem ↔
      kind = "refund" ∧ llround (amount * 100) = int64Min := by
  have quantityFine : item.quantity.any (· ≤ 0) = false := by
    rw [read.quantity, Option.any_eq_false]
    intro q kept
    have positive := (Option.filter_eq_some_iff.mp kept).2
    simp only [decide_eq_true_eq] at positive
    simp [positive]
  have unitPriceFine : item.unitPriceCents.any (· < 0) = false := by
    rw [read.unitPrice, Option.any_eq_false]
    intro price priced
    obtain ⟨q, kept, rfl⟩ := Option.map_eq_some_iff.mp priced
    obtain ⟨found, nonneg⟩ := Option.filter_eq_some_iff.mp kept
    simp only [decide_eq_true_eq] at nonneg
    rw [toCents_eq (fits q (by simp [found]))]
    have rounded : 0 ≤ llround (q * 100) := llround_nonneg (by linarith)
    simp [rounded]
  have cents : item.amountCents = llround (amount * 100) := by
    rw [read.amount, toCents_eq (fits amount (by simp [read.number]))]
  by_cases negative : item.amountCents < 0
  · by_cases refund : kind = "refund"
    · have bad := negInt64_nonneg_iff negative
      simp only [keepItem, negative, if_true, refund, Option.any_some, ScanWorker.badItem,
        quantityFine, unitPriceFine, Bool.or_false, decide_eq_true_eq, true_and, ← cents]
      rw [← not_le, bad, not_not]
    · simp [keepItem, negative, refund]
  · have least : llround (amount * 100) ≠ int64Min := by
      rw [← cents]
      unfold int64Min
      omega
    simp [keepItem, negative, ScanWorker.badItem, quantityFine, unitPriceFine, least]

/-- The lines of a reply that validates are all read, and so is what becomes of them. -/
theorem lines_read {context : ScanContext} (lines : List Json)
    (valid : ∀ line ∈ lines, Json.Validates (objectSchema (itemProperties context)) line)
    (fits : ∀ line ∈ lines, ∀ q ∈ (optNumber line "amount").toList ++
      (optNumber line "unit_price").toList, fitsInt64 (llround (q * 100))) :
    ∃ items, lines.mapM toItem = .ok items ∧
      ((items.filterMap (keepItem kind)).any ScanWorker.badItem ↔ kind = "refund" ∧
        ∃ line ∈ lines, ∃ amount, optNumber line "amount" = some amount ∧
          llround (amount * 100) = int64Min) := by
  induction lines with
  | nil => exact ⟨[], rfl, by simp⟩
  | cons line rest inductionHypothesis =>
      obtain ⟨item, amount, read⟩ := line_read (valid line (by simp))
      obtain ⟨items, fine, bad⟩ := inductionHypothesis
        (fun line among => valid line (by simp [among]))
        (fun line among => fits line (by simp [among]))
      have badHead := badItem_iff kind read (fits line (by simp))
      refine ⟨item :: items, ?_, ?_⟩
      · simp [List.mapM_cons, read.read, fine, bind, Except.bind, pure, Except.pure]
      · have split : ((item :: items).filterMap (keepItem kind)).any ScanWorker.badItem ↔
            (keepItem kind item).any ScanWorker.badItem ∨
              (items.filterMap (keepItem kind)).any ScanWorker.badItem := by
          cases kept : keepItem kind item with
          | none => simp [kept]
          | some stored => simp [kept]
        rw [split, badHead, bad]
        constructor
        · rintro (⟨refund, least⟩ | ⟨refund, other, among, found⟩)
          · exact ⟨refund, line, by simp, amount, read.number, least⟩
          · exact ⟨refund, other, by simp [among], found⟩
        · rintro ⟨refund, other, among, q, found, least⟩
          obtain rfl | among := List.mem_cons.mp among
          · have same : amount = q := Option.some.inj (read.number.symm.trans found)
            exact .inl ⟨refund, same ▸ least⟩
          · exact .inr ⟨refund, other, among, q, found, least⟩

end Items

section Output

variable {context : ScanContext} {output : Json}

/-- The kind of a reply that validates: it is the known one, or one a scanner may give. -/
theorem kind_read (valid : Json.Validates (outputSchema context) output) :
    ∃ kind : Kind, kindOf context output = .ok kind.name ∧
      (isRefund context output ↔ kind.name = "refund") ∧
      (context.knownKind = none → (rulesFor kind).scannable) := by
  cases known : context.knownKind with
  | some kind =>
      refine ⟨kind, by simp only [kindOf, known], ?_, nofun⟩
      simp only [isRefund, known]
      cases kind <;> decide
  | none =>
      obtain ⟨_, present, _⟩ := valid.object
      obtain ⟨found, isThere, valid⟩ := present ("kind", .object [("type", .string "string"),
        ("enum", .array ((kKinds.filter fun kind => (rulesFor kind).scannable).map fun kind =>
          .string kind.name))]) (by simp [known])
      rw [show ((kKinds.filter fun kind => (rulesFor kind).scannable).map fun kind =>
        Json.string kind.name) = ((kKinds.filter fun kind => (rulesFor kind).scannable).map
          Kind.name).map .string by simp] at valid
      obtain ⟨text, among, rfl⟩ := valid.enum
      obtain ⟨kind, listed, rfl⟩ := List.mem_map.mp among
      refine ⟨kind, ?_, ?_, fun _ => (List.mem_filter.mp listed).2⟩
      · simp only [kindOf, known, Json.member_eq isThere, Json.getString, bind, Except.bind]
      · simp only [isRefund, known, Json.textOf, isThere, decide_eq_true_eq]

/-- The reply says that the document could be read. -/
def Readable (output : Json) : Prop :=
  output.find "unreadable_reason" = some .null ∨
    ∃ text, output.find "unreadable_reason" = some (.string text) ∧ isBlank text

theorem rejectUnreadable_ok (readable : Readable output) : rejectUnreadable output = .ok () := by
  have noReason : optText output "unreadable_reason" = none := by
    obtain isNull | ⟨text, found, blank⟩ := readable
    · simp only [optText, isNull]
    · simp only [optText, found, blank, if_true]
  simp only [rejectUnreadable, noReason]

/-- What is read from an output that validates. -/
structure OutputRead (context : ScanContext) (output : Json) (result : ScanResult) : Prop where
  read : parseOutput context output = .ok result
  kind : context.knownKind = none → (findKind result.kind).any fun kind =>
    (rulesFor kind).scannable
  total : 0 ≤ result.totalCents ↔
    ∀ total, optNumber output "total" = some total → llround (total * 100) ≠ int64Min
  items : result.items.any ScanWorker.badItem = false ↔
    (isRefund context output → ∀ line ∈ linesOf output, ∀ amount,
      optNumber line "amount" = some amount → llround (amount * 100) ≠ int64Min)

theorem output_read (valid : Json.Validates (outputSchema context) output)
    (readable : Readable output)
    (fits : ∀ amount ∈ amounts output, fitsInt64 (llround (amount * 100))) :
    ∃ result, OutputRead context output result := by
  obtain ⟨kind, kindRead, refund, scannable⟩ := kind_read valid
  obtain ⟨_, present, _⟩ := valid.object
  obtain ⟨currency, currencyFound, currencyValid⟩ := present ("currency", typed "string") (by simp)
  obtain ⟨total, totalFound, totalValid⟩ := present ("total", typed "number") (by simp)
  obtain ⟨items, itemsFound, itemsValid⟩ := present ("items", .object [("type", .string "array"),
    ("items", objectSchema (itemProperties context))]) (by simp)
  obtain ⟨code, rfl⟩ := currencyValid.string rfl
  obtain ⟨q, isNumber⟩ := totalValid.number
  obtain ⟨lines, rfl, each⟩ := itemsValid.array
  have totalNumber : optNumber output "total" = some q := by
    simp only [optNumber, totalFound, Option.bind_some, isNumber]
  have linesEq : linesOf output = lines := by simp only [linesOf, itemsFound]
  have totalFits : fitsInt64 (llround (q * 100)) :=
    fits q (by simp [amounts, totalNumber])
  have linesFit : ∀ line ∈ lines, ∀ q ∈ (optNumber line "amount").toList ++
      (optNumber line "unit_price").toList, fitsInt64 (llround (q * 100)) := by
    intro line among q priced
    apply fits q
    unfold amounts
    rw [linesEq]
    exact List.mem_append_right _ (List.mem_flatMap.mpr ⟨line, among, priced⟩)
  obtain ⟨items, itemsRead, bad⟩ := lines_read kind.name lines each linesFit
  let result : ScanResult :=
    { kind := kind.name
      currency := code
      totalCents := llabs (toCents q)
      merchant := optText output "merchant"
      storeNameRaw := optText output "store_name_raw"
      purchaseDate := optText output "purchase_date"
      items := items.filterMap (keepItem kind.name) }
  refine ⟨result, ?_, ?_, ?_, ?_⟩
  · simp only [parseOutput, rejectUnreadable_ok readable, kindRead, Json.member_eq currencyFound,
      Json.getString, Json.member_eq totalFound, Json.getDouble_eq isNumber,
      Json.member_eq itemsFound, Json.iterate, itemsRead, bind, Except.bind, pure, Except.pure]
    rfl
  · intro unknown
    show (findKind kind.name).any _ = true
    rw [findKind_name]
    exact scannable unknown
  · show 0 ≤ llabs (toCents q) ↔ _
    rw [llabs_nonneg_iff, toCents_eq totalFits, totalNumber]
    simp
  · show (items.filterMap (keepItem kind.name)).any ScanWorker.badItem = false ↔ _
    rw [← Bool.not_eq_true, bad, refund, linesEq]
    simp only [not_and, not_exists]

end Output

section Validation

/-- What `validateResult` throws over a currency or a date. -/
def OfCurrencyOrDate (result : ScanResult) (raised : Err) : Prop :=
  ScanWorker.providerReturned (currency (.string result.currency) "currency") = .error raised ∨
    ∃ text, result.purchaseDate = some text ∧
      ScanWorker.providerReturned (date (.string text) "purchase_date") = .error raised

/-- The texts of these failures. -/
theorem OfCurrencyOrDate.texts {result : ScanResult} {raised : Err}
    (blamed : OfCurrencyOrDate result raised) :
    raised ∈ [.scanError "provider returned currency must be a 3-letter currency code",
      .scanError "provider returned purchase_date must be a YYYY-MM-DD string",
      .scanError "provider returned purchase_date is not a real calendar date",
      .runtime "stoi"] := by
  obtain ofCurrency | ⟨text, _, ofDate⟩ := blamed
  · unfold currency at ofCurrency
    dsimp only at ofCurrency
    split at ofCurrency
    · cases ofCurrency
    · cases ofCurrency
      simp [List.mem_cons]
  · unfold date at ofDate
    dsimp only at ofDate
    split at ofDate
    · split at ofDate
      · cases ofDate
        simp
      · split at ofDate
        · cases ofDate
        · cases ofDate
          simp
    · cases ofDate
      simp

/-- With a usable kind, only the currency and the date are objected to exactly when the
total and the items are fine. -/
theorem validateResult_raises_iff (result : ScanResult) {verifying : Bool}
    (usable : verifying = false → (findKind result.kind).any fun kind =>
      (rulesFor kind).scannable) :
    Raises (OfCurrencyOrDate result) (ScanWorker.validateResult result verifying) ↔
      0 ≤ result.totalCents ∧ result.items.any ScanWorker.badItem = false := by
  have kindFine : (!verifying && !(findKind result.kind).any fun kind =>
      (rulesFor kind).scannable) = false := by
    cases verifying with
    | true => rfl
    | false => simp only [usable rfl, Bool.not_true, Bool.and_false]
  simp only [ScanWorker.validateResult, kindFine]
  constructor
  · intro blamed
    by_cases negative : result.totalCents < 0
    · have impossible := (blamed (.scanError "provider returned a negative total")
        (by simp [ScanWorker.scanErrorIf, negative, bind, Except.bind])).texts
      exact absurd impossible (by decide)
    by_cases bad : result.items.any ScanWorker.badItem
    · have impossible := (blamed (.scanError
        "provider returned an item with a negative amount or non-positive quantity")
        (by simp only [ScanWorker.scanErrorIf, negative, bad, bind, Except.bind, decide_false,
          Bool.false_eq_true, if_false, if_true])).texts
      exact absurd impossible (by decide)
    exact ⟨not_lt.mp negative, Bool.not_eq_true _ ▸ bad⟩
  · rintro ⟨nonneg, itemsFine⟩ raised failed
    simp only [ScanWorker.scanErrorIf, not_lt.mpr nonneg, itemsFine, bind, Except.bind,
      decide_false, Bool.false_eq_true, if_false] at failed
    cases ofCurrency : ScanWorker.providerReturned
        (currency (.string result.currency) "currency") with
    | error other =>
        rw [ofCurrency] at failed
        cases failed
        exact .inl ofCurrency
    | ok code =>
        rw [ofCurrency] at failed
        cases dated : result.purchaseDate with
        | none =>
            rw [dated] at failed
            cases failed
        | some text =>
            right
            refine ⟨text, dated, ?_⟩
            simp only [dated] at failed
            cases read : date (.string text) "purchase_date" with
            | ok day =>
                rw [read] at failed
                cases failed
            | error other =>
                rw [read] at failed
                cases other with
                | validation message =>
                    cases failed
                    rfl
                | _ =>
                    cases failed
                    rfl

end Validation

section Response

variable {json : JsonText} {body : String} {context : ScanContext} {response output : Json}
  {before : List Json}

/-- A 200 response that is neither refused nor cut off, and whose first text block, after
the blocks `before` it, holds an output that validates against the schema, says that the
document was readable, and has amounts that fit. -/
structure ValidReply (json : JsonText) (body : String) (context : ScanContext)
    (response output : Json) (before : List Json) : Prop where
  read : json.parse body = .ok response
  stopReason : ∃ reason, response.find "stop_reason" = some (.string reason) ∧
    reason ≠ "refusal" ∧ reason ≠ "max_tokens"
  first : ∀ block ∈ before, block.find "type" ≠ some (.string "text")
  text : ∃ block rest text, response.find "content" = some (.array (before ++ block :: rest)) ∧
    block.find "type" = some (.string "text") ∧ block.find "text" = some (.string text) ∧
    json.parse text = .ok output
  valid : Json.Validates (outputSchema context) output
  readable : Readable output
  fits : ∀ amount ∈ amounts output, fitsInt64 (llround (amount * 100))

/-- The parts of a response that the schema says nothing of: the model and the id are texts
or absent, and the blocks before the text are objects whose type is a text or absent. -/
structure Framed (response : Json) (before : List Json) : Prop where
  model : response.textOrAbsent "model"
  id : response.textOrAbsent "id"
  blocks : ∀ block ∈ before, block.isObject ∧ block.textOrAbsent "type"

/-- The search ends at the text block, unless it trips over a block before it. -/
theorem firstText_append {block : Json} (rest : List Json)
    (first : ∀ block ∈ before, block.find "type" ≠ some (.string "text"))
    (isText : block.find "type" = some (.string "text")) :
    ((∀ block ∈ before, block.isObject ∧ block.textOrAbsent "type") ∧
        firstText (before ++ block :: rest) = .ok (some block)) ∨
      (¬(∀ block ∈ before, block.isObject ∧ block.textOrAbsent "type") ∧
        ∃ what, firstText (before ++ block :: rest) = .error (.runtime what)) := by
  induction before with
  | nil =>
      left
      have typed : block.valueString "type" "" = .ok "text" := by
        rw [Json.valueString_eq (Json.isObject_of_find isText)
          (by simp [Json.textOrAbsent, isText])]
        simp only [Json.textOf, isText]
      simp [firstText, typed, bind, Except.bind, pure, Except.pure]
  | cons earlier before inductionHypothesis =>
      have notText : earlier.textOf "type" ≠ "text" := fun named =>
        first earlier (by simp) (Json.find_of_textOf named (by decide))
      rw [List.cons_append, firstText]
      by_cases typed : earlier.isObject ∧ earlier.textOrAbsent "type"
      · rw [Json.valueString_eq typed.1 typed.2]
        have later := inductionHypothesis fun block among => first block (by simp [among])
        simpa [bind, Except.bind, notText, typed] using later
      · right
        obtain ⟨what, thrown⟩ := Json.valueString_throws earlier "type" typed
        refine ⟨fun all => typed (all earlier (by simp)), what, ?_⟩
        rw [thrown]
        rfl

/-- A response that is an object, and is not refused or cut off, is as good as its text. -/
theorem ValidReply.parsed (reply : ValidReply json body context response output before) :
    ∃ block text, block.find "text" = some (.string text) ∧ json.parse text = .ok output ∧
      (∀ result, parseResponse json body context = .ok result ↔
        (∀ block ∈ before, block.isObject ∧ block.textOrAbsent "type") ∧
          mismatch (parseText json context response block) = .ok result) := by
  obtain ⟨reason, stopped, refused, cutOff⟩ := reply.stopReason
  obtain ⟨block, rest, text, content, isText, holds, parsed⟩ := reply.text
  refine ⟨block, text, holds, parsed, ?_⟩
  intro result
  have isObject := Json.isObject_of_find stopped
  have asReply : parseResponse json body context = parseReply json context response := by
    simp only [parseResponse, reply.read]
    cases response with
    | object members => rfl
    | _ => cases isObject
  have stopReason : response.valueString "stop_reason" "" = .ok reason := by
    rw [Json.valueString_eq isObject (by simp [Json.textOrAbsent, stopped])]
    simp only [Json.textOf, stopped]
  have contents : contentOf response = before ++ block :: rest := by
    simp only [contentOf, content]
  rw [asReply]
  simp only [parseReply, stopReason, ScanWorker.scanErrorIf, refused, cutOff, contents, bind,
    Except.bind, decide_false, Bool.false_eq_true, if_false]
  obtain ⟨readable, found⟩ | ⟨unreadable, what, thrown⟩ :=
    firstText_append rest reply.first isText
  · simp only [found, eq_true readable, true_and]
  · simp only [thrown, reduceCtorEq, eq_false unreadable, false_and]

/-- The record of a reply is made just if the model and the id are texts or absent. -/
theorem rawRecord_ok_iff (output : Json) (isObject : response.isObject) :
    (∃ raw, rawRecord response output = .ok raw) ↔
      response.textOrAbsent "model" ∧ response.textOrAbsent "id" := by
  unfold rawRecord
  by_cases model : response.textOrAbsent "model"
  · rw [Json.valueString_eq isObject model]
    by_cases id : response.textOrAbsent "id"
    · rw [Json.valueString_eq isObject id]
      exact ⟨fun _ => ⟨model, id⟩, fun _ => ⟨_, rfl⟩⟩
    · obtain ⟨what, thrown⟩ := Json.valueString_throws response "id" fun typed => id typed.2
      rw [thrown]
      simp [bind, Except.bind, id]
  · obtain ⟨what, thrown⟩ := Json.valueString_throws response "model" fun typed => model typed.2
    rw [thrown]
    simp [bind, Except.bind, model]

/-- A valid reply is accepted just if it is framed, and as what its output is read as. -/
theorem ValidReply.accepted_iff (reply : ValidReply json body context response output before)
    {parsed : ScanResult} (read : parseOutput context output = .ok parsed) (result : ScanResult) :
    parseResponse json body context = .ok result ↔
      Framed response before ∧ ∃ raw, rawRecord response output = .ok raw ∧
        result = { parsed with raw := json.dump raw } := by
  obtain ⟨block, text, holds, isJson, accepted⟩ := reply.parsed
  have isObject : response.isObject := by
    obtain ⟨reason, stopped, _⟩ := reply.stopReason
    exact Json.isObject_of_find stopped
  have recorded := rawRecord_ok_iff output isObject
  rw [accepted]
  simp only [parseText, Json.member_eq holds, Json.getString, isJson, read, bind, Except.bind]
  cases made : rawRecord response output with
  | error raised =>
      rw [made] at recorded
      simp only [reduceCtorEq, exists_false, false_iff] at recorded
      constructor
      · rintro ⟨_, impossible⟩
        cases raised <;> cases impossible
      · rintro ⟨_, _, impossible, _⟩
        cases impossible
  | ok raw =>
      obtain ⟨model, id⟩ := recorded.mp ⟨raw, made⟩
      constructor
      · rintro ⟨blocks, same⟩
        cases same
        exact ⟨⟨model, id, blocks⟩, raw, rfl, rfl⟩
      · rintro ⟨framed, other, same, rfl⟩
        cases same
        exact ⟨framed.blocks, rfl⟩

/-- The amounts of an output have magnitudes, where the parser takes them: the total's, and
those of the lines of a refund. -/
structure HasMagnitudes (context : ScanContext) (output : Json) : Prop where
  total : ∀ total, optNumber output "total" = some total → llround (total * 100) ≠ int64Min
  lines : isRefund context output → ∀ line ∈ linesOf output, ∀ amount,
    optNumber line "amount" = some amount → llround (amount * 100) ≠ int64Min

/-- A reply whose text validates is accepted by the parser, and but for its currency and
its date by the worker, exactly when it is framed and its amounts have magnitudes. -/
theorem valid_reply_accepted_iff (reply : ValidReply json body context response output before) :
    (∃ result, parseResponse json body context = .ok result ∧
        Raises (OfCurrencyOrDate result)
          (ScanWorker.validateResult result context.knownKind.isSome)) ↔
      Framed response before ∧ HasMagnitudes context output := by
  obtain ⟨parsed, read⟩ := output_read reply.valid reply.readable reply.fits
  have usable : context.knownKind.isSome = false → (findKind parsed.kind).any fun kind =>
      (rulesFor kind).scannable := by
    intro unknown
    exact read.kind (Option.isNone_iff_eq_none.mp (Option.isSome_eq_false_iff.mp unknown))
  constructor
  · rintro ⟨result, accepted, raises⟩
    obtain ⟨framed, raw, _, rfl⟩ := (reply.accepted_iff read.read result).mp accepted
    obtain ⟨total, items⟩ :=
      (validateResult_raises_iff { parsed with raw := json.dump raw } usable).mp raises
    exact ⟨framed, read.total.mp total, read.items.mp items⟩
  · rintro ⟨framed, magnitudes⟩
    have isObject : response.isObject := by
      obtain ⟨reason, stopped, _⟩ := reply.stopReason
      exact Json.isObject_of_find stopped
    obtain ⟨raw, made⟩ := (rawRecord_ok_iff output isObject).mpr ⟨framed.model, framed.id⟩
    refine ⟨_, (reply.accepted_iff read.read _).mpr ⟨framed, raw, made, rfl⟩, ?_⟩
    exact (validateResult_raises_iff { parsed with raw := json.dump raw } usable).mpr
      ⟨read.total.mpr magnitudes.total, read.items.mpr magnitudes.lines⟩

end Response

section Sample

/-- What the model read off one document. -/
def sampleOutput : Json :=
  .object [("unreadable_reason", .null), ("currency", .string "AUD"), ("total", .unsigned 12),
    ("subtotal", .null), ("merchant", .string "Aldi"), ("store_name_raw", .null),
    ("purchase_date", .null), ("items", .array [.object [("name", .string "Milk"),
      ("quantity", .unsigned 2), ("unit_price", .unsigned 6), ("amount", .unsigned 12),
      ("category", .null), ("informational", .boolean false)]]), ("kind", .string "purchase")]

/-- The text of that output. -/
def sampleText : String :=
  "\x7b\"unreadable_reason\":null,\"currency\":\"AUD\",\"total\":12,\"subtotal\":null," ++
  "\"merchant\":\"Aldi\",\"store_name_raw\":null,\"purchase_date\":null,\"items\":" ++
  "[\x7b\"name\":\"Milk\",\"quantity\":2,\"unit_price\":6,\"amount\":12,\"category\":" ++
  "null,\"informational\":false\x7d],\"kind\":\"purchase\"\x7d"

/-- A response with that text, whose `model` is given. -/
def sampleResponse (model : Json) : Json :=
  .object [("stop_reason", .string "end_turn"), ("model", model), ("content", .array
    [.object [("type", .string "text"), ("text", .string sampleText)]])]

/-- The body of that response, `model` being a text of JSON. -/
def sampleBody (model : String) : String :=
  "\x7b\"stop_reason\":\"end_turn\",\"model\":" ++ model ++ "," ++
  "\"content\":[\x7b\"type\":\"text\",\"text\":\"\x7b\\\"unreadable_reason\\\":null," ++
  "\\\"currency\\\":\\\"AUD\\\",\\\"total\\\":12,\\\"subtotal\\\":null," ++
  "\\\"merchant\\\":\\\"Aldi\\\",\\\"store_name_raw\\\":null,\\\"purchase_date\\\":" ++
  "null,\\\"items\\\":[\x7b\\\"name\\\":\\\"Milk\\\",\\\"quantity\\\":2," ++
  "\\\"unit_price\\\":6,\\\"amount\\\":12,\\\"category\\\":null,\\\"informational\\\":" ++
  "false\x7d],\\\"kind\\\":\\\"purchase\\\"\x7d\"\x7d]\x7d"

/-- A reader of that response and of its text. -/
def sampleReader (body : String) (model : Json) : JsonText :=
  readerOf [(sampleText, sampleOutput), (body, sampleResponse model)]

theorem sample_valid : Json.Validates (outputSchema {}) sampleOutput := ⟨5, by decide⟩

theorem sample_reply (name : String) (model : Json) (apart : sampleBody name ≠ sampleText) :
    ValidReply (sampleReader (sampleBody name) model) (sampleBody name) {}
      (sampleResponse model) sampleOutput [] where
  read := by simp [sampleReader, readerOf, List.lookup_cons, beq_eq_false_iff_ne.mpr apart]
  stopReason := ⟨"end_turn", rfl, by decide, by decide⟩
  first := by simp
  text := ⟨_, [], sampleText, rfl, rfl, rfl, by simp [sampleReader, readerOf]⟩
  valid := sample_valid
  readable := .inl rfl
  fits := by decide +kernel

end Sample

/-- The reply of a named model is accepted, and nothing in it is objected to. -/
theorem valid_reply_accepted_iff_of_named :
    (∃ result, parseResponse (sampleReader (sampleBody "\"haiku\"") (.string "haiku"))
        (sampleBody "\"haiku\"") {} = .ok result ∧
      Raises (OfCurrencyOrDate result) (ScanWorker.validateResult result false)) ↔
      Framed (sampleResponse (.string "haiku")) [] ∧ HasMagnitudes {} sampleOutput :=
  valid_reply_accepted_iff (sample_reply "\"haiku\"" (.string "haiku") (by decide))

/-- A reply that names no model, `"model":null`, is refused over it. -/
theorem not_valid_reply_accepted_of_null_model :
    ¬∀ (json : JsonText) (body : String) (context : ScanContext) (response output : Json)
      (before : List Json), ValidReply json body context response output before →
        ∃ result, parseResponse json body context = .ok result ∧
          Raises (OfCurrencyOrDate result)
            (ScanWorker.validateResult result context.knownKind.isSome) := by
  intro always
  obtain ⟨result, accepted, _⟩ := always _ _ _ _ _ _
    (sample_reply "null" .null (by decide))
  obtain ⟨parsed, read⟩ := output_read sample_valid (.inl rfl) (by decide +kernel)
  have framed := ((sample_reply "null" .null (by decide)).accepted_iff read.read result).mp accepted
  exact absurd framed.1.model (by decide)

end AnthropicScanProvider

end ReceiptScanner
