import ReceiptScanner.Services.ScanWorker

/-!
# The Claude Messages API adapter

The output schema of a request, and what a reply parses to. What nlohmann's accessors
throw is `Err.runtime`. JSON numbers are exact.
-/

namespace ReceiptScanner

namespace Json

/-- `type_name()`. -/
def typeName : Json → String
  | .null => "null"
  | .boolean _ => "boolean"
  | .unsigned _ => "number"
  | .integer _ => "number"
  | .float _ => "number"
  | .string _ => "string"
  | .array _ => "array"
  | .object _ => "object"
  | .discarded => "discarded"

/-- `type_error.302`. -/
def wrongType {α : Type} (expected : String) (value : Json) : Except Err α :=
  .error (.runtime ("[json.exception.type_error.302] type must be " ++ expected ++ ", but is " ++
    value.typeName))

/-- `get<std::string>()`. -/
def getString : Json → Except Err String
  | .string text => .ok text
  | value => wrongType "string" value

/-- `get<double>()`, without its rounding: a JSON integer above 2^53 is for the source the double
next to it. -/
def getDouble (value : Json) : Except Err ℚ :=
  match JsonInput.number value with
  | some q => .ok q
  | none => wrongType "number" value

/-- `get<bool>()`. -/
def getBool : Json → Except Err Bool
  | .boolean b => .ok b
  | value => wrongType "boolean" value

/-- `get<std::vector<std::string>>()`. -/
def getStrings : Json → Except Err (List String)
  | .array elements => elements.mapM getString
  | value => wrongType "array" value

/-- `at(key)`. -/
def member (value : Json) (key : String) : Except Err Json :=
  match value, value.find key with
  | .object _, some found => .ok found
  | .object _, none =>
      .error (.runtime ("[json.exception.out_of_range.403] key '" ++ key ++ "' not found"))
  | _, _ => .error (.runtime ("[json.exception.type_error.304] cannot use at() with " ++
      value.typeName))

/-- `value(key, fallback)` with a text. -/
def valueString (value : Json) (key fallback : String) : Except Err String :=
  match value, value.find key with
  | .object _, some found => found.getString
  | .object _, none => .ok fallback
  | _, _ => .error (.runtime ("[json.exception.type_error.306] cannot use value() with " ++
      value.typeName))

/-- What a range-for over the value visits. -/
def iterate : Json → List Json
  | .null => []
  | .array elements => elements
  | .object members => members.map Prod.snd
  | value => [value]

end Json

/-- nlohmann's reader, with the `what()` of its parse error, and its writer. -/
structure JsonText where
  parse : String → Except String Json
  dump : Json → String

namespace AnthropicScanProvider

open ScanWorker (lower scanErrorIf)

section Schema

/-- Names from all lists, the first spelling kept, duplicates but for case dropped. -/
def uniqueNames (lists : List (List String)) : List String :=
  lists.flatten.foldl (fun out name =>
    if out.all fun seen => lower seen != lower name then out ++ [name] else out) []

/-- The schema, or null. -/
def nullable (schema : Json) : Json :=
  .object [("anyOf", .array [schema, .object [("type", .string "null")]])]

/-- A schema that only names a type. -/
def typed (name : String) : Json := .object [("type", .string name)]

/-- A text from `names`, or null; just null when the list is empty. -/
def enumOrNull (names : List String) : Json :=
  if names.isEmpty then typed "null"
  else nullable (.object [("type", .string "string"), ("enum", .array (names.map .string))])

/-- An object with exactly these properties. -/
def objectSchema (properties : List (String × Json)) : Json :=
  .object [("type", .string "object"), ("properties", .object properties),
    ("required", .array (properties.map fun property => .string property.1)),
    ("additionalProperties", .boolean false)]

/-- The categories the model may choose from. -/
def categoriesFor (context : ScanContext) : List String :=
  match context.knownKind with
  | none => uniqueNames [context.expenseCategories, context.incomeCategories]
  | some kind =>
      if (rulesFor kind).usesIncomeCategories then context.incomeCategories
      else context.expenseCategories

/-- The properties of one line. -/
def itemProperties (context : ScanContext) : List (String × Json) :=
  [("name", nullable (typed "string")), ("quantity", nullable (typed "number")),
    ("unit_price", nullable (typed "number")), ("amount", typed "number"),
    ("category", enumOrNull (categoriesFor context)), ("informational", typed "boolean")] ++
  if context.tags.isEmpty then []
  else [("tags", .object [("type", .string "array"), ("items",
    .object [("type", .string "string"), ("enum", .array (context.tags.map .string))])])]

/-- The schema of the reply. -/
def outputSchema (context : ScanContext) : Json :=
  objectSchema ([("unreadable_reason", nullable (typed "string")), ("currency", typed "string"),
    ("total", typed "number"), ("subtotal", nullable (typed "number")),
    ("merchant", nullable (typed "string")), ("store_name_raw", nullable (typed "string")),
    ("purchase_date", nullable (.object [("type", .string "string"), ("format", .string "date")])),
    ("items", .object [("type", .string "array"),
      ("items", objectSchema (itemProperties context))])] ++
    if context.knownKind.isSome then []
    else [("kind", .object [("type", .string "string"), ("enum", .array
      ((kKinds.filter fun kind => (rulesFor kind).scannable).map fun kind => .string kind.name))])])

end Schema

section Reply

/-- A main-unit amount in cents. The product is exact, where the source multiplies doubles: of
92233720368547758, the largest integer that fits here, the source's product is 2^63. -/
def toCents (amount : ℚ) : ℤ := llroundInt64 (amount * 100)

/-- Negation in `int64_t`, where the least value is its own. -/
def negInt64 (n : ℤ) : ℤ := if n = int64Min then int64Min else -n

/-- `std::llabs`. -/
def llabs (n : ℤ) : ℤ := if n < 0 then negInt64 n else n

/-- `find_first_not_of(" \t\r\n") == npos`. -/
def isBlank (text : String) : Bool :=
  text.toList.all fun c => c = ' ' || c = '\t' || c = '\r' || c = '\n'

/-- A text under `key` that is not blank. -/
def optText (object : Json) (key : String) : Option String :=
  match object.find key with
  | some (.string text) => if isBlank text then none else some text
  | _ => none

/-- A number under `key`. -/
def optNumber (object : Json) (key : String) : Option ℚ :=
  (object.find key).bind JsonInput.number

/-- The tags of a line, where it has some. -/
def lineTags (line : Json) : Except Err (List String) :=
  match line.find "tags" with
  | some tags => tags.getStrings
  | none => .ok []

/-- One line of the reply. -/
def toItem (line : Json) : Except Err ScannedItem := do
  let amount ← line.member "amount"
  let amount ← amount.getDouble
  let informational ← line.member "informational"
  let informational ← informational.getBool
  let tags ← lineTags line
  pure {
    name := optText line "name"
    quantity := (optNumber line "quantity").filter (0 < ·)
    unitPriceCents := ((optNumber line "unit_price").filter (0 ≤ ·)).map toCents
    amountCents := toCents amount
    category := optText line "category"
    informational := informational
    tags := tags }

/-- The lines of a refund are kept with their magnitude; a negative line of another kind
is dropped. -/
def keepItem (kind : String) (item : ScannedItem) : Option ScannedItem :=
  if item.amountCents < 0 then
    if kind = "refund" then some { item with amountCents := negInt64 item.amountCents } else none
  else some item

/-- The kind that is known already, or the reply's. -/
def kindOf (context : ScanContext) (output : Json) : Except Err String :=
  match context.knownKind with
  | some kind => .ok kind.name
  | none => do
      let kind ← output.member "kind"
      kind.getString

/-- A document that the model reports as unreadable. -/
def rejectUnreadable (output : Json) : Except Err Unit :=
  match optText output "unreadable_reason" with
  | some reason => .error (.scanError ("model could not read the document: " ++ reason))
  | none => .ok ()

/-- The fields of the model's output. -/
def parseOutput (context : ScanContext) (output : Json) : Except Err ScanResult := do
  rejectUnreadable output
  let kind ← kindOf context output
  let currency ← output.member "currency"
  let currency ← currency.getString
  let total ← output.member "total"
  let total ← total.getDouble
  let lines ← output.member "items"
  let items ← lines.iterate.mapM toItem
  pure {
    kind := kind
    currency := currency
    totalCents := llabs (toCents total)
    merchant := optText output "merchant"
    storeNameRaw := optText output "store_name_raw"
    purchaseDate := optText output "purchase_date"
    items := items.filterMap (keepItem kind) }

/-- The record of the reply that is stored with the receipt. -/
def rawRecord (response output : Json) : Except Err Json := do
  let model ← response.valueString "model" ""
  let messageId ← response.valueString "id" ""
  pure (.object [("provider", .string "anthropic"), ("model", .string model),
    ("message_id", .string messageId),
    ("usage", (response.find "usage").getD (.object [])), ("output", output)])

/-- The try block: the text of the reply, as a result. -/
def parseText (json : JsonText) (context : ScanContext) (response block : Json) :
    Except Err ScanResult := do
  let text ← block.member "text"
  let text ← text.getString
  match json.parse text with
  | .error what => .error (.runtime what)
  | .ok output => do
      let result ← parseOutput context output
      let raw ← rawRecord response output
      pure { result with raw := json.dump raw }

/-- `catch (const nlohmann::json::exception &e)`. -/
def mismatch {α : Type} : Except Err α → Except Err α
  | .error (.runtime what) =>
      .error (.scanError ("Anthropic reply doesn't match the extraction schema: " ++ what))
  | result => result

/-- The first block of type text. -/
def firstText : List Json → Except Err (Option Json)
  | [] => .ok none
  | block :: rest => do
      let type ← block.valueString "type" ""
      if type = "text" then pure (some block) else firstText rest

/-- The blocks of a reply; without an array there are none. -/
def contentOf (response : Json) : List Json :=
  match response.find "content" with
  | some (.array blocks) => blocks
  | _ => []

/-- A 200 response body, once it has been read as JSON. -/
def parseReply (json : JsonText) (context : ScanContext) (response : Json) :
    Except Err ScanResult := do
  let stopReason ← response.valueString "stop_reason" ""
  scanErrorIf (stopReason = "refusal") "model refused to read the document"
  scanErrorIf (stopReason = "max_tokens") "model reply was cut off at max_tokens"
  let text ← firstText (contentOf response)
  match text with
  | none => .error (.scanError ("Anthropic response has no text block (stop_reason " ++
      stopReason ++ ")"))
  | some block => mismatch (parseText json context response block)

/-- A 200 response body as a result. -/
def parseResponse (json : JsonText) (body : String) (context : ScanContext) :
    Except Err ScanResult :=
  match json.parse body with
  | .ok (.object members) => parseReply json context (.object members)
  | _ => .error (.scanError "Anthropic response is not JSON")

/-- The model's output: the text of the first text block, read as JSON. -/
def outputOf (json : JsonText) (body : String) : Option Json :=
  match json.parse body with
  | .error _ => none
  | .ok response =>
      match firstText (contentOf response) with
      | .ok (some block) =>
          match block.find "text" with
          | some (.string text) => (json.parse text).toOption
          | _ => none
      | _ => none

/-- The record of a body that is accepted: `result.raw` before it is written as a text. -/
def recordOf (json : JsonText) (body : String) : Option Json :=
  match json.parse body, outputOf json body with
  | .ok response, some output => (rawRecord response output).toOption
  | _, _ => none

/-- The sum of the items with one more; informational lines do not count. -/
def addItem (sum : ℤ) (item : ScannedItem) : ℤ :=
  if item.informational then sum else sum + item.amountCents

/-- The subtotal in the record of the reply, in main units. -/
def subtotalOf (raw : Json) : Option ℚ :=
  match raw.find "output" with
  | some output => optNumber output "subtotal"
  | none => none

/-- The items make up the total or the subtotal. `raw` is the record behind `result.raw`. -/
def itemsAddUp (raw : Json) (result : ScanResult) : Bool :=
  let sum := result.items.foldl addItem 0
  let subtotal := (subtotalOf raw).map fun value => llabs (toCents value)
  result.items.isEmpty || sum = result.totalCents || some sum = subtotal

end Reply

end AnthropicScanProvider

end ReceiptScanner
