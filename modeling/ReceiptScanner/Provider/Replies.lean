import ReceiptScanner.Services.AnthropicScanProvider

/-!
# What an unusable reply throws

The fields of the model's output are read inside a try block, which turns what nlohmann
throws into a `ScanError`. The stop reason and the types of the content blocks are read
before it.
-/

namespace ReceiptScanner

section Raising

variable {α β : Type} {allowed : Err → Prop}

/-- Everything the outcome can throw is allowed. -/
def Raises (allowed : Err → Prop) (outcome : Except Err α) : Prop :=
  ∀ raised, outcome = .error raised → allowed raised

theorem Raises.ok (value : α) : Raises allowed (.ok value) := by
  intro raised failed
  cases failed

theorem Raises.error {raised : Err} (fine : allowed raised) :
    Raises allowed (.error raised : Except Err α) := by
  intro other failed
  cases failed
  exact fine

/-- A sequence throws what its parts throw. -/
theorem Raises.bind {first : Except Err α} {rest : α → Except Err β}
    (ofFirst : Raises allowed first) (ofRest : ∀ value, Raises allowed (rest value)) :
    Raises allowed (first >>= rest) := by
  intro raised failed
  cases first with
  | error other =>
      cases failed
      exact ofFirst raised rfl
  | ok value => exact ofRest value raised failed

/-- A loop throws what its body throws. -/
theorem Raises.mapM {read : α → Except Err β}
    (ofRead : ∀ element, Raises allowed (read element)) (elements : List α) :
    Raises allowed (elements.mapM read) := by
  induction elements with
  | nil => exact Raises.ok []
  | cons element rest inductionHypothesis =>
      rw [List.mapM_cons]
      apply (ofRead element).bind
      intro value
      apply inductionHypothesis.bind
      intro values
      exact Raises.ok (value :: values)

end Raising

/-- What the try block may throw: a `nlohmann::json::exception` or a `ScanError`. -/
def OfReply (raised : Err) : Prop :=
  (∃ what, raised = .runtime what) ∨ ∃ message, raised = .scanError message

namespace Json

theorem wrongType_raises {α : Type} (expected : String) (value : Json) :
    Raises OfReply (wrongType expected value : Except Err α) :=
  .error (.inl ⟨_, rfl⟩)

theorem getString_raises (value : Json) : Raises OfReply value.getString := by
  unfold getString
  split
  · exact .ok _
  · exact wrongType_raises _ _

theorem getDouble_raises (value : Json) : Raises OfReply value.getDouble := by
  unfold getDouble
  split
  · exact .ok _
  · exact wrongType_raises _ _

theorem getBool_raises (value : Json) : Raises OfReply value.getBool := by
  unfold getBool
  split
  · exact .ok _
  · exact wrongType_raises _ _

theorem getStrings_raises (value : Json) : Raises OfReply value.getStrings := by
  unfold getStrings
  split
  · exact Raises.mapM getString_raises _
  · exact wrongType_raises _ _

theorem member_raises (value : Json) (key : String) : Raises OfReply (value.member key) := by
  unfold member
  split
  · exact .ok _
  · exact .error (.inl ⟨_, rfl⟩)
  · exact .error (.inl ⟨_, rfl⟩)

theorem valueString_raises (value : Json) (key fallback : String) :
    Raises OfReply (value.valueString key fallback) := by
  unfold valueString
  split
  · exact getString_raises _
  · exact .ok _
  · exact .error (.inl ⟨_, rfl⟩)

/-- An object. -/
def isObject : Json → Bool
  | .object _ => true
  | _ => false

/-- The member under `key` is a text, where there is one. -/
def textOrAbsent (value : Json) (key : String) : Bool :=
  match value.find key with
  | none => true
  | some (.string _) => true
  | some _ => false

/-- The text under `key`, or the empty text. -/
def textOf (value : Json) (key : String) : String :=
  match value.find key with
  | some (.string text) => text
  | _ => ""

/-- `value(key, "")` of an object whose member is a text or absent. -/
theorem valueString_eq {value : Json} {key : String} (isObject : value.isObject)
    (readable : value.textOrAbsent key) : value.valueString key "" = .ok (value.textOf key) := by
  cases value with
  | object members =>
      simp only [textOrAbsent] at readable
      simp only [valueString, textOf]
      split at readable
      · next absent => simp [absent]
      · next text found => simp [found, getString]
      · cases readable
  | _ => cases isObject

/-- Of any other value it throws what is not a `ScanError`. -/
theorem valueString_throws (value : Json) (key : String)
    (unreadable : ¬(value.isObject ∧ value.textOrAbsent key)) :
    ∃ what, value.valueString key "" = .error (.runtime what) := by
  cases value with
  | object members =>
      cases found : (Json.object members).find key with
      | none => simp [isObject, textOrAbsent, found] at unreadable
      | some other =>
          cases other with
          | string text => simp [isObject, textOrAbsent, found] at unreadable
          | _ => simp [valueString, found, getString, wrongType]
  | _ => exact ⟨_, rfl⟩

end Json

namespace AnthropicScanProvider

section TryBlock

variable (json : JsonText) (context : ScanContext)

theorem lineTags_raises (line : Json) : Raises OfReply (lineTags line) := by
  unfold lineTags
  split
  · exact Json.getStrings_raises _
  · exact .ok _

theorem toItem_raises (line : Json) : Raises OfReply (toItem line) := by
  unfold toItem
  apply (Json.member_raises line "amount").bind
  intro amount
  apply (Json.getDouble_raises amount).bind
  intro amount
  apply (Json.member_raises line "informational").bind
  intro informational
  apply (Json.getBool_raises informational).bind
  intro informational
  apply (lineTags_raises line).bind
  intro tags
  exact .ok _

theorem rejectUnreadable_raises (output : Json) : Raises OfReply (rejectUnreadable output) := by
  unfold rejectUnreadable
  split
  · exact .error (.inr ⟨_, rfl⟩)
  · exact .ok _

theorem kindOf_raises (output : Json) : Raises OfReply (kindOf context output) := by
  unfold kindOf
  split
  · exact .ok _
  · exact (Json.member_raises output "kind").bind Json.getString_raises

theorem parseOutput_raises (output : Json) : Raises OfReply (parseOutput context output) := by
  unfold parseOutput
  apply (rejectUnreadable_raises output).bind
  intro _
  apply (kindOf_raises context output).bind
  intro kind
  apply (Json.member_raises output "currency").bind
  intro currency
  apply (Json.getString_raises currency).bind
  intro currency
  apply (Json.member_raises output "total").bind
  intro total
  apply (Json.getDouble_raises total).bind
  intro total
  apply (Json.member_raises output "items").bind
  intro lines
  apply (Raises.mapM toItem_raises lines.iterate).bind
  intro items
  exact .ok _

theorem rawRecord_raises (response output : Json) :
    Raises OfReply (rawRecord response output) := by
  unfold rawRecord
  apply (Json.valueString_raises response "model" "").bind
  intro model
  apply (Json.valueString_raises response "id" "").bind
  intro messageId
  exact .ok _

theorem parseText_raises (response block : Json) :
    Raises OfReply (parseText json context response block) := by
  unfold parseText
  apply (Json.member_raises block "text").bind
  intro text
  apply (Json.getString_raises text).bind
  intro text
  cases json.parse text with
  | error what => exact .error (.inl ⟨what, rfl⟩)
  | ok output =>
      apply (parseOutput_raises context output).bind
      intro result
      apply (rawRecord_raises response output).bind
      intro raw
      exact .ok _

end TryBlock

/-- A failure of the provider's: it is a `ScanError`, and so is charged to the attempts of
the scan and not to the reclaims. -/
def ChargedToProvider (raised : Err) : Prop :=
  (∃ message, raised = .scanError message) ∧
    ∀ setup claim, ScanWorker.settle setup claim (.error raised) =
      ScanWorker.recordFailure setup claim true false raised.what

theorem chargedToProvider_scanError (message : String) :
    ChargedToProvider (.scanError message) :=
  ⟨⟨message, rfl⟩, fun _ _ => rfl⟩

/-- The catch clause leaves only `ScanError`s. -/
theorem mismatch_raises {α : Type} {outcome : Except Err α} (ofReply : Raises OfReply outcome) :
    Raises ChargedToProvider (mismatch outcome) := by
  intro raised failed
  cases outcome with
  | ok value => cases failed
  | error other =>
      obtain ⟨what, rfl⟩ | ⟨message, rfl⟩ := ofReply other rfl
      · cases failed
        exact chargedToProvider_scanError _
      · cases failed
        exact chargedToProvider_scanError _

/-- Every block that the search for the text block looks at is an object whose type is a
text or absent. -/
def blocksReadable : List Json → Bool
  | [] => true
  | block :: rest => block.isObject && block.textOrAbsent "type" &&
      (block.textOf "type" = "text" || blocksReadable rest)

/-- A response outside the try block has nothing to trip over: it is no object, or its stop
reason is a text or absent, and it is refused by that or its blocks are readable. -/
def replyReadable (response : Json) : Bool :=
  !response.isObject || (response.textOrAbsent "stop_reason" &&
    (response.textOf "stop_reason" = "refusal" || response.textOf "stop_reason" = "max_tokens" ||
      blocksReadable (contentOf response)))

/-- The search throws nothing just over readable blocks. -/
theorem firstText_readable {blocks : List Json} (readable : blocksReadable blocks) :
    ∃ text, firstText blocks = .ok text := by
  induction blocks with
  | nil => exact ⟨none, rfl⟩
  | cons block rest inductionHypothesis =>
      simp only [blocksReadable, Bool.and_eq_true, Bool.or_eq_true, decide_eq_true_eq] at readable
      obtain ⟨⟨isObject, typed⟩, later⟩ := readable
      rw [firstText, Json.valueString_eq isObject typed]
      by_cases isText : block.textOf "type" = "text"
      · exact ⟨some block, by simp [bind, Except.bind, isText, pure, Except.pure]⟩
      · obtain ⟨text, found⟩ := inductionHypothesis (later.resolve_left isText)
        exact ⟨text, by simp [bind, Except.bind, isText, found]⟩

theorem firstText_throws {blocks : List Json} (unreadable : blocksReadable blocks = false) :
    ∃ what, firstText blocks = .error (.runtime what) := by
  induction blocks with
  | nil => cases unreadable
  | cons block rest inductionHypothesis =>
      by_cases typed : block.isObject ∧ block.textOrAbsent "type"
      · simp only [blocksReadable, typed.1, typed.2, Bool.true_and, Bool.or_eq_false_iff,
          decide_eq_false_iff_not] at unreadable
        obtain ⟨what, thrown⟩ := inductionHypothesis unreadable.2
        refine ⟨what, ?_⟩
        rw [firstText, Json.valueString_eq typed.1 typed.2]
        simp [bind, Except.bind, unreadable.1, thrown]
      · obtain ⟨what, thrown⟩ := Json.valueString_throws block "type" typed
        refine ⟨what, ?_⟩
        rw [firstText, thrown]
        rfl

section Reply

variable (json : JsonText) (context : ScanContext)

theorem parseReply_raises {response : Json} (isObject : response.isObject)
    (readable : replyReadable response) :
    Raises ChargedToProvider (parseReply json context response) := by
  simp only [replyReadable, isObject, Bool.not_true, Bool.false_or, Bool.and_eq_true,
    Bool.or_eq_true, decide_eq_true_eq] at readable
  obtain ⟨stopReason, rest⟩ := readable
  rw [parseReply, Json.valueString_eq isObject stopReason]
  by_cases refused : response.textOf "stop_reason" = "refusal"
  · simp only [bind, Except.bind, ScanWorker.scanErrorIf, refused, decide_true, if_true]
    exact .error (chargedToProvider_scanError _)
  by_cases cutOff : response.textOf "stop_reason" = "max_tokens"
  · rw [cutOff]
    exact .error (chargedToProvider_scanError _)
  obtain ⟨text, found⟩ := firstText_readable ((rest.resolve_left (by simp [refused, cutOff])))
  simp only [bind, Except.bind, ScanWorker.scanErrorIf, refused, cutOff, decide_false,
    Bool.false_eq_true, if_false, found]
  cases text with
  | none => exact .error (chargedToProvider_scanError _)
  | some block => exact mismatch_raises (parseText_raises json context response block)

theorem parseReply_throws {response : Json} (isObject : response.isObject)
    (unreadable : replyReadable response = false) :
    ∃ what, parseReply json context response = .error (.runtime what) := by
  by_cases stopReason : response.textOrAbsent "stop_reason"
  · simp only [replyReadable, isObject, stopReason, Bool.not_true, Bool.false_or, Bool.true_and,
      Bool.or_eq_false_iff, decide_eq_false_iff_not] at unreadable
    obtain ⟨⟨refused, cutOff⟩, blocks⟩ := unreadable
    obtain ⟨what, thrown⟩ := firstText_throws blocks
    refine ⟨what, ?_⟩
    rw [parseReply, Json.valueString_eq isObject stopReason]
    simp [bind, Except.bind, ScanWorker.scanErrorIf, refused, cutOff, thrown]
  · obtain ⟨what, thrown⟩ := Json.valueString_throws response "stop_reason"
      fun typed => stopReason typed.2
    refine ⟨what, ?_⟩
    rw [parseReply, thrown]
    rfl

/-- A reply fails as the provider's failure exactly when the parts of it that are read
outside the try block have the types that are asked for. -/
theorem parseResponse_raises_iff (body : String) :
    Raises ChargedToProvider (parseResponse json body context) ↔
      ∀ response, json.parse body = .ok response → replyReadable response := by
  constructor
  · intro charged response parsed
    by_contra unreadable
    rw [Bool.not_eq_true] at unreadable
    cases response with
    | object members =>
        obtain ⟨what, thrown⟩ := parseReply_throws json context rfl unreadable
        have escaped := charged (.runtime what) (by simp only [parseResponse, parsed, thrown])
        obtain ⟨⟨message, impossible⟩, _⟩ := escaped
        cases impossible
    | _ => simp [replyReadable, Json.isObject] at unreadable
  · intro readable
    unfold parseResponse
    split
    · next members parsed => exact parseReply_raises json context rfl (readable _ parsed)
    · exact .error (chargedToProvider_scanError _)

end Reply

/-- A reader that knows these texts and takes every other one for an error. -/
def readerOf (known : List (String × Json)) : JsonText where
  parse text :=
    match known.lookup text with
    | some value => .ok value
    | none => .error "[json.exception.parse_error.101] parse error"
  dump _ := ""

/-- The reply `{"stop_reason":null}` throws past the catch clause. -/
theorem not_parseResponse_raises_of_null_stop_reason :
    ¬∀ (json : JsonText) (body : String) (context : ScanContext),
      Raises ChargedToProvider (parseResponse json body context) := by
  intro always
  have charged := always
    (readerOf [("\x7b\"stop_reason\":null\x7d", .object [("stop_reason", .null)])])
    "\x7b\"stop_reason\":null\x7d" {}
  obtain ⟨⟨message, impossible⟩, _⟩ := charged
    (.runtime "[json.exception.type_error.302] type must be string, but is null") rfl
  cases impossible

end AnthropicScanProvider

end ReceiptScanner
