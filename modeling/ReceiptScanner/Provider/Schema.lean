import ReceiptScanner.Provider.Replies

/-!
# The schema sent and the parser

A validator for the keywords that `outputSchema` uses. A reply whose text validates is
accepted by the parser and then by `validateResult`, but for its currency and its date, and
but for what the response around it holds and for the one amount without a magnitude.
-/

namespace ReceiptScanner

namespace Json

/-- Two texts, and the same. -/
def sameText : Json → Json → Bool
  | .string left, .string right => left == right
  | _, _ => false

/-- `type`. -/
def typeAllowed (schema value : Json) : Bool :=
  match schema.find "type" with
  | some (.string name) => value.typeName == name
  | _ => true

/-- `enum`, of texts. -/
def enumAllowed (schema value : Json) : Bool :=
  match schema.find "enum" with
  | some (.array names) => names.any value.sameText
  | _ => true

/-- The object has the key. -/
def hasKey (value : Json) : Json → Bool
  | .string key => value.contains key
  | _ => false

/-- `required`. -/
def requiredPresent (schema value : Json) : Bool :=
  match schema.find "required" with
  | some (.array keys) => !value.isObject || keys.all value.hasKey
  | _ => true

/-- The members of an object. -/
def members : Json → List (String × Json)
  | .object members => members
  | _ => []

/-- `additionalProperties: false`. -/
def noneAdditional (schema value : Json) : Bool :=
  match schema.find "additionalProperties", schema.find "properties" with
  | some (.boolean false), some (.object properties) =>
      value.members.all fun found => (properties.map Prod.fst).contains found.1
  | _, _ => true

/-- The value validates against the schema, whose keywords nest at most `depth` deep. -/
def validates : ℕ → Json → Json → Bool
  | 0, _, _ => false
  | depth + 1, schema, value =>
      typeAllowed schema value && enumAllowed schema value &&
      (match schema.find "anyOf" with
        | some (.array options) => options.any fun option => validates depth option value
        | _ => true) &&
      (match schema.find "properties" with
        | some (.object properties) => properties.all fun property =>
            (value.find property.1).all (validates depth property.2)
        | _ => true) &&
      (match schema.find "items", value with
        | some element, .array elements => elements.all (validates depth element)
        | _, _ => true) &&
      requiredPresent schema value && noneAdditional schema value

/-- The value validates against the schema. -/
def Validates (schema value : Json) : Prop := ∃ depth, validates depth schema value

section Inversion

variable {value : Json}

theorem Validates.string {schema : Json} (valid : Validates schema value)
    (type : schema.find "type" = some (.string "string")) : ∃ text, value = .string text := by
  obtain ⟨depth, valid⟩ := valid
  cases depth with
  | zero => cases valid
  | succ depth =>
      simp only [validates, Bool.and_eq_true, typeAllowed, type] at valid
      cases value with
      | string text => exact ⟨text, rfl⟩
      | _ => simp [typeName] at valid

theorem Validates.number (valid : Validates (AnthropicScanProvider.typed "number") value) :
    ∃ q, JsonInput.number value = some q := by
  obtain ⟨depth, valid⟩ := valid
  cases depth with
  | zero => cases valid
  | succ depth =>
      cases value with
      | unsigned u => exact ⟨u, rfl⟩
      | integer n => exact ⟨n, rfl⟩
      | float q => exact ⟨q, rfl⟩
      | _ => simp [validates, typeAllowed, AnthropicScanProvider.typed, find, typeName] at valid

theorem Validates.boolean (valid : Validates (AnthropicScanProvider.typed "boolean") value) :
    ∃ b, value = .boolean b := by
  obtain ⟨depth, valid⟩ := valid
  cases depth with
  | zero => cases valid
  | succ depth =>
      cases value with
      | boolean b => exact ⟨b, rfl⟩
      | _ => simp [validates, typeAllowed, AnthropicScanProvider.typed, find, typeName] at valid

/-- A text of an enum is one of the names. -/
theorem Validates.enum {names : List String} (valid : Validates
    (.object [("type", .string "string"), ("enum", .array (names.map .string))]) value) :
    ∃ text ∈ names, value = .string text := by
  obtain ⟨text, rfl⟩ := valid.string rfl
  obtain ⟨depth, valid⟩ := valid
  cases depth with
  | zero => cases valid
  | succ depth =>
      have listed : (names.map Json.string).any (Json.string text).sameText := by
        simp only [validates, Bool.and_eq_true] at valid
        exact valid.1.1.1.1.1.2
      obtain ⟨_, listed, same⟩ := List.any_eq_true.mp listed
      obtain ⟨name, among, rfl⟩ := List.mem_map.mp listed
      have named : text = name := beq_iff_eq.mp same
      exact ⟨text, named ▸ among, rfl⟩

/-- The elements of an array validate against its `items`. -/
theorem Validates.array {element : Json} (valid : Validates
    (.object [("type", .string "array"), ("items", element)]) value) :
    ∃ elements, value = .array elements ∧ ∀ each ∈ elements, Validates element each := by
  obtain ⟨depth, valid⟩ := valid
  cases depth with
  | zero => cases valid
  | succ depth =>
      cases value with
      | array elements =>
          refine ⟨elements, rfl, ?_⟩
          intro each among
          have all : elements.all (validates depth element) := by
            simp only [validates, Bool.and_eq_true] at valid
            exact valid.1.1.2
          exact ⟨depth, List.all_eq_true.mp all each among⟩
      | _ => simp [validates, typeAllowed, find, typeName] at valid

/-- An object of a closed schema has just the properties, each validating. -/
theorem Validates.object {properties : List (String × Json)}
    (valid : Validates (AnthropicScanProvider.objectSchema properties) value) :
    value.isObject ∧
      (∀ property ∈ properties, ∃ found, value.find property.1 = some found ∧
        Validates property.2 found) ∧
      ∀ key, value.contains key → key ∈ properties.map Prod.fst := by
  obtain ⟨depth, valid⟩ := valid
  cases depth with
  | zero => cases valid
  | succ depth =>
      cases value with
      | object found =>
          simp only [validates, Bool.and_eq_true] at valid
          obtain ⟨⟨⟨⟨_, each⟩, _⟩, present⟩, closed⟩ := valid
          have each : properties.all fun property =>
            ((object found).find property.1).all (validates depth property.2) := each
          have present : (properties.map fun property => Json.string property.1).all
            (object found).hasKey := present
          have closed : found.all fun member =>
            (properties.map Prod.fst).contains member.1 := closed
          refine ⟨rfl, ?_, ?_⟩
          · intro property among
            have isThere : (object found).contains property.1 :=
              List.all_eq_true.mp present _ (List.mem_map_of_mem among)
            obtain ⟨member, isThere⟩ := Option.isSome_iff_exists.mp isThere
            have fine := List.all_eq_true.mp each property among
            rw [isThere, Option.all_some] at fine
            exact ⟨member, isThere, depth, fine⟩
          · intro key isThere
            obtain ⟨member, isThere⟩ := Option.isSome_iff_exists.mp isThere
            obtain ⟨earlier, later, split, _⟩ := List.lookup_eq_some_iff.mp isThere
            have among := List.all_eq_true.mp closed (key, member) (by simp [split])
            exact List.contains_iff_mem.mp among
      | _ => simp [validates, typeAllowed, AnthropicScanProvider.objectSchema, find, typeName]
          at valid

end Inversion

end Json

end ReceiptScanner
