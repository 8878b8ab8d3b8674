import ReceiptScanner.Receipts.LedgerInput

/-!
# The laws of PATCH

A PATCH reads each of its keys on its own, except that a kind without a direction brings
the kind's direction with it, and that the rules are checked on the whole. `PatchedBy`
says that field by field; from it follow that patches of different keys commute, that a
patch changes nothing when it is applied again, and that manual entry is a PATCH of the
default receipt.
-/

namespace ReceiptScanner

open JsonInput

namespace Json

/-- The members of two objects in one. -/
def union : Json → Json → Json
  | .object members, .object more => .object (members ++ more)
  | first, _ => first

/-- No key is in both. -/
def DisjointKeys (first second : Json) : Prop :=
  ∀ key, first.find key = none ∨ second.find key = none

theorem DisjointKeys.symm {first second : Json} (apart : DisjointKeys first second) :
    DisjointKeys second first := fun key => (apart key).symm

theorem find_union {members more : List (String × Json)} {key : String} :
    (union (.object members) (.object more)).find key =
      ((Json.object members).find key).or ((Json.object more).find key) :=
  List.lookup_append

end Json

section Fields

variable {α : Type} {body first second : Json} {key : String} {target middle value other : α}
  {read : Reader α}

theorem setIfPresent_some {found : Json} (present : body.find key = some found) :
    setIfPresent body key target read = read found key := by
  simp [setIfPresent, present]

/-- A field that is set again keeps its value. -/
theorem setIfPresent_again (set : setIfPresent body key target read = .ok value) :
    setIfPresent body key value read = .ok value := by
  cases present : body.find key with
  | none => exact setIfPresent_absent _ _ present
  | some found =>
      rw [setIfPresent_some present] at set ⊢
      exact set

/-- A field has what its old value and everything that its reader returns have. -/
theorem setIfPresent_invariant {P : α → Prop}
    (set : setIfPresent body key target read = .ok value) (before : P target)
    (returns : ∀ found, read found key = .ok value → P value) : P value := by
  cases present : body.find key with
  | none => exact setIfPresent_kept set present ▸ before
  | some found =>
      rw [setIfPresent_some present] at set
      exact returns found set

/-- At most one of two bodies sets a field, so their order does not matter. -/
theorem setIfPresent_comm (apart : Json.DisjointKeys first second)
    (one : setIfPresent first key target read = .ok middle)
    (two : setIfPresent second key middle read = .ok value) {middle' : α}
    (one' : setIfPresent second key target read = .ok middle')
    (two' : setIfPresent first key middle' read = .ok other) : value = other := by
  rcases apart key with absent | absent
  · rw [setIfPresent_absent _ _ absent] at one two'
    obtain rfl := Except.ok.inj one
    obtain rfl := Except.ok.inj two'
    exact Except.ok.inj (two.symm.trans one')
  · rw [setIfPresent_absent _ _ absent] at two one'
    obtain rfl := Except.ok.inj two
    obtain rfl := Except.ok.inj one'
    exact Except.ok.inj (one.symm.trans two')

/-- Two bodies one after the other set a field as their union does. -/
theorem setIfPresent_union {members more : List (String × Json)}
    (apart : Json.DisjointKeys (.object members) (.object more))
    (one : setIfPresent (.object members) key target read = .ok middle)
    (two : setIfPresent (.object more) key middle read = .ok value) :
    setIfPresent (Json.union (.object members) (.object more)) key target read = .ok value := by
  have find := @Json.find_union members more key
  rcases apart key with absent | absent
  · rw [setIfPresent_absent _ _ absent] at one
    obtain rfl := Except.ok.inj one
    rw [absent, Option.none_or] at find
    unfold setIfPresent at two ⊢
    rw [find]
    exact two
  · rw [setIfPresent_absent _ _ absent] at two
    obtain rfl := Except.ok.inj two
    rw [absent, Option.or_none] at find
    unfold setIfPresent at one ⊢
    rw [find]
    exact one

end Fields

/-- An object passes if each of its keys is allowed. -/
theorem rejectUnknownKeys_eq_ok {members : List (String × Json)} {allowed : List String} :
    rejectUnknownKeys (.object members) allowed = .ok () ↔
      ∀ member ∈ members, allowed.contains member.1 = true := by
  induction members with
  | nil => exact ⟨fun _ _ none => absurd none List.not_mem_nil, fun _ => rfl⟩
  | cons member rest ih =>
      rw [List.forall_mem_cons, ← ih]
      let later : Unit → Except Err Unit := fun _ => rejectUnknownKeys (.object rest) allowed
      refine (bind_eq_ok : (_ >>= later) = _ ↔ _).trans ?_
      by_cases known : member.1 ∈ allowed <;> simp [later, known, fail]

/-- The fields that manual entry and PATCH read alike, each on its own. -/
structure ReadsCommon (body : Json) (r after : EditableReceipt) : Prop where
  totalCents : setIfPresent body "total_cents" r.totalCents cents = .ok after.totalCents
  currency : setIfPresent body "currency" r.currency currency = .ok after.currency
  merchant : setIfPresent body "merchant" r.merchant nullableString = .ok after.merchant
  purchaseDate : setIfPresent body "purchase_date" r.purchaseDate nullableDate =
    .ok after.purchaseDate
  paymentMethodId : setIfPresent body "payment_method_id" r.paymentMethodId nullableId =
    .ok after.paymentMethodId
  taxDeductible : setIfPresent body "tax_deductible" r.taxDeductible boolean =
    .ok after.taxDeductible
  note : setIfPresent body "note" r.note nullableString = .ok after.note
  offsetsReceiptId : setIfPresent body "offsets_receipt_id" r.offsetsReceiptId nullableId =
    .ok after.offsetsReceiptId
  fxRateToAud : setIfPresent body "fx_rate_to_aud" r.fxRateToAud nullablePositiveNumber =
    .ok after.fxRateToAud

/-- What `applyCommonReceiptFields` returns. -/
theorem applyCommonReceiptFields_eq_ok {r after : EditableReceipt} {body : Json} :
    applyCommonReceiptFields r body = .ok after ↔ ReadsCommon body r after ∧
      after.kind = r.kind ∧ after.direction = r.direction ∧
      after.storeNameRaw = r.storeNameRaw := by
  simp only [applyCommonReceiptFields, bind_eq_ok]
  constructor
  · rintro ⟨totalCents, ofTotal, currency, ofCurrency, merchant, ofMerchant, purchaseDate, ofDate,
      paymentMethodId, ofMethod, taxDeductible, ofTax, note, ofNote, offsetsReceiptId, ofOffset,
      fxRateToAud, ofRate, fields⟩
    obtain rfl := Except.ok.inj fields
    exact ⟨⟨ofTotal, ofCurrency, ofMerchant, ofDate, ofMethod, ofTax, ofNote, ofOffset, ofRate⟩,
      rfl, rfl, rfl⟩
  · rintro ⟨reads, kind, direction, storeNameRaw⟩
    refine ⟨_, reads.totalCents, _, reads.currency, _, reads.merchant, _, reads.purchaseDate, _,
      reads.paymentMethodId, _, reads.taxDeductible, _, reads.note, _, reads.offsetsReceiptId, _,
      reads.fxRateToAud, ?_⟩
    obtain ⟨⟩ := after
    subst kind direction storeNameRaw
    rfl

/-- The direction that a PATCH starts from, once the kind is known. -/
def keptDirection (body : Json) (r : EditableReceipt) (kind : Kind) : Direction :=
  if body.contains "kind" then ((rulesFor kind).canonicalDirection).getD r.direction
  else r.direction

/-- The keys of a PATCH. -/
def patchKeys : List String :=
  ["kind", "direction", "total_cents", "currency", "merchant", "store_name_raw", "purchase_date",
    "payment_method_id", "tax_deductible", "note", "offsets_receipt_id", "fx_rate_to_aud",
    "reviewed"]

/-- What a PATCH does, field by field. -/
structure PatchedBy (body : Json) (r patched : EditableReceipt) (markReviewed : Bool) : Prop
    extends ReadsCommon body r patched where
  object : requireObject body = .ok ()
  known : rejectUnknownKeys body patchKeys = .ok ()
  kind : setIfPresent body "kind" r.kind (fun value _ => parseKind value) = .ok patched.kind
  direction : setIfPresent body "direction" (keptDirection body r patched.kind)
    (fun value _ => parseDirection value) = .ok patched.direction
  storeNameRaw : setIfPresent body "store_name_raw" r.storeNameRaw nullableString =
    .ok patched.storeNameRaw
  reviewed : patchReviewed body = .ok markReviewed
  valid : patched.Valid

/-- The kind that a PATCH sets, and what it does to the direction that is not sent. -/
theorem patchKind_eq_ok {r kinded : EditableReceipt} {body : Json} :
    patchKind r body = .ok kinded ↔
      setIfPresent body "kind" r.kind (fun value _ => parseKind value) = .ok kinded.kind ∧
      kinded = { r with
        kind := kinded.kind
        direction := if body.contains "direction" then r.direction
          else keptDirection body r kinded.kind } := by
  unfold patchKind keptDirection Json.contains
  cases present : body.find "kind" with
  | none =>
      rw [setIfPresent_absent _ _ present]
      simp only [Option.isSome_none, Bool.false_eq_true, if_false, ite_self, Except.ok.injEq]
      constructor
      · rintro rfl
        exact ⟨rfl, rfl⟩
      · rintro ⟨same, built⟩
        rw [built, ← same]
  | some value =>
      rw [setIfPresent_some present, bind_eq_ok]
      simp only [Option.isSome_some, if_true]
      constructor
      · rintro ⟨kind, parsed, built⟩
        obtain rfl := Except.ok.inj built
        exact ⟨parsed, rfl⟩
      · rintro ⟨parsed, built⟩
        exact ⟨kinded.kind, parsed, congrArg Except.ok built.symm⟩

/-- What `applyReceiptPatch` returns. -/
theorem applyReceiptPatch_eq_ok {r patched : EditableReceipt} {body : Json} {markReviewed : Bool} :
    applyReceiptPatch r body = .ok (patched, markReviewed) ↔
      PatchedBy body r patched markReviewed := by
  -- A direction that is sent replaces whatever the kind left.
  have replaced : ∀ kind, setIfPresent body "direction"
      (if body.contains "direction" then r.direction else keptDirection body r kind)
      (fun value _ => parseDirection value) =
      setIfPresent body "direction" (keptDirection body r kind)
        (fun value _ => parseDirection value) := by
    intro kind
    unfold setIfPresent Json.contains
    cases body.find "direction" <;> simp
  simp only [applyReceiptPatch, bind_eq_ok, patchKind_eq_ok, applyCommonReceiptFields_eq_ok]
  constructor
  · rintro ⟨_, object, _, known, kinded, ⟨kind, same⟩, direction, ofDirection, store, ofStore, after,
      ⟨reads, sameKind, sameDirection, sameStore⟩, flag, reviewed, _, valid, built⟩
    obtain ⟨rfl, rfl⟩ := Prod.mk.inj (Except.ok.inj built)
    have sameKind : after.kind = kinded.kind := sameKind
    rw [same] at ofDirection ofStore reads
    rw [← sameKind] at kind ofDirection
    rw [replaced] at ofDirection
    exact ⟨⟨reads.1, reads.2, reads.3, reads.4, reads.5, reads.6, reads.7, reads.8, reads.9⟩,
      object, known, kind, sameDirection ▸ ofDirection, sameStore ▸ ofStore, reviewed,
      validateReceipt_ok_iff.mp valid⟩
  · intro made
    let kinded : EditableReceipt := { r with
      kind := patched.kind
      direction := if body.contains "direction" then r.direction
        else keptDirection body r patched.kind }
    refine ⟨(), made.object, (), made.known, kinded, ⟨made.kind, rfl⟩, patched.direction, ?_,
      patched.storeNameRaw, made.storeNameRaw, patched, ⟨?_, rfl, rfl, rfl⟩, markReviewed,
      made.reviewed, (), validateReceipt_ok_iff.mpr made.valid, rfl⟩
    · exact (replaced _).trans made.direction
    · exact ⟨made.1.1, made.1.2, made.1.3, made.1.4, made.1.5, made.1.6, made.1.7, made.1.8,
        made.1.9⟩

namespace PatchedBy

variable {body first second : Json} {r patched once twice : EditableReceipt} {flag flag' : Bool}

/-- A kind with a direction of its own has settled the direction. -/
theorem settled (made : PatchedBy body r patched flag) {canonical : Direction}
    (fixed : (rulesFor patched.kind).canonicalDirection = some canonical) :
    patched.direction = canonical :=
  (made.valid.direction canonical fixed).symm

/-- A PATCH without a kind, or to a kind that leaves the direction free, only sets the
direction that is sent. -/
theorem direction_free (made : PatchedBy body r patched flag)
    (free : (rulesFor patched.kind).canonicalDirection = none ∨ body.find "kind" = none) :
    setIfPresent body "direction" r.direction (fun value _ => parseDirection value) =
      .ok patched.direction := by
  have kept : keptDirection body r patched.kind = r.direction := by
    unfold keptDirection Json.contains
    rcases free with free | absent
    · simp [free]
    · simp [absent]
  exact kept ▸ made.direction

/-- A PATCH changes nothing when it is applied again. -/
theorem again (made : PatchedBy body r patched flag) : PatchedBy body patched patched flag where
  totalCents := setIfPresent_again made.totalCents
  currency := setIfPresent_again made.currency
  merchant := setIfPresent_again made.merchant
  purchaseDate := setIfPresent_again made.purchaseDate
  paymentMethodId := setIfPresent_again made.paymentMethodId
  taxDeductible := setIfPresent_again made.taxDeductible
  note := setIfPresent_again made.note
  offsetsReceiptId := setIfPresent_again made.offsetsReceiptId
  fxRateToAud := setIfPresent_again made.fxRateToAud
  object := made.object
  known := made.known
  kind := setIfPresent_again made.kind
  direction := by
    cases fixed : (rulesFor patched.kind).canonicalDirection with
    | none =>
        have kept : keptDirection body patched patched.kind = patched.direction := by
          simp [keptDirection, fixed]
        rw [kept]
        exact setIfPresent_again made.direction
    | some canonical =>
        have kept : keptDirection body patched patched.kind = patched.direction := by
          simp [keptDirection, fixed, made.settled fixed]
        rw [kept]
        exact setIfPresent_again made.direction
  storeNameRaw := setIfPresent_again made.storeNameRaw
  reviewed := made.reviewed
  valid := made.valid

variable {other last : EditableReceipt} {flag₁ flag₂ flag₃ flag₄ : Bool}

/-- The kind after two bodies, of which at most one names a kind. -/
theorem kind_last (apart : Json.DisjointKeys first second)
    (two : PatchedBy second once twice flag₂) :
    first.find "kind" = none ∨ once.kind = twice.kind := by
  refine (apart "kind").imp_right fun absent => ?_
  exact (setIfPresent_kept two.kind absent).symm

/-- Two bodies with different keys leave the same direction in either order. -/
theorem direction_comm (apart : Json.DisjointKeys first second)
    (one : PatchedBy first r once flag₁) (two : PatchedBy second once twice flag₂)
    (one' : PatchedBy second r other flag₃) (two' : PatchedBy first other last flag₄)
    (same : twice.kind = last.kind) : twice.direction = last.direction := by
  cases fixed : (rulesFor twice.kind).canonicalDirection with
  | some canonical => rw [two.settled fixed, two'.settled (same ▸ fixed)]
  | none =>
      have free : (rulesFor once.kind).canonicalDirection = none ∨ first.find "kind" = none :=
        (kind_last apart two).symm.imp_left fun equal => by rw [equal, fixed]
      have free' : (rulesFor other.kind).canonicalDirection = none ∨ second.find "kind" = none :=
        (kind_last apart.symm two').symm.imp_left fun equal => by rw [equal, ← same, fixed]
      exact setIfPresent_comm apart (one.direction_free free) (two.direction_free (.inl fixed))
        (one'.direction_free free') (two'.direction_free (.inl (same ▸ fixed)))

/-- Two bodies with different keys leave the same receipt in either order. -/
theorem comm (apart : Json.DisjointKeys first second)
    (one : PatchedBy first r once flag₁) (two : PatchedBy second once twice flag₂)
    (one' : PatchedBy second r other flag₃) (two' : PatchedBy first other last flag₄) :
    twice = last := by
  have kind := setIfPresent_comm apart one.kind two.kind one'.kind two'.kind
  have direction := direction_comm apart one two one' two' kind
  have totalCents :=
    setIfPresent_comm apart one.totalCents two.totalCents one'.totalCents two'.totalCents
  have currency := setIfPresent_comm apart one.currency two.currency one'.currency two'.currency
  have merchant := setIfPresent_comm apart one.merchant two.merchant one'.merchant two'.merchant
  have storeNameRaw :=
    setIfPresent_comm apart one.storeNameRaw two.storeNameRaw one'.storeNameRaw two'.storeNameRaw
  have purchaseDate :=
    setIfPresent_comm apart one.purchaseDate two.purchaseDate one'.purchaseDate two'.purchaseDate
  have paymentMethodId := setIfPresent_comm apart one.paymentMethodId two.paymentMethodId
    one'.paymentMethodId two'.paymentMethodId
  have taxDeductible := setIfPresent_comm apart one.taxDeductible two.taxDeductible
    one'.taxDeductible two'.taxDeductible
  have note := setIfPresent_comm apart one.note two.note one'.note two'.note
  have offsetsReceiptId := setIfPresent_comm apart one.offsetsReceiptId two.offsetsReceiptId
    one'.offsetsReceiptId two'.offsetsReceiptId
  have fxRateToAud :=
    setIfPresent_comm apart one.fxRateToAud two.fxRateToAud one'.fxRateToAud two'.fxRateToAud
  obtain ⟨⟩ := twice
  obtain ⟨⟩ := last
  simp only [EditableReceipt.mk.injEq]
  exact ⟨kind, direction, totalCents, currency, merchant, storeNameRaw, purchaseDate,
    paymentMethodId, taxDeductible, note, offsetsReceiptId, fxRateToAud⟩

section Union

variable {members more : List (String × Json)}

/-- The direction that the members of both bodies leave together. -/
theorem direction_union (apart : Json.DisjointKeys (.object members) (.object more))
    (one : PatchedBy (.object members) r once flag₁)
    (two : PatchedBy (.object more) once twice flag₂)
    (one' : PatchedBy (.object more) r other flag₃)
    (two' : PatchedBy (.object members) other last flag₄) :
    setIfPresent (Json.union (.object members) (.object more)) "direction"
      (keptDirection (Json.union (.object members) (.object more)) r twice.kind)
      (fun value _ => parseDirection value) = .ok twice.direction := by
  have same := comm apart one two one' two'
  have find := @Json.find_union members more "direction"
  cases ofSecond : (Json.object more).find "direction" with
  | some value =>
      have absent := (apart "direction").resolve_right (by simp [ofSecond])
      rw [absent, Option.none_or, ofSecond] at find
      have set := two.direction
      rw [setIfPresent_some ofSecond] at set
      rw [setIfPresent_some find]
      exact set
  | none =>
      rw [ofSecond, Option.or_none] at find
      cases ofFirst : (Json.object members).find "direction" with
      | some value =>
          rw [ofFirst] at find
          have set := two'.direction
          rw [setIfPresent_some ofFirst] at set
          rw [setIfPresent_some find, same]
          exact set
      | none =>
          rw [ofFirst] at find
          rw [setIfPresent_absent _ _ find]
          have last_ := setIfPresent_kept two.direction ofSecond
          have first_ := setIfPresent_kept one.direction ofFirst
          rw [last_]
          have kinds := @Json.find_union members more "kind"
          unfold keptDirection Json.contains at first_ ⊢
          cases inSecond : (Json.object more).find "kind" with
          | some value =>
              have absent := (apart "kind").resolve_right (by simp [inSecond])
              simp [kinds, inSecond, absent, first_]
          | none =>
              have kept := setIfPresent_kept two.kind inSecond
              cases inFirst : (Json.object members).find "kind" <;>
                simp [kinds, inSecond, inFirst, kept, first_]

theorem reviewed_union (apart : Json.DisjointKeys (.object members) (.object more))
    (one : patchReviewed (.object members) = .ok flag₁)
    (two : patchReviewed (.object more) = .ok flag₂) :
    patchReviewed (Json.union (.object members) (.object more)) = .ok (flag₁ || flag₂) := by
  have find := @Json.find_union members more "reviewed"
  unfold patchReviewed at one two ⊢
  rcases apart "reviewed" with absent | absent
  · rw [absent] at one
    obtain rfl := Except.ok.inj one
    rw [find, absent, Option.none_or, Bool.false_or]
    exact two
  · rw [absent] at two
    obtain rfl := Except.ok.inj two
    rw [find, absent, Option.or_none, Bool.or_false]
    exact one

/-- Two bodies with different keys leave what their union does. -/
theorem union (apart : Json.DisjointKeys (.object members) (.object more))
    (one : PatchedBy (.object members) r once flag₁)
    (two : PatchedBy (.object more) once twice flag₂)
    (one' : PatchedBy (.object more) r other flag₃)
    (two' : PatchedBy (.object members) other last flag₄) :
    PatchedBy (Json.union (.object members) (.object more)) r twice (flag₁ || flag₂) where
  totalCents := setIfPresent_union apart one.totalCents two.totalCents
  currency := setIfPresent_union apart one.currency two.currency
  merchant := setIfPresent_union apart one.merchant two.merchant
  purchaseDate := setIfPresent_union apart one.purchaseDate two.purchaseDate
  paymentMethodId := setIfPresent_union apart one.paymentMethodId two.paymentMethodId
  taxDeductible := setIfPresent_union apart one.taxDeductible two.taxDeductible
  note := setIfPresent_union apart one.note two.note
  offsetsReceiptId := setIfPresent_union apart one.offsetsReceiptId two.offsetsReceiptId
  fxRateToAud := setIfPresent_union apart one.fxRateToAud two.fxRateToAud
  object := rfl
  known := rejectUnknownKeys_eq_ok.mpr fun member either =>
    (List.mem_append.mp either).elim (rejectUnknownKeys_eq_ok.mp one.known member)
      (rejectUnknownKeys_eq_ok.mp two.known member)
  kind := setIfPresent_union apart one.kind two.kind
  direction := direction_union apart one two one' two'
  storeNameRaw := setIfPresent_union apart one.storeNameRaw two.storeNameRaw
  reviewed := reviewed_union apart one.reviewed two.reviewed
  valid := two.valid

end Union

end PatchedBy

/-- The laws of PATCH on one receipt. -/
structure PatchLaws (r : EditableReceipt) : Prop where
  /-- Two bodies with different keys, both of whose orders are accepted, leave the same
  receipt, and so does their union. -/
  confluent : ∀ members more once twice other last flag₁ flag₂ flag₃ flag₄,
    Json.DisjointKeys (.object members) (.object more) →
    applyReceiptPatch r (.object members) = .ok (once, flag₁) →
    applyReceiptPatch once (.object more) = .ok (twice, flag₂) →
    applyReceiptPatch r (.object more) = .ok (other, flag₃) →
    applyReceiptPatch other (.object members) = .ok (last, flag₄) →
    twice = last ∧ applyReceiptPatch r (Json.union (.object members) (.object more)) =
      .ok (twice, flag₁ || flag₂)
  /-- A PATCH changes nothing when it is applied again. -/
  idempotent : ∀ body patched flag, applyReceiptPatch r body = .ok (patched, flag) →
    applyReceiptPatch patched body = .ok (patched, flag)
  /-- What is not named is kept, but for a direction that follows a new kind. -/
  unnamed : ∀ body patched flag, applyReceiptPatch r body = .ok (patched, flag) →
    KeepsUnnamed body r patched

/-- PATCH is confluent and idempotent. -/
theorem patchLaws (r : EditableReceipt) : PatchLaws r where
  confluent members more once twice other last flag₁ flag₂ flag₃ flag₄ apart one two one' two' := by
    rw [applyReceiptPatch_eq_ok] at one two one' two' ⊢
    exact ⟨one.comm apart two one' two', one.union apart two one' two'⟩
  idempotent body patched flag applied := by
    rw [applyReceiptPatch_eq_ok] at applied ⊢
    exact applied.again
  unnamed _ _ _ applied := applyReceiptPatch_unnamed applied

section Entries

/-- The keys that manual entry and PATCH both accept. -/
def sharedKeys : List String :=
  ["kind", "direction", "total_cents", "currency", "merchant", "purchase_date",
    "payment_method_id", "tax_deductible", "note", "offsets_receipt_id", "fx_rate_to_aud"]

/-- A body of these keys only. -/
def OnlyKeys (allowed : List String) (body : Json) : Prop :=
  ∀ key, body.contains key = true → key ∈ allowed

theorem OnlyKeys.known {allowed wider : List String} {body : Json} (only : OnlyKeys allowed body)
    (object : requireObject body = .ok ()) (within : allowed ⊆ wider) :
    rejectUnknownKeys body wider = .ok () := by
  cases body with
  | object members =>
      refine rejectUnknownKeys_eq_ok.mpr fun member listed => ?_
      refine List.contains_iff_mem.mpr (within (only member.1 ?_))
      exact List.lookup_isSome_iff.mpr ⟨member, listed, beq_self_eq_true _⟩
  | _ => cases object

theorem OnlyKeys.absent {allowed : List String} {body : Json} (only : OnlyKeys allowed body)
    {key : String} (foreign : key ∉ allowed) : body.find key = none := by
  by_contra present
  exact foreign (only key (Option.isSome_iff_ne_none.mpr present))

/-- Where the direction is settled, manual entry and a PATCH of the default receipt read
it alike. -/
theorem entryDirection_eq {body : Json} {kind : Kind}
    (ofKind : setIfPresent body "kind" kDefaultKind (fun value _ => parseKind value) = .ok kind)
    (settled : ¬ ((rulesFor kind).canonicalDirection = none ∧
      body.contains "direction" = false)) :
    entryDirection body kind = setIfPresent body "direction" (keptDirection body {} kind)
      fun value _ => parseDirection value := by
  unfold entryDirection
  cases sent : body.find "direction" with
  | some value => rw [setIfPresent_some sent]
  | none =>
      rw [setIfPresent_absent _ _ sent]
      cases fixed : (rulesFor kind).canonicalDirection with
      | none => exact absurd ⟨fixed, by simp [Json.contains, sent]⟩ settled
      | some canonical =>
          refine congrArg Except.ok ?_
          unfold keptDirection Json.contains
          cases named : body.find "kind" with
          | some value => simp [fixed]
          | none =>
              obtain rfl := setIfPresent_kept ofKind named
              exact Option.some.inj (fixed.symm.trans rfl)

/-- Manual entry settles the direction. -/
theorem settled_of_entryDirection {body : Json} {kind : Kind} {direction : Direction}
    (entered : entryDirection body kind = .ok direction) :
    ¬ ((rulesFor kind).canonicalDirection = none ∧ body.contains "direction" = false) := by
  rintro ⟨free, unsent⟩
  have absent : body.find "direction" = none := by simpa [Json.contains] using unsent
  simp [entryDirection, absent, free] at entered

/-- Manual entry and PATCH agree on a body. -/
structure EntriesAgree (body : Json) : Prop where
  /-- What manual entry accepts, a PATCH of the default receipt accepts, and both yield the
  same receipt. -/
  patches : ∀ input, parseManualEntry body = .ok input →
    applyReceiptPatch {} body = .ok (input.receipt, false)
  /-- What such a PATCH accepts, manual entry accepts, if it has a total and settles the
  direction. -/
  enters : ∀ patched flag, applyReceiptPatch {} body = .ok (patched, flag) →
    body.contains "total_cents" = true →
    ¬ ((rulesFor patched.kind).canonicalDirection = none ∧ body.contains "direction" = false) →
    parseManualEntry body = .ok { receipt := patched }

/-- Manual entry and PATCH agree on the keys that both accept. -/
theorem entriesAgree {body : Json} (only : OnlyKeys sharedKeys body) : EntriesAgree body where
  patches input parsed := by
    simp only [parseManualEntry, bind_eq_ok] at parsed
    obtain ⟨_, object, _, -, _, -, kind, ofKind, r, common, direction, entered, _, -, _, -, _, valid,
      built⟩ := parsed
    obtain rfl := Except.ok.inj built
    obtain ⟨reads, sameKind, -, sameStore⟩ := applyCommonReceiptFields_eq_ok.mp common
    obtain rfl : r.kind = kind := sameKind
    rw [entryDirection_eq ofKind (settled_of_entryDirection entered)] at entered
    exact applyReceiptPatch_eq_ok.mpr {
      totalCents := reads.totalCents
      currency := reads.currency
      merchant := reads.merchant
      purchaseDate := reads.purchaseDate
      paymentMethodId := reads.paymentMethodId
      taxDeductible := reads.taxDeductible
      note := reads.note
      offsetsReceiptId := reads.offsetsReceiptId
      fxRateToAud := reads.fxRateToAud
      object := object
      known := only.known object (by decide)
      kind := ofKind
      direction := entered
      storeNameRaw := by
        rw [setIfPresent_absent _ _ (only.absent (by decide))]
        exact congrArg Except.ok sameStore.symm
      reviewed := by simp [patchReviewed, @OnlyKeys.absent _ _ only "reviewed" (by decide)]
      valid := validateReceipt_ok_iff.mp valid }
  enters patched flag applied total settled := by
    have made := applyReceiptPatch_eq_ok.mp applied
    have store : patched.storeNameRaw = none :=
      setIfPresent_kept made.storeNameRaw (only.absent (by decide))
    let r : EditableReceipt := { patched with direction := .outflow }
    have common : applyCommonReceiptFields { kind := patched.kind } body = .ok r :=
      applyCommonReceiptFields_eq_ok.mpr ⟨⟨made.1.1, made.1.2, made.1.3, made.1.4, made.1.5,
        made.1.6, made.1.7, made.1.8, made.1.9⟩, rfl, rfl, store⟩
    have noCategory : setIfPresent body "category_id" none nullableId = .ok none :=
      setIfPresent_absent _ _ (only.absent (by decide))
    have noItems : entryItems body none = .ok [] := by
      simp [entryItems, @OnlyKeys.absent _ _ only "items" (by decide)]
    simp only [parseManualEntry, bind_eq_ok]
    exact ⟨(), made.object, (), only.known made.object (by decide), (), by simp [total], patched.kind,
      made.kind, r, common, patched.direction, (entryDirection_eq made.kind settled).trans
        made.direction, none, noCategory, [], noItems, (), validateReceipt_ok_iff.mpr made.valid, rfl⟩

/-- A transfer in another currency. -/
def transferBody : Json :=
  .object [("kind", .string "transfer"), ("direction", .string "inflow"),
    ("total_cents", .unsigned 450), ("currency", .string "eur")]

theorem entriesAgree_transferBody : OnlyKeys sharedKeys transferBody ∧
    (parseManualEntry transferBody).isOk = true ∧ EntriesAgree transferBody := by
  have only : OnlyKeys sharedKeys transferBody := by
    intro key present
    obtain ⟨member, listed, same⟩ := List.lookup_isSome_iff.mp present
    obtain rfl := eq_of_beq same
    simp only [List.mem_cons, List.not_mem_nil, or_false] at listed
    rcases listed with rfl | rfl | rfl | rfl <;> decide
  exact ⟨only, by decide +kernel, entriesAgree only⟩

end Entries

end ReceiptScanner
