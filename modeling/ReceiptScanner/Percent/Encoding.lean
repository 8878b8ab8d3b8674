import Mathlib.Data.List.Basic

/-!
# Percent escapes

Bytes that are kept stand for themselves, and any other byte is written as a percent sign
and two upper-case hex digits. Where the percent sign is not kept, decoding undoes it.
-/

namespace Percent

/-- The upper-case hex digit of a number below 16. -/
def hexDigit (n : ℕ) : UInt8 := UInt8.ofNat (if n < 10 then 48 + n else 55 + n)

/-- The number of a hex digit, of either case. -/
def hexValue (digit : UInt8) : Option ℕ :=
  let n := digit.toNat
  if 48 ≤ n ∧ n ≤ 57 then some (n - 48)
  else if 65 ≤ n ∧ n ≤ 70 then some (n - 55)
  else if 97 ≤ n ∧ n ≤ 102 then some (n - 87)
  else none

/-- The percent sign. -/
def sign : UInt8 := 37

/-- A byte as it is written. -/
def escape (keep : UInt8 → Bool) (byte : UInt8) : List UInt8 :=
  if keep byte then [byte]
  else [sign, hexDigit (byte.toNat / 16), hexDigit (byte.toNat % 16)]

/-- Undo the escapes; a percent sign without two hex digits has no meaning. -/
def decode : List UInt8 → Option (List UInt8)
  | [] => some []
  | byte :: rest =>
      if byte = sign then
        match rest with
        | high :: low :: rest => do
            let high ← hexValue high
            let low ← hexValue low
            (UInt8.ofNat (high * 16 + low) :: ·) <$> decode rest
        | _ => none
      else (byte :: ·) <$> decode rest

/-- Only bytes that are kept, and escapes with upper-case digits. -/
inductive Escaped (keep : UInt8 → Bool) : List UInt8 → Prop where
  | nil : Escaped keep []
  | kept {byte : UInt8} {rest : List UInt8} (kept : keep byte = true)
      (tail : Escaped keep rest) : Escaped keep (byte :: rest)
  | escape {high low : ℕ} {rest : List UInt8} (upper : high < 16) (lower : low < 16)
      (tail : Escaped keep rest) : Escaped keep (sign :: hexDigit high :: hexDigit low :: rest)

theorem hexValue_hexDigit {n : ℕ} (small : n < 16) : hexValue (hexDigit n) = some n := by
  have all : ∀ n : Fin 16, hexValue (hexDigit n) = some n.val := by decide
  exact all ⟨n, small⟩

section Escapes

variable {keep : UInt8 → Bool} (byte : UInt8) (rest : List UInt8)

theorem decode_kept (other : byte ≠ sign) :
    decode (byte :: rest) = (byte :: ·) <$> decode rest := by
  conv_lhs => unfold decode
  exact if_neg other

theorem decode_digits {high low : ℕ} (upper : high < 16) (lower : low < 16) :
    decode (sign :: hexDigit high :: hexDigit low :: rest) =
      (UInt8.ofNat (high * 16 + low) :: ·) <$> decode rest := by
  conv_lhs => unfold decode
  rw [if_pos rfl]
  simp only [hexValue_hexDigit upper, hexValue_hexDigit lower]
  rfl

/-- What a byte is written as decodes to that byte. -/
theorem decode_escape (percent : keep sign = false) :
    decode (escape keep byte ++ rest) = (byte :: ·) <$> decode rest := by
  have small := byte.toNat_lt
  unfold escape
  split
  · rename_i kept
    have other : byte ≠ sign := by
      rintro rfl
      exact absurd (kept.symm.trans percent) (by decide)
    exact decode_kept byte rest other
  · have whole : UInt8.ofNat (byte.toNat / 16 * 16 + byte.toNat % 16) = byte := by
      rw [Nat.div_add_mod']
      exact UInt8.ofNat_toNat
    rw [List.cons_append, List.cons_append, List.cons_append, List.nil_append,
      decode_digits rest (by omega) (by omega), whole]

theorem escaped_escape {rest : List UInt8} (tail : Escaped keep rest) :
    Escaped keep (escape keep byte ++ rest) := by
  have small := byte.toNat_lt
  unfold escape
  split
  · rename_i kept
    exact .kept kept tail
  · exact .escape (by omega) (by omega) tail

/-- Decoding undoes the escapes of a whole text. -/
theorem decode_flatMap_escape (percent : keep sign = false) (bytes : List UInt8) :
    decode (bytes.flatMap (escape keep)) = some bytes := by
  induction bytes with
  | nil => rfl
  | cons byte bytes inductionHypothesis =>
      rw [List.flatMap_cons, decode_escape byte _ percent, inductionHypothesis]
      rfl

theorem escaped_flatMap_escape (bytes : List UInt8) :
    Escaped keep (bytes.flatMap (escape keep)) := by
  induction bytes with
  | nil => exact .nil
  | cons byte bytes inductionHypothesis => exact escaped_escape byte inductionHypothesis

/-- Different texts are written differently. -/
theorem flatMap_escape_injective (percent : keep sign = false) {first second : List UInt8}
    (same : first.flatMap (escape keep) = second.flatMap (escape keep)) : first = second := by
  have decoded := decode_flatMap_escape percent first
  rw [same, decode_flatMap_escape percent second] at decoded
  exact (Option.some.inj decoded).symm

end Escapes

end Percent
