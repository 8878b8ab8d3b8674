import Mathlib.Data.List.Basic
import Mathlib.Tactic.Ring

/-!
# A limit that is checked against a snapshot

Events take from a limited supply. Each of them has looked at how much was taken at an earlier
moment, and takes no more than what was left then. What other events take in the meantime is
not seen, so the limit is exceeded by as much as races with one event.
-/

namespace ReadCommitted

variable {α : Type}

/-- How many of the events after the first `began` take something. Histories have the latest
event first. -/
def rivals (taken : α → ℕ) (began : ℕ) (history : List α) : ℕ :=
  (history.take (history.length - began)).countP fun event => taken event != 0

/-- What is in use grows by what is taken, and an event that takes something has seen that it
stays within the limit. -/
structure Quota (limit : ℕ) (used : List α → ℕ) (taken began : α → ℕ) (history : List α) : Prop where
  empty : used [] = 0
  grows : ∀ event earlier, event :: earlier <:+ history →
    used (event :: earlier) ≤ used earlier + taken event
  fits : ∀ event earlier, event :: earlier <:+ history → taken event ≠ 0 →
    taken event + used (earlier.drop (earlier.length - began event)) ≤ limit

namespace Quota

variable {limit : ℕ} {used : List α → ℕ} {taken began : α → ℕ} {history earlier : List α}

theorem suffix (quota : Quota limit used taken began history) (within : earlier <:+ history) :
    Quota limit used taken began earlier where
  empty := quota.empty
  grows event before past := quota.grows event before (past.trans within)
  fits event before past := quota.fits event before (past.trans within)

/-- No event takes more than the limit. -/
theorem taken_le (quota : Quota limit used taken began history) {event : α}
    (past : event :: earlier <:+ history) : taken event ≤ limit := by
  by_cases nothing : taken event = 0
  · omega
  · have fits := quota.fits event earlier past nothing
    omega

/-- Since a moment, every event that took something took the limit at most. -/
theorem used_le_drop (quota : Quota limit used taken began history) (count : ℕ) :
    used history ≤ used (history.drop count) +
      (history.take count).countP (fun event => taken event != 0) * limit := by
  induction count generalizing history with
  | zero => simp
  | succ count ih =>
      cases history with
      | nil => simp
      | cons event earlier =>
          have rest := ih (quota.suffix (List.suffix_cons event earlier))
          have step := quota.grows event earlier List.suffix_rfl
          have most := quota.taken_le (List.suffix_rfl (l := event :: earlier))
          rw [List.drop_succ_cons, List.take_succ_cons, List.countP_cons]
          by_cases nothing : taken event = 0
          · simp only [nothing, bne_self_eq_false, Bool.false_eq_true, if_false, Nat.add_zero]
            omega
          · have takes : (taken event != 0) = true := bne_iff_ne.mpr nothing
            rw [if_pos takes, Nat.add_mul, Nat.one_mul]
            omega

/-- What is in use stays within the limit, and as much again for each rival that one event
may have. -/
theorem used_le (quota : Quota limit used taken began history) {most : ℕ}
    (racing : ∀ event earlier, event :: earlier <:+ history → taken event ≠ 0 →
      rivals taken (began event) earlier ≤ most) : used history ≤ limit * (most + 1) := by
  induction history with
  | nil => simp [quota.empty]
  | cons event earlier ih =>
      have before := ih (quota.suffix (List.suffix_cons event earlier))
        fun other prior past => racing other prior (past.trans (List.suffix_cons event earlier))
      have step := quota.grows event earlier List.suffix_rfl
      by_cases nothing : taken event = 0
      · omega
      · have fits := quota.fits event earlier List.suffix_rfl nothing
        have since := (quota.suffix (List.suffix_cons event earlier)).used_le_drop
          (earlier.length - began event)
        have few := racing event earlier List.suffix_rfl nothing
        have product : rivals taken (began event) earlier * limit ≤ most * limit :=
          Nat.mul_le_mul_right limit few
        have whole : limit * (most + 1) = limit + most * limit := by ring
        rw [rivals] at product
        omega

end Quota

end ReadCommitted
