import ReceiptScanner.Services.AuthController
import ReceiptScanner.Windows.Meter
import Mathlib.Tactic.SplitIfs

/-!
# What a limiter lets through

A limiter keeps a meter for each key it has met, and calls for one key tell nothing about
another. Each window lets through its first `maxAttempts` calls. An interval no longer than
the window meets at most one reset, and so lets through at most `2 * maxAttempts`. All of
this is so as long as the clock's 64 bits hold the window.
-/

namespace ReceiptScanner

namespace RateLimiter

variable {limiter : RateLimiter} {key other : String} {reading : Reading} {opens closes : ℤ}

/-- One call of `allow`. -/
structure Attempt where
  key : String
  reading : Reading

/-- The limiter after a sequence of calls. -/
def after (limiter : RateLimiter) (attempts : List Attempt) : RateLimiter :=
  attempts.foldl (fun limiter attempt => (limiter.allow attempt.key attempt.reading).2) limiter

/-- A sequence of calls, each with its answer. -/
def answers : RateLimiter → List Attempt → List (Attempt × Bool)
  | _, [] => []
  | limiter, attempt :: attempts =>
      let (allowed, limiter) := limiter.allow attempt.key attempt.reading
      (attempt, allowed) :: answers limiter attempts

/-- What the calls for one key read from the clock. -/
def own (key : String) (attempts : List Attempt) : List Reading :=
  (attempts.filter (·.key = key)).map Attempt.reading

/-- The answers to the calls for one key. -/
def answersTo (limiter : RateLimiter) (key : String) (attempts : List Attempt) : List Bool :=
  ((limiter.answers attempts).filter (·.1.key = key)).map Prod.snd

variable {attempt : Attempt} {attempts : List Attempt}

theorem own_cons_same (same : attempt.key = key) :
    own key (attempt :: attempts) = attempt.reading :: own key attempts := by
  simp [own, same]

theorem own_cons_other (different : attempt.key ≠ key) :
    own key (attempt :: attempts) = own key attempts := by
  simp [own, different]

theorem answersTo_cons_same (same : attempt.key = key) :
    limiter.answersTo key (attempt :: attempts) =
      (limiter.allow attempt.key attempt.reading).1 ::
        (limiter.allow attempt.key attempt.reading).2.answersTo key attempts := by
  simp [answersTo, answers, same]

theorem answersTo_cons_other (different : attempt.key ≠ key) :
    limiter.answersTo key (attempt :: attempts) =
      (limiter.allow attempt.key attempt.reading).2.answersTo key attempts := by
  simp [answersTo, answers, different]

@[simp] theorem maxAttempts_allow :
    (limiter.allow key reading).2.maxAttempts = limiter.maxAttempts := rfl

@[simp] theorem span_allow : (limiter.allow key reading).2.span = limiter.span := rfl

@[simp] theorem attempts_allow :
    (limiter.allow key reading).2.attempts key = some (limiter.charged key reading) := by
  simp [allow]

theorem attempts_allow_other (different : other ≠ key) :
    (limiter.allow key reading).2.attempts other = limiter.attempts other := by
  simp [allow, Function.update_of_ne different]

/-- Only calls of the sequence are answered. -/
theorem mem_of_mem_answers {answer : Attempt × Bool} (member : answer ∈ limiter.answers attempts) :
    answer.1 ∈ attempts := by
  induction attempts generalizing limiter with
  | nil => simp [answers] at member
  | cons first rest inductionHypothesis =>
      rcases List.mem_cons.mp member with isFirst | later
      · simp [isFirst]
      · exact List.mem_cons_of_mem _ (inductionHypothesis later)

section Interval

/-- How many more calls for the key can pass within one window's length of `opens`. -/
def left (limiter : RateLimiter) (key : String) (opens : ℤ) : ℕ :=
  match limiter.attempts key with
  | some entry =>
      (limiter.maxAttempts.toNat - entry.count) +
        if opens ≤ entry.windowStart then 0 else limiter.maxAttempts.toNat
  | none => 2 * limiter.maxAttempts.toNat

theorem left_le (limiter : RateLimiter) (key : String) (opens : ℤ) :
    limiter.left key opens ≤ 2 * limiter.maxAttempts.toNat := by
  unfold left
  split
  · split <;> omega
  · exact le_rfl

/-- A call for one key tells nothing about another. -/
theorem left_allow_other (different : other ≠ key) :
    (limiter.allow key reading).2.left other opens = limiter.left other opens := by
  simp [left, attempts_allow_other different]

/-- A call opens a new window, or is counted in the one it finds. -/
theorem charged_cases (limiter : RateLimiter) (key : String) (reading : Reading) :
    let entry := (limiter.attempts key).getD { windowStart := reading.made }
    (limiter.span < reading.now - entry.windowStart ∧
      limiter.charged key reading = ⟨reading.now, 1⟩) ∨
    (reading.now - entry.windowStart ≤ limiter.span ∧
      limiter.charged key reading = ⟨entry.windowStart, entry.count + 1⟩) := by
  intro entry
  by_cases beyond : limiter.span < reading.now - entry.windowStart
  · exact Or.inl ⟨beyond, by simp [charged, entry, if_pos beyond]⟩
  · exact Or.inr ⟨Int.not_lt.mp beyond, by simp [charged, entry, if_neg beyond]⟩

/-- A call that passes within the interval uses up one of those left. -/
theorem left_allow (after : opens ≤ reading.now) (inside : reading.now ≤ opens + limiter.span) :
    (limiter.allow key reading).2.left key opens +
      (if (limiter.allow key reading).1 then 1 else 0) ≤ limiter.left key opens := by
  have charged := limiter.charged_cases key reading
  simp only [left, allow, Function.update_self, decide_eq_true_eq]
  cases stored : limiter.attempts key with
  | none =>
      simp only [stored, Option.getD_none] at charged
      rcases charged with ⟨-, same⟩ | ⟨-, same⟩ <;> rw [same] <;> dsimp only <;> split_ifs <;> omega
  | some entry =>
      -- A window that began inside the interval does not end inside it.
      simp only [stored, Option.getD_some] at charged
      rcases charged with ⟨beyond, same⟩ | ⟨-, same⟩ <;> rw [same] <;> dsimp only <;>
        split_ifs <;> omega

/-- The call came in the interval, and its answer let it through. -/
def passes (key : String) (opens closes : ℤ) (answer : Attempt × Bool) : Bool :=
  answer.2 && answer.1.key == key && opens ≤ answer.1.reading.now &&
    answer.1.reading.now ≤ closes

/-- One call uses up at most one of those left to the key, and only if it passes. -/
theorem left_answer (limiter : RateLimiter) (key : String) (closes : ℤ)
    (after : opens ≤ attempt.reading.now)
    (inside : attempt.reading.now ≤ opens + limiter.span) :
    (limiter.allow attempt.key attempt.reading).2.left key opens +
      (if passes key opens closes (attempt, (limiter.allow attempt.key attempt.reading).1)
        then 1 else 0) ≤ limiter.left key opens := by
  by_cases same : attempt.key = key
  · rw [← same]
    refine le_trans (Nat.add_le_add_left ?_ _) (left_allow after inside)
    split_ifs <;> simp_all [passes]
  · rw [left_allow_other (Ne.symm same)]
    simp [passes, same]

/-- From within the interval on, no more calls pass than the key has left. -/
theorem passed_le_left (limiter : RateLimiter) (key : String)
    (sorted : attempts.Pairwise (·.reading.now ≤ ·.reading.now))
    (short : closes ≤ opens + limiter.span)
    (after : ∀ attempt ∈ attempts, opens ≤ attempt.reading.now) :
    (limiter.answers attempts).countP (passes key opens closes) ≤ limiter.left key opens := by
  induction attempts generalizing limiter with
  | nil => simp [answers]
  | cons first rest inductionHypothesis =>
      obtain ⟨ordered, sorted'⟩ := List.pairwise_cons.mp sorted
      obtain ⟨now, after'⟩ := List.forall_mem_cons.mp after
      by_cases beyond : closes < first.reading.now
      · -- All the rest comes too late to count.
        have none : (limiter.answers (first :: rest)).countP (passes key opens closes) = 0 := by
          refine List.countP_eq_zero.mpr fun answer member => ?_
          have late : closes < answer.1.reading.now := by
            rcases List.mem_cons.mp (mem_of_mem_answers member) with isFirst | later
            · rwa [isFirst]
            · exact beyond.trans_le (ordered _ later)
          simp [passes, late]
        omega
      · have step := left_answer limiter key closes now
          (le_trans (Int.not_lt.mp beyond) short)
        have others := inductionHypothesis (limiter.allow first.key first.reading).2 sorted'
          short after'
        rw [answers, List.countP_cons]
        omega

/-- In an interval no longer than the window, a key is let through at most
`2 * maxAttempts` times. -/
theorem passed_le (limiter : RateLimiter) (key : String)
    (sorted : attempts.Pairwise (·.reading.now ≤ ·.reading.now))
    (short : closes ≤ opens + limiter.span) :
    (limiter.answers attempts).countP (passes key opens closes) ≤
      2 * limiter.maxAttempts.toNat := by
  induction attempts generalizing limiter with
  | nil => simp [answers]
  | cons first rest inductionHypothesis =>
      obtain ⟨ordered, sorted'⟩ := List.pairwise_cons.mp sorted
      by_cases early : first.reading.now < opens
      · have others := inductionHypothesis (limiter.allow first.key first.reading).2 sorted' short
        simpa [answers, passes, not_le.mpr early] using others
      · have now : opens ≤ first.reading.now := Int.not_lt.mp early
        exact (passed_le_left limiter key sorted short (List.forall_mem_cons.mpr
          ⟨now, fun attempt later => now.trans (ordered attempt later)⟩)).trans
            (left_le _ _ _)

end Interval

section Windows

open Windows

variable {entry : Entry} {readings : List Reading} {windows : List (Window ℤ Reading)}

/-- The meter that an entry is. -/
def Entry.meter (entry : Entry) : Meter ℤ := ⟨entry.windowStart, entry.count⟩

/-- The entry that the next call for the key charges. -/
def Finds (limiter : RateLimiter) (key : String) (readings : List Reading) (entry : Entry) : Prop :=
  ∀ first ∈ readings.head?,
    (limiter.attempts key).getD { windowStart := first.made } = entry

/-- A call charges the meter of the entry it finds. -/
theorem meter_charged (found : limiter.Finds key (reading :: readings) entry) :
    (limiter.charged key reading).meter = entry.meter.charge limiter.span reading.now := by
  have isEntry := found reading rfl
  rcases limiter.charged_cases key reading with ⟨beyond, same⟩ | ⟨within, same⟩
  · rw [isEntry] at beyond
    rw [same, Meter.charge_of_lt beyond, Entry.meter]
  · rw [isEntry] at within same
    rw [same, Meter.charge_of_le within, Entry.meter, Entry.meter]

/-- The next call for the key finds what this one left. -/
theorem finds_allow :
    (limiter.allow key reading).2.Finds key readings (limiter.charged key reading) := by
  intro _ _
  rw [attempts_allow, Option.getD_some]

theorem finds_allow_other (found : limiter.Finds key (own key (attempt :: attempts)) entry)
    (different : attempt.key ≠ key) :
    (limiter.allow attempt.key attempt.reading).2.Finds key (own key attempts) entry := by
  intro first isFirst
  rw [own_cons_other different] at found
  rw [attempts_allow_other (Ne.symm different)]
  exact found first isFirst

/-- The answers to a key are what its own meter stands at, held against the maximum. -/
theorem answersTo_eq (found : limiter.Finds key (own key attempts) entry) :
    limiter.answersTo key attempts =
      (entry.meter.counts Reading.now limiter.span (own key attempts)).map fun count : ℕ =>
        decide ((count : ℤ) ≤ limiter.maxAttempts) := by
  induction attempts generalizing limiter entry with
  | nil => rfl
  | cons attempt attempts inductionHypothesis =>
      by_cases same : attempt.key = key
      · rw [own_cons_same same] at found ⊢
        subst same
        rw [answersTo_cons_same rfl, inductionHypothesis finds_allow, Meter.counts,
          ← meter_charged found]
        rfl
      · rw [answersTo_cons_other same, own_cons_other same,
          inductionHypothesis (finds_allow_other found same)]
        rfl

/-- What a call holds against the maximum is one of the counts of the key's own meter. -/
theorem charged_mem_counts {later : List Attempt}
    (found : limiter.Finds key (own key (attempts ++ attempt :: later)) entry)
    (same : attempt.key = key) :
    ((limiter.after attempts).charged key attempt.reading).count ∈
      entry.meter.counts Reading.now limiter.span (own key (attempts ++ attempt :: later)) := by
  induction attempts generalizing limiter entry with
  | nil =>
      rw [List.nil_append, own_cons_same same] at found ⊢
      rw [Meter.counts, ← meter_charged found]
      exact List.mem_cons_self
  | cons first attempts inductionHypothesis =>
      rw [List.cons_append] at found ⊢
      by_cases isKey : first.key = key
      · rw [own_cons_same isKey] at found ⊢
        rw [Meter.counts, ← meter_charged found]
        subst isKey
        exact List.mem_cons_of_mem _ (inductionHypothesis finds_allow)
      · rw [own_cons_other isKey]
        exact inductionHypothesis (finds_allow_other found isKey)

/-- The answers for a key depend on its own calls alone. -/
theorem answersTo_congr {others : List Attempt} (same : own key others = own key attempts) :
    limiter.answersTo key others = limiter.answersTo key attempts := by
  cases isOwn : own key attempts with
  | nil =>
      have found : limiter.Finds key [] ⟨0, 0⟩ := fun first isFirst => by simp at isFirst
      rw [answersTo_eq (same ▸ isOwn ▸ found), answersTo_eq (isOwn ▸ found), same]
  | cons first readings =>
      have found : limiter.Finds key (first :: readings)
          ((limiter.attempts key).getD { windowStart := first.made }) := by
        intro other isOther
        rw [Option.mem_some.mp isOther]
      rw [answersTo_eq (same ▸ isOwn ▸ found), answersTo_eq (isOwn ▸ found), same]

/-- Where the window that a key's first call opens is counted from, if windows last for
`span`: the call makes the entry a little after it reads the clock. -/
def opening (span : ℤ) (reading : Reading) : ℤ :=
  if span < reading.now - reading.made then reading.now else reading.made

/-- The windows of a key's calls, if windows last for `span`: the first is counted from the
key's first call, each other from the first call more than `span` after the last one began. -/
structure InWindows (span : ℤ) (readings : List Reading)
    (windows : List (Window ℤ Reading)) : Prop where
  covers : windows.flatMap Window.events = readings
  first : ∀ window ∈ windows.head?, window.start = opening span window.opener
  restarting : Restarting Reading.now span windows

/-- The calls of a key fall into windows. -/
theorem exists_inWindows (span : ℤ) (readings : List Reading) :
    ∃ windows, InWindows span readings windows := by
  cases readings with
  | nil => exact ⟨[], rfl, by simp, by simp, List.isChain_nil⟩
  | cons opener readings =>
      obtain ⟨rest, windows, restarting, covers⟩ := exists_restarting Reading.now span
        (opening span opener) opener readings
      exact ⟨_, by simp [Window.events, covers], by simp, restarting⟩

/-- In each of its windows, a new limiter counts a key's calls from 1. -/
theorem counts_of_inWindows (key : String) (inWindows : InWindows limiter.span readings windows)
    (isNew : limiter.attempts key = none) :
    ∃ entry, limiter.Finds key readings entry ∧
      entry.meter.counts Reading.now limiter.span readings =
        windows.flatMap fun window => List.range' 1 window.events.length := by
  obtain ⟨covers, first, restarting⟩ := inWindows
  cases windows with
  | nil =>
      subst covers
      exact ⟨⟨0, 0⟩, fun first isFirst => by simp at isFirst, rfl⟩
  | cons window windows =>
      subst covers
      have opened : (Entry.meter ⟨window.opener.made, 0⟩).charge limiter.span window.opener.now =
          ⟨window.start, 1⟩ := by
        rw [first window rfl, opening, Entry.meter, Meter.charge]
        split_ifs <;> rfl
      refine ⟨⟨window.opener.made, 0⟩, fun other isOther => ?_,
        Meter.counts_of_restarting opened restarting⟩
      obtain rfl : window.opener = other := by simpa [Window.events] using isOther
      rw [isNew, Option.getD_none]

/-- With fewer than `2 ^ 31` calls of a key in a window, its counter stays an `int`. -/
theorem charged_lt {later : List Attempt} (isNew : limiter.attempts key = none)
    (inWindows : InWindows limiter.span (own key (attempts ++ attempt :: later)) windows)
    (few : ∀ window ∈ windows, window.events.length < 2 ^ 31) (same : attempt.key = key) :
    ((limiter.after attempts).charged key attempt.reading).count < 2 ^ 31 := by
  obtain ⟨entry, found, counts⟩ := counts_of_inWindows key inWindows isNew
  have member := charged_mem_counts found same
  rw [counts] at member
  obtain ⟨window, isWindow, counted⟩ := List.mem_flatMap.mp member
  have inside := List.mem_range'_1.mp counted
  have bound := few window isWindow
  omega

/-- What of a window's calls passes, if its first `maxAttempts` do. -/
def firstPass (maxAttempts : ℤ) (window : Window ℤ Reading) : List Bool :=
  (List.range' 1 window.events.length).map fun place : ℕ => decide ((place : ℤ) ≤ maxAttempts)

/-- What a new limiter answers to a key, window by window. -/
theorem answersTo_of_inWindows (maxAttempts window : ℤ)
    (inWindows : InWindows (span { maxAttempts := maxAttempts, window := window })
      (own key attempts) windows) :
    answersTo { maxAttempts := maxAttempts, window := window } key attempts =
      windows.flatMap (firstPass maxAttempts) := by
  obtain ⟨entry, found, counts⟩ := counts_of_inWindows key inWindows rfl
  rw [answersTo_eq found, counts, List.map_flatMap]
  rfl

/-- A limiter's answers to a key in a sequence of calls, for windows of exactly `window`
seconds: they depend on the key's own readings alone; in an interval no longer than the
window at most `2 * maxAttempts` calls pass, where a negative maximum lets none pass; and in
each of the key's windows exactly the first `maxAttempts` pass. -/
structure Limits (maxAttempts window : ℤ) (key : String) (attempts : List Attempt) : Prop where
  independent : ∀ others, own key others = own key attempts →
    answersTo { maxAttempts := maxAttempts, window := window } key others =
      answersTo { maxAttempts := maxAttempts, window := window } key attempts
  bounded : ∀ opens closes, closes - opens ≤ window * 1000000000 →
    (answers { maxAttempts := maxAttempts, window := window } attempts).countP
      (passes key opens closes) ≤ 2 * maxAttempts.toNat
  windowed : ∃ windows, InWindows (window * 1000000000) (own key attempts) windows
  first : ∀ windows, InWindows (window * 1000000000) (own key attempts) windows →
    answersTo { maxAttempts := maxAttempts, window := window } key attempts =
      windows.flatMap (firstPass maxAttempts)

/-- The clock's 64 bits hold the window. -/
def Holds (window : ℤ) : Prop :=
  -2 ^ 63 ≤ window * 1000000000 ∧ window * 1000000000 < 2 ^ 63

theorem span_eq (fits : Holds limiter.window) : limiter.span = limiter.window * 1000000000 :=
  Int.bmod_eq_of_le fits.1 fits.2

theorem neg_le_span (limiter : RateLimiter) : -2 ^ 63 ≤ limiter.span :=
  Int.le_bmod (by decide)

theorem span_lt (limiter : RateLimiter) : limiter.span < 2 ^ 63 :=
  Int.bmod_lt (by decide)

/-- A limiter whose window the clock holds keeps to it. -/
theorem limits_of_holds (maxAttempts : ℤ) {window : ℤ} (fits : Holds window) (key : String)
    (sorted : attempts.Pairwise (·.reading.now ≤ ·.reading.now)) :
    Limits maxAttempts window key attempts := by
  have exact : span { maxAttempts := maxAttempts, window := window } = window * 1000000000 :=
    span_eq fits
  refine ⟨fun others same => answersTo_congr same, fun opens closes short => ?_,
    exists_inWindows _ _, fun windows inWindows => ?_⟩
  · exact passed_le _ key sorted (by omega)
  · exact answersTo_of_inWindows maxAttempts window (exact ▸ inWindows)

section Apart

variable {maxAttempts : ℤ}

theorem mem_firstPass {window : Window ℤ Reading} {answer : Bool} :
    answer ∈ firstPass maxAttempts window ↔
      ∃ place : ℕ, 1 ≤ place ∧ place ≤ window.events.length ∧
        decide ((place : ℤ) ≤ maxAttempts) = answer := by
  simp only [firstPass, List.mem_map, List.mem_range'_1, and_assoc]
  exact exists_congr fun place => and_congr_right fun _ => and_congr_left fun _ => by omega

/-- Windows short enough let all their calls through. -/
theorem notMem_of_short
    (short : ∀ window ∈ windows, (window.events.length : ℤ) ≤ maxAttempts) :
    false ∉ windows.flatMap (firstPass maxAttempts) := by
  intro refused
  obtain ⟨window, member, refused⟩ := List.mem_flatMap.mp refused
  obtain ⟨place, -, inside, above⟩ := mem_firstPass.mp refused
  have bound := short window member
  exact of_decide_eq_false above (by omega)

/-- A window that is longer refuses its last call. -/
theorem mem_of_long {window : Window ℤ Reading} (long : maxAttempts < window.events.length) :
    false ∈ [window].flatMap (firstPass maxAttempts) := by
  rw [List.flatMap_singleton, mem_firstPass]
  exact ⟨window.events.length, by simp [Window.events], le_rfl, decide_eq_false (not_le.mpr long)⟩

/-- Where nothing may pass, it does not matter how the calls fall into windows. -/
theorem flatMap_firstPass_of_nonpos (nothing : maxAttempts ≤ 0)
    (windows : List (Window ℤ Reading)) :
    windows.flatMap (firstPass maxAttempts) =
      List.replicate (windows.flatMap Window.events).length false := by
  refine List.eq_replicate_iff.mpr ⟨by simp [firstPass, List.length_flatMap], ?_⟩
  intro answer member
  obtain ⟨window, -, member⟩ := List.mem_flatMap.mp member
  obtain ⟨place, positive, -, rfl⟩ := mem_firstPass.mp member
  exact decide_eq_false (by omega)

/-- Calls that all join the first one are in one window. -/
theorem inWindows_single {span : ℤ} (reading : Reading) (readings : List Reading)
    (joins : ∀ event ∈ readings, event.now - opening span reading ≤ span) :
    InWindows span (reading :: readings) [⟨opening span reading, reading, readings⟩] where
  covers := by simp [Window.events]
  first := by simp
  restarting := ⟨by simpa using joins, List.isChain_singleton _⟩

/-- Where a window ends at once, each of the same calls has one of its own. -/
theorem inWindows_replicate {span : ℤ} (negative : span < 0)
    (beyond : span < reading.now - reading.made) (times : ℕ) :
    InWindows span (List.replicate times reading)
      (List.replicate times ⟨reading.now, reading, []⟩) where
  covers := by
    induction times with
    | zero => rfl
    | succ times inductionHypothesis =>
        simp [List.replicate_succ, inductionHypothesis, Window.events]
  first window isFirst := by
    obtain rfl := List.eq_of_mem_replicate (List.mem_of_mem_head? isFirst)
    exact (if_pos beyond).symm
  restarting := by
    refine ⟨fun window member => ?_, List.isChain_replicate_of_rel times ⟨rfl, by simpa⟩⟩
    obtain rfl := List.eq_of_mem_replicate member
    simp

/-- Windows of different lengths let different calls through. -/
theorem exists_apart (positive : 1 ≤ maxAttempts) {less more : ℤ} (shorter : less < more) :
    ∃ (readings : List Reading) (windows windows' : List (Window ℤ Reading)),
      readings.Pairwise (·.now ≤ ·.now) ∧
      InWindows less readings windows ∧ InWindows more readings windows' ∧
      windows.flatMap (firstPass maxAttempts) ≠ windows'.flatMap (firstPass maxAttempts) := by
  obtain ⟨most, rfl⟩ : ∃ most : ℕ, maxAttempts = most + 1 :=
    ⟨(maxAttempts - 1).toNat, by omega⟩
  rcases lt_or_ge less 0 with negative | nonneg
  · -- The entry is made so late that the next calls still join it in the longer window.
    let call : Reading := ⟨-1, -1 - min more 0⟩
    have late : call.now - call.made = min more 0 := by simp [call]
    have made : opening more call = call.made := if_neg (by omega)
    have alone : false ∉ (List.replicate (most + 2) ⟨call.now, call, []⟩).flatMap
        (firstPass (most + 1)) := by
      refine notMem_of_short fun window member => ?_
      rw [List.eq_of_mem_replicate member]
      simp [Window.events]
    refine ⟨List.replicate (most + 2) call, _, _, List.pairwise_replicate.mpr (Or.inr le_rfl),
      inWindows_replicate negative (by omega) _,
      inWindows_single call (List.replicate (most + 1) call) ?_, fun same => ?_⟩
    · intro event member
      rw [List.eq_of_mem_replicate member, made]
      omega
    · rw [same] at alone
      exact alone (mem_of_long (by simp [Window.events]))
  · -- The last call comes too late for the shorter window, and in time for the longer one.
    let call : Reading := ⟨0, 0⟩
    let last : Reading := ⟨less + 1, less + 1⟩
    have made (span : ℤ) : opening span call = 0 := by simp [opening, call]
    have split : false ∉ [⟨opening less call, call, List.replicate most call⟩,
        ⟨less + 1, last, []⟩].flatMap (firstPass (most + 1)) :=
      notMem_of_short (by simp [Window.events])
    refine ⟨call :: List.replicate most call ++ [last],
      [⟨opening less call, call, List.replicate most call⟩, ⟨less + 1, last, []⟩], _, ?_,
      ⟨by simp [Window.events], by simp, ⟨?_, ?_⟩⟩,
      inWindows_single call (List.replicate most call ++ [last]) ?_, fun same => ?_⟩
    · refine List.pairwise_append.mpr ⟨?_, List.pairwise_singleton _ _, ?_⟩
      · exact List.pairwise_replicate (n := most + 1).mpr (Or.inr le_rfl)
      · simp [call, last]
        omega
    · simp [made, call]
      omega
    · simp [made, last]
    · intro event member
      rw [made]
      rcases List.mem_append.mp member with early | late
      · rw [List.eq_of_mem_replicate early]
        simp only [call]
        omega
      · rw [List.mem_singleton.mp late]
        simp only [last]
        omega
    · rw [same] at split
      exact split (mem_of_long (by simp [Window.events]))

end Apart

theorem own_map (key : String) (readings : List Reading) :
    own key (readings.map (Attempt.mk key)) = readings := by
  induction readings with
  | nil => rfl
  | cons reading readings inductionHypothesis =>
      have same : (Attempt.mk key reading).key = key := rfl
      rw [List.map_cons, own_cons_same same, inductionHypothesis]

/-- A limiter whose maximum is not positive refuses every call. -/
theorem refused_of_nonpos (limiter : RateLimiter) (nothing : limiter.maxAttempts ≤ 0)
    {answer : Attempt × Bool} (member : answer ∈ limiter.answers attempts) : answer.2 = false := by
  induction attempts generalizing limiter with
  | nil => simp [answers] at member
  | cons first rest inductionHypothesis =>
      rcases List.mem_cons.mp member with rfl | later
      · have counted : 1 ≤ (limiter.charged first.key first.reading).count := by
          simp [charged]
        exact decide_eq_false (by omega)
      · exact inductionHypothesis (limiter.allow first.key first.reading).2 nothing later

theorem limits_of_nonpos {maxAttempts : ℤ} (nothing : maxAttempts ≤ 0) (window : ℤ) (key : String)
    (attempts : List Attempt) : Limits maxAttempts window key attempts := by
  have answered {windows : List (Window ℤ Reading)}
      (covers : windows.flatMap Window.events = own key attempts) :
      answersTo { maxAttempts := maxAttempts, window := window } key attempts =
        windows.flatMap (firstPass maxAttempts) := by
    obtain ⟨kept, inWindows⟩ := exists_inWindows
      (span { maxAttempts := maxAttempts, window := window }) (own key attempts)
    rw [answersTo_of_inWindows maxAttempts window inWindows, flatMap_firstPass_of_nonpos nothing,
      flatMap_firstPass_of_nonpos nothing, inWindows.covers, covers]
  refine ⟨fun others same => answersTo_congr same, fun opens closes short => ?_,
    exists_inWindows _ _, fun windows inWindows => answered inWindows.covers⟩
  refine (List.countP_eq_zero.mpr fun answer member => ?_).le.trans (Nat.zero_le _)
  have refused := refused_of_nonpos { maxAttempts := maxAttempts, window := window } nothing member
  simp [passes, refused]

/-- A limiter keeps to its window for every sequence of calls exactly if the clock's 64 bits
hold the window, or nothing may pass at all. -/
theorem limits_iff (maxAttempts window : ℤ) :
    (∀ key attempts, attempts.Pairwise (·.reading.now ≤ ·.reading.now) →
      Limits maxAttempts window key attempts) ↔ maxAttempts ≤ 0 ∨ Holds window := by
  constructor
  · intro limits
    by_contra neither
    obtain ⟨positive, beyond⟩ := not_or.mp neither
    have positive : 1 ≤ maxAttempts := not_le.mp positive
    have differ : span { maxAttempts := maxAttempts, window := window } ≠ window * 1000000000 := by
      intro same
      refine beyond ⟨?_, ?_⟩ <;> rw [← same]
      · exact neg_le_span _
      · exact span_lt _
    have agree {readings : List Reading} {windows windows' : List (Window ℤ Reading)}
        (sorted : readings.Pairwise (·.now ≤ ·.now))
        (counted : InWindows (span { maxAttempts := maxAttempts, window := window }) readings
          windows) (asked : InWindows (window * 1000000000) readings windows') :
        windows.flatMap (firstPass maxAttempts) = windows'.flatMap (firstPass maxAttempts) := by
      rw [← own_map "" readings] at counted asked
      have kept := (limits "" _ (List.pairwise_map.mpr sorted)).first windows' asked
      rw [← kept, answersTo_of_inWindows maxAttempts window counted]
    rcases lt_or_gt_of_ne differ with less | more
    · obtain ⟨readings, windows, windows', sorted, counted, asked, apart⟩ :=
        exists_apart positive less
      exact apart (agree sorted counted asked)
    · obtain ⟨readings, windows, windows', sorted, asked, counted, apart⟩ :=
        exists_apart positive more
      exact apart (agree sorted counted asked).symm
  · rintro (nothing | fits) key attempts sorted
    · exact limits_of_nonpos nothing window key attempts
    · exact limits_of_holds maxAttempts fits key sorted

/-- Three calls at one instant. -/
def thrice : List Attempt := List.replicate 3 ⟨"ann", ⟨0, 0⟩⟩

/-- In a window of `10 ^ 10` seconds, all three pass where two may. -/
theorem not_limits_of_thrice :
    ¬ ∀ maxAttempts window key attempts, attempts.Pairwise (·.reading.now ≤ ·.reading.now) →
      Limits maxAttempts window key attempts := by
  intro limits
  have bounded := (limits 1 10000000000 "ann" thrice (by decide)).bounded 0 0 (by decide)
  revert bounded
  decide

end Windows

end RateLimiter

end ReceiptScanner
