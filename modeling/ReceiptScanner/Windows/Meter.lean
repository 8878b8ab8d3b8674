import Mathlib.Data.List.Chain
import Mathlib.Data.List.Range
import Mathlib.Order.Lattice

/-!
# Counting in windows that restart late

A meter counts events from the start of its window. The window does not end on a grid: the
first event that comes more than `span` after its start opens the next one. The counts are
then the places of the events in their windows.
-/

namespace Windows

variable {T α : Type}

/-- Events that are counted together: since when, the one that opened the window, and
those that joined it. -/
structure Window (T α : Type) where
  start : T
  opener : α
  rest : List α

def Window.events (window : Window T α) : List α := window.opener :: window.rest

variable [Sub T] [LinearOrder T] {time : α → T} {span : T}

/-- What joins a window comes within `span` of its start. What comes later opens the next
window, which starts there. -/
structure Restarting (time : α → T) (span : T) (windows : List (Window T α)) : Prop where
  joins : ∀ window ∈ windows, ∀ event ∈ window.rest, time event - window.start ≤ span
  opens : windows.IsChain fun window next =>
    next.start = time next.opener ∧ span < time next.opener - window.start

theorem Restarting.tail {window : Window T α} {windows : List (Window T α)}
    (restarting : Restarting time span (window :: windows)) : Restarting time span windows where
  joins other member := restarting.joins other (List.mem_cons_of_mem window member)
  opens := restarting.opens.tail

/-- Whatever opens the first window, the events fall into windows. -/
theorem exists_restarting (time : α → T) (span start : T) (opener : α) (events : List α) :
    ∃ rest windows, Restarting time span (⟨start, opener, rest⟩ :: windows) ∧
      rest ++ windows.flatMap Window.events = events := by
  induction events generalizing start opener with
  | nil => exact ⟨[], [], ⟨by simp, List.isChain_singleton _⟩, rfl⟩
  | cons event events inductionHypothesis =>
      by_cases beyond : span < time event - start
      · obtain ⟨rest, windows, restarting, covers⟩ := inductionHypothesis (time event) event
        refine ⟨[], ⟨time event, event, rest⟩ :: windows, ⟨?_, ?_⟩, ?_⟩
        · exact List.forall_mem_cons.mpr ⟨by simp, restarting.joins⟩
        · exact List.isChain_cons_cons.mpr ⟨⟨rfl, beyond⟩, restarting.opens⟩
        · simp [Window.events, covers]
      · obtain ⟨rest, windows, restarting, covers⟩ := inductionHypothesis start opener
        obtain ⟨joins, joined⟩ := List.forall_mem_cons.mp restarting.joins
        refine ⟨event :: rest, windows, ⟨?_, ?_⟩, ?_⟩
        · exact List.forall_mem_cons.mpr
            ⟨List.forall_mem_cons.mpr ⟨not_lt.mp beyond, joins⟩, joined⟩
        · cases windows with
          | nil => exact List.isChain_singleton _
          | cons next later =>
              exact List.isChain_cons_cons.mpr (List.isChain_cons_cons.mp restarting.opens)
        · simp [covers]

/-- When the window of a meter started, and how many events it has counted since. -/
structure Meter (T : Type) where
  start : T
  count : ℕ

namespace Meter

variable {meter : Meter T}

/-- The meter after one more event. -/
def charge (span : T) (meter : Meter T) (now : T) : Meter T :=
  if span < now - meter.start then ⟨now, 1⟩ else ⟨meter.start, meter.count + 1⟩

theorem charge_of_lt {now : T} (beyond : span < now - meter.start) :
    meter.charge span now = ⟨now, 1⟩ := if_pos beyond

theorem charge_of_le {now : T} (within : now - meter.start ≤ span) :
    meter.charge span now = ⟨meter.start, meter.count + 1⟩ := if_neg (not_lt.mpr within)

/-- What the meter stands at after each of the events. -/
def counts (time : α → T) (span : T) : Meter T → List α → List ℕ
  | _, [] => []
  | meter, event :: events =>
      let meter := meter.charge span (time event)
      meter.count :: counts time span meter events

/-- Events that join the window are counted on. -/
theorem counts_append {joined : List α} (later : List α)
    (joins : ∀ event ∈ joined, time event - meter.start ≤ span) :
    meter.counts time span (joined ++ later) = List.range' (meter.count + 1) joined.length ++
      counts time span ⟨meter.start, meter.count + joined.length⟩ later := by
  induction joined generalizing meter with
  | nil => rfl
  | cons event joined inductionHypothesis =>
      obtain ⟨within, joins⟩ := List.forall_mem_cons.mp joins
      have counted := @inductionHypothesis ⟨meter.start, meter.count + 1⟩ joins
      simp only [List.cons_append, counts, charge_of_le within, counted, List.length_cons,
        List.range'_succ, Nat.add_assoc, Nat.add_comm 1]

/-- From the opening of a window on, each event is counted by its place in its window. -/
theorem counts_of_restarting {window : Window T α} {windows : List (Window T α)}
    (opened : meter.charge span (time window.opener) = ⟨window.start, 1⟩)
    (restarting : Restarting time span (window :: windows)) :
    meter.counts time span ((window :: windows).flatMap Window.events) =
      (window :: windows).flatMap fun window => List.range' 1 window.events.length := by
  induction windows generalizing meter window with
  | nil =>
      have joins := restarting.joins window List.mem_cons_self
      have counted : counts time span ⟨window.start, 1⟩ (window.rest ++ []) = _ :=
        counts_append [] joins
      rw [List.append_nil] at counted
      simp [Window.events, counts, opened, counted, List.range'_succ]
  | cons next windows inductionHypothesis =>
      have joins := restarting.joins window List.mem_cons_self
      obtain ⟨⟨starts, beyond⟩, -⟩ := List.isChain_cons_cons.mp restarting.opens
      have reopened : Meter.charge span ⟨window.start, 1 + window.rest.length⟩
          (time next.opener) = ⟨next.start, 1⟩ := by
        rw [charge_of_lt beyond, starts]
      calc meter.counts time span ((window :: next :: windows).flatMap Window.events)
          = 1 :: (List.range' 2 window.rest.length ++ counts time span
              ⟨window.start, 1 + window.rest.length⟩
              ((next :: windows).flatMap Window.events)) := by
            rw [List.flatMap_cons, Window.events, List.cons_append, counts, opened,
              counts_append _ joins]
        _ = (window :: next :: windows).flatMap fun window =>
              List.range' 1 window.events.length := by
            rw [inductionHypothesis reopened restarting.tail, List.flatMap_cons (x := window),
              Window.events, List.length_cons, List.range'_succ, List.cons_append]

end Meter

end Windows
