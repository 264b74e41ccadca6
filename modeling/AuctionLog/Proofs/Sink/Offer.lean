import AuctionLog.Station
import Mathlib.Tactic.Common

/-!
# What an offer can do

A sink takes a line whole or leaves it, and says which. Everything later that follows lines through
a sink rests on the two cases below: a line that is taken stands behind those already held, and a
line that is refused leaves the sink as it was.
-/

namespace AuctionLog

namespace Queue

/-- The queue that the owner of both ends starts with. -/
def fresh (capacity : Nat) : Queue :=
  { capacity, lines := [], senders := 1, receiver := .listening }

/-- A queue can be had of every capacity but zero and those beyond the greatest. -/
theorem new_eq_ok_iff {capacity : Nat} {queue : Queue} :
    new capacity = .ok queue ↔
      0 < capacity ∧ capacity ≤ maxCapacity ∧ queue = fresh capacity := by
  unfold new fresh
  split_ifs with hzero hgreat
  · simp [hzero]
  · simp only [false_iff, not_and]
    omega
  · simp only [Except.ok.injEq]
    constructor
    · intro heq
      exact ⟨by omega, by omega, heq.symm⟩
    · rintro ⟨-, -, rfl⟩
      rfl

variable {queue next : Queue} {line : String}

theorem offer_eq_ok_iff :
    queue.offer line = .ok next ↔
      queue.receiver = .listening ∧ queue.lines.length < queue.capacity ∧
        next = { queue with lines := queue.lines ++ [line] } := by
  unfold offer
  split_ifs with hreceiver hfull
  · simp [hreceiver]
  · simp only [false_iff, not_and]
    omega
  · simp only [Except.ok.injEq]
    constructor
    · intro heq
      exact ⟨not_not.mp hreceiver, by omega, heq.symm⟩
    · rintro ⟨-, -, rfl⟩
      rfl

theorem offer_eq_closed_iff :
    queue.offer line = .error .closed ↔ queue.receiver ≠ .listening := by
  unfold offer
  split_ifs with hreceiver hfull <;> simp [hreceiver]

theorem offer_eq_full_iff :
    queue.offer line = .error .full ↔
      queue.receiver = .listening ∧ queue.capacity ≤ queue.lines.length := by
  unfold offer
  split_ifs with hreceiver hfull
  · simp [hreceiver]
  · simp [not_not.mp hreceiver, hfull]
  · simp [hfull]

end Queue

namespace Sink

variable (sink : Sink) (line : String)

/-- What an offer can do: the line is taken and nothing is counted, or it is left, and only a full
queue is counted. -/
theorem offer_cases :
    ((sink.offer line).refusal = none ∧ (sink.offer line).counts = [] ∧
        (sink ≠ .journal → (sink.offer line).sink.lines = sink.lines ++ [line])) ∨
      (∃ reason, (sink.offer line).refusal = some reason ∧ (sink.offer line).sink = sink ∧
        ((sink.offer line).counts = [] ∨ (sink.offer line).counts = [.queueFull])) := by
  cases sink with
  | memory held => exact .inl ⟨rfl, rfl, fun _ => rfl⟩
  | closed => exact .inr ⟨_, rfl, rfl, .inl rfl⟩
  | journal => exact .inl ⟨rfl, rfl, fun h => absurd rfl h⟩
  | queue held =>
      cases hoffer : held.offer line with
      | ok next =>
          obtain ⟨-, -, rfl⟩ := Queue.offer_eq_ok_iff.mp hoffer
          left
          simp [offer, hoffer, lines]
      | error refusal =>
          right
          cases refusal with
          | full => exact ⟨Refusal.full.message, by simp [offer, hoffer]⟩
          | closed => exact ⟨Refusal.closed.message, by simp [offer, hoffer]⟩

variable {sink line}

theorem offer_sink_of_refused {reason : String}
    (hrefused : (sink.offer line).refusal = some reason) :
    (sink.offer line).sink = sink := by
  rcases sink.offer_cases line with ⟨htaken, -⟩ | ⟨_, -, hsink, -⟩
  · simp [htaken] at hrefused
  · exact hsink

theorem offer_lines_of_taken (hsink : sink ≠ .journal) (htaken : (sink.offer line).refusal = none) :
    (sink.offer line).sink.lines = sink.lines ++ [line] := by
  rcases sink.offer_cases line with ⟨-, -, hlines⟩ | ⟨_, hrefused, -⟩
  · exact hlines hsink
  · simp [htaken] at hrefused

theorem offer_ne_journal (hsink : sink ≠ .journal) : (sink.offer line).sink ≠ .journal := by
  rcases sink.offer_cases line with ⟨htaken, -, -⟩ | ⟨_, -, hsame, -⟩
  · cases sink with
    | journal => exact absurd rfl hsink
    | closed => simp [offer] at htaken
    | memory held => simp [offer]
    | queue held => cases hoffer : held.offer line with
      | ok next => simp [offer, hoffer]
      | error refusal => cases refusal <;> simp [offer, hoffer]
  · rwa [hsame]

end Sink

end AuctionLog
