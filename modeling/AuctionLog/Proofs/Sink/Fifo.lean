import AuctionLog.Proofs.Recorder.Attempt

/-!
# Nothing is lost or doubled on the way through a queue

Any number of holders offer lines to a queue, some straight to the sink and some through a recorder,
while the owner of the receiver takes lines out and may at last drop the receiver. The history below
keeps what each of them saw. The invariant of a run is that the lines taken in are those handed out,
those lost with the receiver and those still queued, in this order.
-/

namespace AuctionLog

/-- What the holders of the two ends of a queue may do, in any order. -/
inductive QueueStep where
  /-- A holder of the sink offers a line. -/
  | emit (span : Span) (line : String)
  | addSender
  | dropSender
  /-- A holder of the recorder uses it, or the owner of the receiver takes lines or drops it. -/
  | use (step : SessionStep)

/-- What was seen at a queue: the lines it took in, those handed out, those lost with the receiver,
and how often it was full. -/
structure QueueHistory where
  accepted : List String
  received : List String
  lost : List String
  fullRefusals : Nat

namespace QueueHistory

def empty : QueueHistory :=
  { accepted := [], received := [], lost := [], fullRefusals := 0 }

def offered (history : QueueHistory) (line : String) (refusal : Option String) : QueueHistory :=
  match refusal with
  | none => { history with accepted := history.accepted ++ [line] }
  | some reason =>
      if reason = Refusal.full.message then
        { history with fullRefusals := history.fullRefusals + 1 }
      else history

/-- The history after a step, by what the step is answered in the session. -/
def after (history : QueueHistory) (session : Session) : QueueStep → QueueHistory
  | .emit span line => history.offered line (session.station.offer span line).1
  | .use (.record event) | .use (.attempt event) =>
      (session.recorder.line? event).elim history fun line =>
        history.offered line (session.station.offer Recorder.attemptSpan line).1
  | .use (.drain limit) =>
      { history with received := history.received ++ (session.station.sink.drain limit).1 }
  | .use .dropReceiver => { history with lost := history.lost ++ session.station.sink.lines }
  | .addSender | .dropSender | .use .clone | .use (.rename _) | .use .identity => history

end QueueHistory

namespace Session

/-- The session after another holder was added to its queue, or one was dropped. -/
def mapQueue (session : Session) (change : Queue → Queue) : Session :=
  match session.station.sink with
  | .queue queue => session.withSink (.queue (change queue))
  | _ => session

def queueStep (session : Session) : QueueStep → Session
  | .emit span line => { session with station := (session.station.offer span line).2 }
  | .addSender => session.mapQueue Queue.addSender
  | .dropSender => session.mapQueue Queue.dropSender
  | .use step => (session.step step).2

/-- The session after the steps, and what was seen at its queue. -/
def watch (session : Session) (history : QueueHistory) : List QueueStep → Session × QueueHistory
  | [] => (session, history)
  | step :: rest => (session.queueStep step).watch (history.after session step) rest

/-- The session that is left of one that starts with the queue, and what was seen there. -/
def watched (encoder : Encoder) (name : Option String) (queue : Queue) (steps : List QueueStep) :
    Session × QueueHistory :=
  (start encoder name (.queue queue)).watch .empty steps

end Session

def QueueStep.dropsReceiver : QueueStep → Bool
  | .use .dropReceiver => true
  | _ => false

/-- What holds of a queue and its history at every point of a run. `dropped` says whether the
receiver has been dropped. -/
structure Fifo (capacity : Nat) (dropped : Bool) (station : Station) (history : QueueHistory)
    (queue : Queue) : Prop where
  sink_eq : station.sink = .queue queue
  capacity_eq : queue.capacity = capacity
  bounded : queue.lines.length ≤ capacity
  conserved : history.accepted = history.received ++ history.lost ++ queue.lines
  listening : dropped = false → queue.receiver = .listening ∧ history.lost = []
  gone : dropped = true → queue.receiver = .gone ∧ queue.lines = []
  counted : station.counts.count .queueFull = history.fullRefusals

namespace Fifo

variable {capacity : Nat} {dropped : Bool} {station next : Station} {history : QueueHistory}
  {queue : Queue}

theorem receiver_eq_listening_iff (hfifo : Fifo capacity dropped station history queue) :
    queue.receiver = .listening ↔ dropped = false := by
  cases dropped with
  | false => simp [hfifo.listening rfl]
  | true => simp [(hfifo.gone rfl).1]

theorem offered (hfifo : Fifo capacity dropped station history queue) (line : String)
    (hsink : next.sink = (station.sink.offer line).sink)
    (hcounts : next.counts = station.counts ++ (station.sink.offer line).counts) :
    ∃ queue, Fifo capacity dropped next
      (history.offered line (station.sink.offer line).refusal) queue := by
  have hcounted := hfifo.counted
  cases hoffer : queue.offer line with
  | ok longer =>
      obtain ⟨hreceiver, hroom, rfl⟩ := Queue.offer_eq_ok_iff.mp hoffer
      simp only [hfifo.sink_eq, Sink.offer, hoffer] at hsink hcounts ⊢
      have hopen := hfifo.receiver_eq_listening_iff.mp hreceiver
      refine ⟨_, hsink, hfifo.capacity_eq, ?_, ?_, hfifo.listening, ?_, ?_⟩
      · rw [List.length_append, List.length_singleton, ← hfifo.capacity_eq]
        exact hroom
      · simp [QueueHistory.offered, hfifo.conserved]
      · intro hdropped
        exact absurd (hopen.symm.trans hdropped) Bool.false_ne_true
      · simpa [hcounts, QueueHistory.offered] using hcounted
  | error refusal =>
      cases refusal with
      | full =>
          simp only [hfifo.sink_eq, Sink.offer, hoffer] at hsink hcounts ⊢
          refine ⟨queue, hsink, hfifo.capacity_eq, hfifo.bounded, hfifo.conserved, hfifo.listening,
            hfifo.gone, ?_⟩
          simp [hcounts, QueueHistory.offered, hcounted]
      | closed =>
          simp only [hfifo.sink_eq, Sink.offer, hoffer] at hsink hcounts ⊢
          have hother : Refusal.closed.message ≠ Refusal.full.message := by decide
          refine ⟨queue, hsink, hfifo.capacity_eq, hfifo.bounded, ?_, ?_, hfifo.gone, ?_⟩
          · simpa [QueueHistory.offered, hother] using hfifo.conserved
          · simpa [QueueHistory.offered, hother] using hfifo.listening
          · simpa [hcounts, QueueHistory.offered, hother] using hcounted

/-- An event that is recorded or attempted reaches the queue by the offer of its line, if it has
one. -/
theorem attempted (hfifo : Fifo capacity dropped station history queue) (recorder : Recorder)
    (event : Option Event) :
    ∃ queue, Fifo capacity dropped (recorder.attempt event station).2
      ((recorder.line? event).elim history fun line =>
        history.offered line (station.sink.offer line).refusal) queue := by
  have hsink := recorder.attempt_sink event station
  have hcounts := recorder.attempt_counts event station
  cases hline : recorder.line? event with
  | none =>
      simp only [hline, Option.map_none, Option.getD_none, List.append_nil] at hsink hcounts
      exact ⟨queue, hsink.trans hfifo.sink_eq, hfifo.capacity_eq, hfifo.bounded, hfifo.conserved,
        hfifo.listening, hfifo.gone, hcounts ▸ hfifo.counted⟩
  | some line =>
      simp only [hline, Option.map_some, Option.getD_some] at hsink hcounts
      exact hfifo.offered line hsink hcounts

/-- The books do not change as long as the lines, the receiver and the full queues counted do
not. -/
theorem unchanged {changed : Queue} (hfifo : Fifo capacity dropped station history queue)
    (hsink : next.sink = .queue changed) (hcapacity : changed.capacity = queue.capacity)
    (hlines : changed.lines = queue.lines) (hreceiver : changed.receiver = queue.receiver)
    (hcounts : next.counts.count .queueFull = station.counts.count .queueFull) :
    Fifo capacity dropped next history changed where
  sink_eq := hsink
  capacity_eq := hcapacity.trans hfifo.capacity_eq
  bounded := hlines ▸ hfifo.bounded
  conserved := hlines ▸ hfifo.conserved
  listening := hreceiver ▸ hfifo.listening
  gone := hreceiver ▸ hlines ▸ hfifo.gone
  counted := hcounts.trans hfifo.counted

theorem drained (hfifo : Fifo capacity dropped station history queue) (limit : Option Nat)
    (hsink : next.sink = (station.sink.drain limit).2) (hcounts : next.counts = station.counts) :
    ∃ queue, Fifo capacity dropped next
      { history with received := history.received ++ (station.sink.drain limit).1 } queue := by
  have hsplit : (queue.drain limit).1 ++ (queue.drain limit).2.lines = queue.lines := by
    cases limit <;> simp [Queue.drain]
  have hlength := congrArg List.length hsplit
  have hreceiver : (queue.drain limit).2.receiver = queue.receiver := by
    cases limit <;> rfl
  have hcapacity : (queue.drain limit).2.capacity = queue.capacity := by
    cases limit <;> rfl
  have hbounded := hfifo.bounded
  simp only [hfifo.sink_eq, Sink.drain] at hsink ⊢
  refine ⟨(queue.drain limit).2, hsink, hcapacity.trans hfifo.capacity_eq, ?_, ?_, ?_, ?_, ?_⟩
  · rw [List.length_append] at hlength
    omega
  · cases dropped with
    | false =>
        rw [hfifo.conserved, (hfifo.listening rfl).2, ← hsplit]
        simp
    | true =>
        have hempty := (hfifo.gone rfl).2
        rw [hempty, List.append_eq_nil_iff] at hsplit
        simp [hfifo.conserved, hempty, hsplit]
  · exact hreceiver ▸ hfifo.listening
  · intro hdropped
    obtain ⟨hgone, hempty⟩ := hfifo.gone hdropped
    rw [hempty, List.append_eq_nil_iff] at hsplit
    exact ⟨hreceiver.trans hgone, hsplit.2⟩
  · simpa [hcounts] using hfifo.counted

theorem droppedReceiver (hfifo : Fifo capacity dropped station history queue)
    (hsink : next.sink = station.sink.dropReceiver) (hcounts : next.counts = station.counts) :
    ∃ queue, Fifo capacity true next
      { history with lost := history.lost ++ station.sink.lines } queue := by
  simp only [hfifo.sink_eq, Sink.dropReceiver, Sink.lines] at hsink ⊢
  refine ⟨queue.dropReceiver, hsink, hfifo.capacity_eq, ?_, ?_, ?_, ?_, ?_⟩
  · simp [Queue.dropReceiver]
  · simp [Queue.dropReceiver, hfifo.conserved]
  · simp
  · simp [Queue.dropReceiver]
  · simpa [hcounts] using hfifo.counted

theorem queueStep {session : Session} (hfifo : Fifo capacity dropped session.station history queue)
    (step : QueueStep) :
    ∃ queue, Fifo capacity (dropped || step.dropsReceiver) (session.queueStep step).station
      (history.after session step) queue := by
  by_cases hdrops : step.dropsReceiver
  · obtain rfl : step = .use .dropReceiver := by
      cases step with
      | use step => cases step <;> simp_all [QueueStep.dropsReceiver]
      | emit | addSender | dropSender => simp [QueueStep.dropsReceiver] at hdrops
    rw [hdrops, Bool.or_true]
    exact hfifo.droppedReceiver rfl rfl
  rw [Bool.not_eq_true] at hdrops
  rw [hdrops, Bool.or_false]
  cases step with
  | emit span line => exact hfifo.offered line rfl rfl
  | addSender =>
      refine ⟨queue.addSender, hfifo.unchanged ?_ ?_ ?_ ?_ ?_⟩ <;>
        simp only [Session.queueStep, Session.mapQueue, hfifo.sink_eq, Session.withSink,
          Queue.addSender] <;> split <;> rfl
  | dropSender =>
      refine ⟨queue.dropSender, hfifo.unchanged ?_ rfl rfl rfl ?_⟩ <;>
        simp only [Session.queueStep, Session.mapQueue, hfifo.sink_eq, Session.withSink]
  | use step =>
      cases step with
      | record event =>
          obtain ⟨queue, hattempted⟩ := hfifo.attempted session.recorder event
          refine ⟨queue, hattempted.unchanged ?_ rfl rfl rfl ?_⟩
          · simpa [Session.queueStep] using hattempted.sink_eq
          · have hother : ∀ result, Recorder.outcomeOf result ≠ .queueFull := by
              rintro (_ | _) <;> simp [Recorder.outcomeOf]
            simp [Session.queueStep, hother]
      | attempt event =>
          have hattempted := hfifo.attempted session.recorder event
          rwa [← Session.step_attempt_station] at hattempted
      | drain limit => exact hfifo.drained limit rfl rfl
      | dropReceiver => simp [QueueStep.dropsReceiver] at hdrops
      | clone | rename | identity => exact ⟨queue, hfifo⟩

theorem watch {session : Session} (hfifo : Fifo capacity dropped session.station history queue)
    (steps : List QueueStep) :
    ∃ queue, Fifo capacity (dropped || steps.any QueueStep.dropsReceiver)
      (session.watch history steps).1.station (session.watch history steps).2 queue := by
  induction steps generalizing session history dropped queue with
  | nil => exact ⟨queue, by simpa [Session.watch] using hfifo⟩
  | cons step rest ih =>
      obtain ⟨next, hnext⟩ := hfifo.queueStep step
      rw [List.any_cons, ← Bool.or_assoc]
      exact ih hnext

theorem start (hnew : Queue.new capacity = .ok queue) (encoder : Encoder) (name : Option String) :
    Fifo capacity false (Session.start encoder name (.queue queue)).station .empty queue := by
  obtain ⟨-, -, rfl⟩ := Queue.new_eq_ok_iff.mp hnew
  exact
    { sink_eq := rfl
      capacity_eq := rfl
      bounded := Nat.zero_le capacity
      conserved := rfl
      listening := fun _ => ⟨rfl, rfl⟩
      gone := by simp
      counted := rfl }

/-- What the sink says to a line follows from the books alone. -/
theorem refusal_eq (hfifo : Fifo capacity dropped station history queue) (line : String) :
    (station.sink.offer line).refusal =
      if dropped then some Refusal.closed.message
      else if queue.lines.length < capacity then none
      else some Refusal.full.message := by
  have hcapacity := hfifo.capacity_eq
  rw [hfifo.sink_eq]
  cases hdropped : dropped with
  | true =>
      have hclosed : queue.offer line = .error .closed :=
        Queue.offer_eq_closed_iff.mpr (by simp [(hfifo.gone hdropped).1])
      simp [Sink.offer, hclosed]
  | false =>
      have hlistening := (hfifo.listening hdropped).1
      by_cases hroom : queue.lines.length < capacity
      · have hoffer : queue.offer line = .ok { queue with lines := queue.lines ++ [line] } :=
          Queue.offer_eq_ok_iff.mpr ⟨hlistening, by omega, rfl⟩
        simp [Sink.offer, hoffer, hroom]
      · have hoffer : queue.offer line = .error .full :=
          Queue.offer_eq_full_iff.mpr ⟨hlistening, by omega⟩
        simp [Sink.offer, hoffer, hroom]

end Fifo

namespace Session

/-- **A queue is first in, first out.** One can be had of every capacity but zero and those beyond
the greatest. Whatever its holders do, it never holds more lines than its capacity, the lines it
took in are those received, those lost with the receiver and those still queued, and what it says to
the next line follows from the receiver and the number of lines. -/
theorem watched_fifo (encoder : Encoder) (name : Option String) (capacity : Nat)
    (steps : List QueueStep) :
    ((∃ first, Queue.new capacity = .ok first) ↔
      0 < capacity ∧ capacity ≤ Queue.maxCapacity) ∧
    ∀ first, Queue.new capacity = .ok first →
      let (session, history) := watched encoder name first steps
      let dropped := steps.any QueueStep.dropsReceiver
      ∃ queue, Fifo capacity dropped session.station history queue ∧
        ∀ line,
          ((session.station.sink.offer line).refusal = none ↔
            dropped = false ∧ queue.lines.length < capacity) ∧
          ((session.station.sink.offer line).refusal = some "queue closed" ↔ dropped = true) ∧
          ((session.station.sink.offer line).refusal = some "queue full" ↔
            dropped = false ∧ queue.lines.length = capacity) ∧
          ((session.station.sink.offer line).refusal ≠ none →
            (session.station.sink.offer line).sink = session.station.sink) := by
  refine ⟨by simp [Queue.new_eq_ok_iff], fun first hnew => ?_⟩
  obtain ⟨queue, hfifo⟩ := (Fifo.start hnew encoder name).watch steps
  rw [Bool.false_or] at hfifo
  refine ⟨queue, hfifo, fun line => ?_⟩
  have hrefusal := hfifo.refusal_eq line
  have hkept : ((watched encoder name first steps).1.station.sink.offer line).refusal ≠ none →
      ((watched encoder name first steps).1.station.sink.offer line).sink =
        (watched encoder name first steps).1.station.sink := by
    intro hrefused
    obtain ⟨reason, hreason⟩ := Option.ne_none_iff_exists'.mp hrefused
    exact Sink.offer_sink_of_refused hreason
  refine ⟨?_, ?_, ?_, hkept⟩ <;> rw [hrefusal]
  · cases steps.any QueueStep.dropsReceiver <;> simp
  · cases steps.any QueueStep.dropsReceiver <;> simp [Refusal.message, ite_eq_iff]
  · have hfull : queue.lines.length = capacity ↔ ¬ queue.lines.length < capacity := by
      have hbounded := hfifo.bounded
      omega
    rw [hfull]
    cases steps.any QueueStep.dropsReceiver <;> simp [Refusal.message]

/-- A queue with room for one line takes in the first of two, and says that it is full to the second
and to all after it. -/
theorem watched_fifo_fullAtOnce :
    let steps : List QueueStep := [.emit Recorder.attemptSpan "first",
      .emit Recorder.attemptSpan "second"]
    ∃ first, Queue.new 1 = .ok first ∧
      let (session, history) := watched .json none first steps
      history.accepted = ["first"] ∧ history.fullRefusals = 1 ∧
        session.station.sink.lines = ["first"] ∧
        ∀ line, (session.station.sink.offer line).refusal = some "queue full" := by
  intro steps
  obtain ⟨hexists, hfifo⟩ := watched_fifo .json none 1 steps
  obtain ⟨first, hfirst⟩ := hexists.mpr (by decide)
  obtain ⟨queue, hqueue, hoffers⟩ := hfifo first hfirst
  obtain ⟨-, -, rfl⟩ := Queue.new_eq_ok_iff.mp hfirst
  have hlines : queue.lines = ["first"] := hqueue.conserved.symm
  refine ⟨_, hfirst, rfl, rfl, ?_, fun line => ?_⟩
  · rw [hqueue.sink_eq, Sink.lines, hlines]
  · exact (hoffers line).2.2.1.mpr ⟨rfl, by rw [hlines]; rfl⟩

end Session

end AuctionLog
