import AuctionLog.Proofs.Recorder.Attempt
import AuctionLog.Proofs.Recorder.Series

/-!
# The books of a session

Whoever records events is told that all is well, whatever happened. The counters are the only other
account of it, so they have to be exact: over a whole run each call is counted once, as processed
when the sink has one line more, and as dropped under the stage that stopped it when the sink is
untouched. Attempts reach the same sink but are not counted.
-/

namespace AuctionLog

namespace Sink

variable {sink : Sink} {line : String}

theorem countP_offer_counts : (sink.offer line).counts.countP Counter.isOutcome = 0 := by
  rcases sink.offer_cases line with ⟨-, hcounts, -⟩ | ⟨_, -, -, hcounts | hcounts⟩ <;>
    simp [hcounts, Counter.isOutcome, Counter.isProcessed_eq, Counter.isDropped_eq]

theorem drain_ne_journal (hsink : sink ≠ .journal) (limit : Option Nat) :
    (sink.drain limit).2 ≠ .journal := by
  cases sink <;> simp_all [drain]

theorem dropReceiver_ne_journal (hsink : sink ≠ .journal) : sink.dropReceiver ≠ .journal := by
  cases sink <;> simp_all [dropReceiver]

end Sink

theorem Recorder.isOutcome_outcomeOf (result : Except Stop LogRecord) :
    (outcomeOf result).isOutcome := by
  cases result with
  | error stop => exact Counter.isOutcome_dropped _
  | ok record => exact Counter.isOutcome_processed _

def SessionStep.isRecord : SessionStep → Bool
  | .record _ => true
  | _ => false

/-- Whether a reply says that an attempt failed, with the name of the stage that it failed at. -/
inductive SessionReply.FailsAt : SessionReply → String → Prop where
  | conversion (fault : PayloadFault) : FailsAt (.faulted (.payload fault)) "conversion"
  | serialization (reason : String) : FailsAt (.faulted (.encoding reason)) "serialization"
  | sinkUnavailable (reason : String) : FailsAt (.faulted (.sink reason)) "sink_unavailable"
  | panic (message : String) : FailsAt (.panicked message) "panic"

/-- An attempt fails at one stage at most. -/
theorem SessionReply.FailsAt.iff_eq {reply : SessionReply} {name : String}
    (hfails : reply.FailsAt name) (other : String) : reply.FailsAt other ↔ other = name := by
  constructor
  · intro hother
    cases hfails <;> cases hother <;> rfl
  · rintro rfl
    exact hfails

namespace Session

/-- The steps that a run takes, each with the session that it finds. -/
def moves (session : Session) : List SessionStep → List (Session × SessionStep)
  | [] => []
  | step :: rest =>
      match session.step step with
      | (.panicked _, _) => [(session, step)]
      | (_, next) => (session, step) :: next.moves rest

/-- What is on the books for one call that records an event in a session. The `outcome` is what the
call is counted as, and its text is the one series of calls that grows. -/
structure Accounted (session : Session) (event : Option Event) (outcome : Counter) : Prop where
  acknowledged : (session.step (.record event)).1 = .acknowledged .ok
  countsCalls : Counter.CountsCalls outcome.text
  grows : ∀ series, Counter.CountsCalls series →
    (session.step (.record event)).2.station.counts.ofSeries series =
      session.station.counts.ofSeries series + if series = outcome.text then 1 else 0
  processed_iff : (∃ type, outcome.text = Counter.processedSeries type) ↔
    ∃ line, (session.step (.record event)).2.station.sink.lines =
      session.station.sink.lines ++ [line]
  typed : ∀ type, outcome.text = Counter.processedSeries type →
    ∃ record line, (session.step (.attempt event)).1 = .recorded record ∧
      record.endpoint.path = type ∧ session.recorder.encoder record = .line line ∧
      (session.step (.record event)).2.station.sink.lines = session.station.sink.lines ++ [line]
  dropped_iff : ∀ cause, outcome.text = Counter.droppedSeries cause ↔
    (session.step (.attempt event)).1.FailsAt cause
  sink_eq : ∀ cause, outcome.text = Counter.droppedSeries cause →
    (session.step (.record event)).2.station.sink = session.station.sink

variable {session : Session} {event : Option Event}

/-- A call that leaves the sink as it was, and is counted as dropped, is on the books when an
attempt would fail at the stage it is counted under. -/
theorem Accounted.of_dropped {cause : DropCause}
    (hgrows : ∀ series, Counter.CountsCalls series →
      (session.step (.record event)).2.station.counts.ofSeries series =
        session.station.counts.ofSeries series +
          if series = (Counter.dropped cause).text then 1 else 0)
    (hsame : (session.step (.record event)).2.station.sink = session.station.sink)
    (hfails : (session.step (.attempt event)).1.FailsAt cause.name) :
    Accounted session event (.dropped cause) where
  acknowledged := session.step_record_reply event
  countsCalls := .inr ⟨cause.name, Counter.text_dropped cause⟩
  grows := hgrows
  processed_iff := by
    rw [hsame, Counter.text_dropped]
    simp [eq_comm, Counter.processedSeries_ne_droppedSeries]
  typed := by
    intro type htype
    rw [Counter.text_dropped] at htype
    exact absurd htype.symm (Counter.processedSeries_ne_droppedSeries _ _)
  dropped_iff := by
    intro name
    rw [hfails.iff_eq, Counter.text_dropped, Counter.droppedSeries_inj, eq_comm]
  sink_eq := fun _ _ => hsame

/-- A call that adds the line of the record to the sink, and is counted as processed, is on the
books when an attempt would give that record. -/
theorem Accounted.of_processed {record : LogRecord} {line : String}
    (hgrows : ∀ series, Counter.CountsCalls series →
      (session.step (.record event)).2.station.counts.ofSeries series =
        session.station.counts.ofSeries series +
          if series = (Counter.processed record.endpoint).text then 1 else 0)
    (hlines : (session.step (.record event)).2.station.sink.lines =
      session.station.sink.lines ++ [line])
    (hencoder : session.recorder.encoder record = .line line)
    (hreply : (session.step (.attempt event)).1 = .recorded record) :
    Accounted session event (.processed record.endpoint) where
  acknowledged := session.step_record_reply event
  countsCalls := .inl ⟨record.endpoint.path, Counter.text_processed _⟩
  grows := hgrows
  processed_iff := ⟨fun _ => ⟨line, hlines⟩, fun _ => ⟨_, Counter.text_processed _⟩⟩
  typed := by
    intro type htype
    rw [Counter.text_processed, Counter.processedSeries_inj] at htype
    exact ⟨record, line, hreply, htype, hencoder, hlines⟩
  dropped_iff := by
    intro cause
    rw [Counter.text_processed, hreply]
    exact iff_of_false (Counter.processedSeries_ne_droppedSeries _ _) nofun
  sink_eq := by
    intro cause hcause
    rw [Counter.text_processed] at hcause
    exact absurd hcause (Counter.processedSeries_ne_droppedSeries _ _)

/-- One call is on the books once, in any session whose sink is not the journal. -/
theorem exists_accounted (hsink : session.station.sink ≠ .journal) (event : Option Event) :
    ∃ outcome, Accounted session event outcome := by
  have hends := session.recorder.attempt_ends event session.station
  have hgrows : ∀ series, Counter.CountsCalls series →
      (session.step (.record event)).2.station.counts.ofSeries series =
        session.station.counts.ofSeries series + if series =
          (Recorder.outcomeOf (session.recorder.attempt event session.station).1).text
          then 1 else 0 := by
    intro series hseries
    have hoffer : Counts.ofSeries (((session.recorder.line? event).map fun line =>
        (session.station.sink.offer line).counts).getD []) series = 0 := by
      refine Counts.ofSeries_eq_zero ?_ hseries
      cases session.recorder.line? event with
      | none => rfl
      | some line => exact Sink.countP_offer_counts
    rw [step_record_station, Recorder.record_counts, Recorder.attempt_counts,
      Counts.ofSeries_append, Counts.ofSeries_append, hoffer, Counts.ofSeries_singleton,
      Nat.add_zero]
  have hafter : (session.step (.record event)).2.station.sink =
      (session.recorder.attempt event session.station).2.sink := by
    simp
  have hreply := session.step_attempt_reply event
  refine ⟨Recorder.outcomeOf (session.recorder.attempt event session.station).1, ?_⟩
  generalize session.recorder.attempt event session.station = ended at *
  cases hends with
  | @payload fault _ _ hsame =>
      exact .of_dropped hgrows (hafter.trans hsame) (hreply ▸ .conversion fault)
  | @encoding _ reason _ _ _ hsame =>
      exact .of_dropped hgrows (hafter.trans hsame) (hreply ▸ .serialization reason)
  | @panic _ message _ _ _ hsame =>
      exact .of_dropped hgrows (hafter.trans hsame) (hreply ▸ .panic message)
  | @refused _ _ reason _ _ _ hrefused hnext =>
      have hsame := Sink.offer_sink_of_refused hrefused
      exact .of_dropped hgrows (hafter.trans (hnext.trans hsame))
        (hreply ▸ .sinkUnavailable reason)
  | taken _ hencoder htaken hnext =>
      refine .of_processed hgrows ?_ hencoder hreply
      rw [hafter, hnext]
      exact Sink.offer_lines_of_taken hsink htaken

theorem step_sink_ne_journal (hsink : session.station.sink ≠ .journal) (step : SessionStep) :
    (session.step step).2.station.sink ≠ .journal := by
  have hattempt : ∀ event, (session.recorder.attempt event session.station).2.sink ≠ .journal := by
    intro event
    rw [Recorder.attempt_sink]
    cases session.recorder.line? event with
    | none => exact hsink
    | some line => exact Sink.offer_ne_journal hsink
  cases step with
  | record event => simpa using hattempt event
  | attempt event => simpa using hattempt event
  | drain limit => exact Sink.drain_ne_journal hsink limit
  | dropReceiver => exact Sink.dropReceiver_ne_journal hsink
  | clone | rename | identity => exact hsink

/-- Only a call that records an event adds to the outcomes. -/
theorem step_outcomes (session : Session) (step : SessionStep) :
    (session.step step).2.station.counts.countP Counter.isOutcome =
      session.station.counts.countP Counter.isOutcome + if step.isRecord then 1 else 0 := by
  have hattempt : ∀ event, (session.recorder.attempt event session.station).2.counts.countP
      Counter.isOutcome = session.station.counts.countP Counter.isOutcome := by
    intro event
    rw [Recorder.attempt_counts, List.countP_append]
    cases session.recorder.line? event <;> simp [Sink.countP_offer_counts]
  cases step with
  | record event =>
      simp [hattempt, Recorder.isOutcome_outcomeOf, SessionStep.isRecord]
  | attempt event => simp [hattempt, SessionStep.isRecord]
  | drain | dropReceiver | clone | rename | identity => rfl

theorem run_replies (session : Session) (steps : List SessionStep) :
    (session.run steps).1 = (session.moves steps).map fun move => (move.1.step move.2).1 := by
  induction steps generalizing session with
  | nil => rfl
  | cons step rest ih =>
      rcases hstep : session.step step with ⟨reply, next⟩
      cases reply <;> simp [run, moves, hstep, ih]

theorem run_outcomes (session : Session) (steps : List SessionStep) :
    (session.run steps).2.station.counts.countP Counter.isOutcome =
      session.station.counts.countP Counter.isOutcome +
        (session.moves steps).countP fun move => move.2.isRecord := by
  induction steps generalizing session with
  | nil => simp [run, moves]
  | cons step rest ih =>
      have hnext := session.step_outcomes step
      rcases hstep : session.step step with ⟨reply, next⟩
      rw [hstep] at hnext
      cases reply with
      | panicked message => simpa [run, moves, hstep, List.countP_cons] using hnext
      | acknowledged | recorded | faulted | lines | identity | done =>
          simp only [run, moves, hstep, ih, hnext, List.countP_cons]
          omega

theorem moves_sink_ne_journal (hsink : session.station.sink ≠ .journal) (steps : List SessionStep) :
    ∀ move ∈ session.moves steps, move.1.station.sink ≠ .journal := by
  induction steps generalizing session with
  | nil => simp [moves]
  | cons step rest ih =>
      have hnext := step_sink_ne_journal hsink step
      rcases hstep : session.step step with ⟨reply, next⟩
      rw [hstep] at hnext
      cases reply with
      | panicked message => simpa [moves, hstep] using hsink
      | acknowledged | recorded | faulted | lines | identity | done =>
          simpa [moves, hstep, hsink] using ih hnext

/-- **The books of a run.** Whatever the encoder, the sink and the steps, the processed and the
dropped calls make up all calls of the run that record an event, and each of them is on the books
once. -/
theorem run_accounted (encoder : Encoder) (name : Option String) {sink : Sink}
    (hsink : sink ≠ .journal) (steps : List SessionStep) :
    ((start encoder name sink).run steps).1 =
        ((start encoder name sink).moves steps).map (fun move => (move.1.step move.2).1) ∧
      ((start encoder name sink).run steps).2.station.counts.processedTotal +
          ((start encoder name sink).run steps).2.station.counts.droppedTotal =
        ((start encoder name sink).moves steps).countP (fun move => move.2.isRecord) ∧
      ∀ session event, (session, .record event) ∈ (start encoder name sink).moves steps →
        ∃ outcome, Accounted session event outcome := by
  refine ⟨run_replies _ _, ?_, ?_⟩
  · rw [Counts.processedTotal_add_droppedTotal, run_outcomes]
    simp [start, Station.start]
  · intro session event hmove
    exact exists_accounted (moves_sink_ne_journal hsink steps _ hmove) event

/-- Two calls at a queue with room for one line. The first call puts its line there and is counted
as processed; the second finds no room, and is counted as dropped for it. -/
theorem run_accounted_two_calls :
    let first := start .json none (.queue (Queue.fresh 1))
    let second := (first.step (.record none)).2
    Sink.queue (Queue.fresh 1) ≠ .journal ∧
      (first.run [.record none, .record none]).2.station.counts.processedTotal +
        (first.run [.record none, .record none]).2.station.counts.droppedTotal = 2 ∧
      second.station.sink.lines = ["\x7b\"type\":\"unknown\"\x7d"] ∧
      (∃ outcome, Accounted first none outcome ∧
        outcome.text = "analytics_events_processed_total\x7btype=\"unknown\"\x7d") ∧
      ∃ outcome, Accounted second none outcome ∧
        outcome.text = "analytics_events_dropped_total\x7bcause=\"sink_unavailable\"\x7d" := by
  intro first second
  have hsink : Sink.queue (Queue.fresh 1) ≠ .journal := by decide
  obtain ⟨-, htotals, hcalls⟩ := run_accounted .json none hsink [.record none, .record none]
  obtain ⟨processed, hprocessed⟩ := hcalls first none (List.mem_cons_self ..)
  obtain ⟨dropped, hdropped⟩ :=
    hcalls second none (List.mem_cons_of_mem _ (List.mem_cons_self ..))
  refine ⟨hsink, htotals, rfl, ⟨processed, hprocessed, ?_⟩, dropped, hdropped, ?_⟩
  · obtain ⟨type, htype⟩ := hprocessed.processed_iff.mpr ⟨_, rfl⟩
    obtain ⟨record, _, hreply, hpath, -⟩ := hprocessed.typed type htype
    obtain rfl : LogRecord.mk (.unknown none) none = record := SessionReply.recorded.inj hreply
    rw [htype, ← hpath]
    decide
  · rw [(hdropped.dropped_iff "sink_unavailable").mpr (.sinkUnavailable "queue full")]
    decide

end Session

end AuctionLog
