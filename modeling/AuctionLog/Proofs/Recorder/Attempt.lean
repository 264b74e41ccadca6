import AuctionLog.Proofs.Sink.Offer
import AuctionLog.Recorder.Session

/-!
# Where an attempt ends

An event goes through three stages on its way into a sink: its record, the line of the record, and
the offer of the line. An attempt ends at the first stage that stops it, and only the last one
touches the sink. `Recorder.attempt_ends` says all of this at once, and what is proved later of
recorders opens neither `attempt` nor `record`.
-/

namespace AuctionLog.Recorder

/-- The line that a recorder offers to the sink for an event, if the event gets that far. -/
def line? (recorder : Recorder) (event : Option Event) : Option String :=
  match Event.record event with
  | .error _ => none
  | .ok record =>
      match recorder.encoder record with
      | .line line => some line
      | .refused _ | .panicked _ => none

/-- The ways in which an attempt ends, each with the sink and the counters that it leaves. -/
inductive Ends (recorder : Recorder) (event : Option Event) (station : Station) :
    Except Stop LogRecord × Station → Prop where
  | payload {fault : PayloadFault} {next : Station} (hrecord : Event.record event = .error fault)
      (hsink : next.sink = station.sink) (hcounts : next.counts = station.counts) :
      Ends recorder event station (.error (.fault (.payload fault)), next)
  | encoding {record : LogRecord} {reason : String} {next : Station}
      (hrecord : Event.record event = .ok record)
      (hencoder : recorder.encoder record = .refused reason)
      (hsink : next.sink = station.sink) (hcounts : next.counts = station.counts) :
      Ends recorder event station (.error (.fault (.encoding reason)), next)
  | panic {record : LogRecord} {message : String} {next : Station}
      (hrecord : Event.record event = .ok record)
      (hencoder : recorder.encoder record = .panicked message)
      (hsink : next.sink = station.sink) (hcounts : next.counts = station.counts) :
      Ends recorder event station (.error (.panic message), next)
  | refused {record : LogRecord} {line reason : String} {next : Station}
      (hrecord : Event.record event = .ok record) (hencoder : recorder.encoder record = .line line)
      (hrefused : (station.sink.offer line).refusal = some reason)
      (hsink : next.sink = (station.sink.offer line).sink)
      (hcounts : next.counts = station.counts ++ (station.sink.offer line).counts) :
      Ends recorder event station (.error (.fault (.sink reason)), next)
  | taken {record : LogRecord} {line : String} {next : Station}
      (hrecord : Event.record event = .ok record) (hencoder : recorder.encoder record = .line line)
      (htaken : (station.sink.offer line).refusal = none)
      (hsink : next.sink = (station.sink.offer line).sink)
      (hcounts : next.counts = station.counts ++ (station.sink.offer line).counts) :
      Ends recorder event station (.ok record, next)

variable (recorder : Recorder) (event : Option Event) (station : Station)

theorem attempt_ends : Ends recorder event station (recorder.attempt event station) := by
  unfold attempt
  set noted := station.noteAll ((attemptEntries event).map (·.within attemptSpan)) with hnoted
  have hsink : noted.sink = station.sink := by simp [hnoted]
  have hcounts : noted.counts = station.counts := by simp [hnoted]
  cases hrecord : Event.record event with
  | error fault => exact .payload hrecord hsink hcounts
  | ok record =>
      cases hencoder : recorder.encoder record with
      | refused reason => simpa [hencoder] using .encoding hrecord hencoder hsink hcounts
      | panicked message => simpa [hencoder] using .panic hrecord hencoder hsink hcounts
      | line line =>
          have hnextSink :
              (noted.offer attemptSpan line).2.sink = (station.sink.offer line).sink := by
            simp [hsink]
          have hnextCounts : (noted.offer attemptSpan line).2.counts =
              station.counts ++ (station.sink.offer line).counts := by
            simp [hsink, hcounts]
          have hrefusal : (noted.offer attemptSpan line).1 = (station.sink.offer line).refusal := by
            simp [hsink]
          simp only [hencoder]
          generalize noted.offer attemptSpan line = offered at *
          obtain ⟨refusal, next⟩ := offered
          cases refusal with
          | none => exact .taken hrecord hencoder hrefusal.symm hnextSink hnextCounts
          | some reason => exact .refused hrecord hencoder hrefusal.symm hnextSink hnextCounts

/-- An attempt does to the sink what the offer of its line does, if it has one. -/
theorem attempt_sink :
    (recorder.attempt event station).2.sink =
      ((recorder.line? event).map fun line => (station.sink.offer line).sink).getD
        station.sink := by
  have hends := recorder.attempt_ends event station
  generalize recorder.attempt event station = ended at *
  cases hends with
  | payload hrecord hsink => simp [line?, hrecord, hsink]
  | encoding hrecord hencoder hsink => simp [line?, hrecord, hencoder, hsink]
  | panic hrecord hencoder hsink => simp [line?, hrecord, hencoder, hsink]
  | refused hrecord hencoder _ hsink => simp [line?, hrecord, hencoder, hsink]
  | taken hrecord hencoder _ hsink => simp [line?, hrecord, hencoder, hsink]

theorem attempt_counts :
    (recorder.attempt event station).2.counts =
      station.counts ++
        ((recorder.line? event).map fun line => (station.sink.offer line).counts).getD [] := by
  have hends := recorder.attempt_ends event station
  generalize recorder.attempt event station = ended at *
  cases hends with
  | payload hrecord _ hcounts => simp [line?, hrecord, hcounts]
  | encoding hrecord hencoder _ hcounts => simp [line?, hrecord, hencoder, hcounts]
  | panic hrecord hencoder _ hcounts => simp [line?, hrecord, hencoder, hcounts]
  | refused hrecord hencoder _ _ hcounts => simp [line?, hrecord, hencoder, hcounts]
  | taken hrecord hencoder _ _ hcounts => simp [line?, hrecord, hencoder, hcounts]

/-- What recording an event counts it as, by the end of the attempt. -/
def outcomeOf : Except Stop LogRecord → Counter
  | .ok record => .processed record.endpoint
  | .error stop => .dropped stop.cause

@[simp]
theorem record_acknowledgment : (recorder.record event station).1 = .ok := by
  unfold record
  rcases recorder.attempt event station with ⟨_ | _, _⟩ <;> rfl

@[simp]
theorem record_sink :
    (recorder.record event station).2.sink = (recorder.attempt event station).2.sink := by
  unfold record
  rcases recorder.attempt event station with ⟨_ | _, _⟩ <;> rfl

@[simp]
theorem record_counts :
    (recorder.record event station).2.counts =
      (recorder.attempt event station).2.counts ++
        [outcomeOf (recorder.attempt event station).1] := by
  unfold record
  rcases recorder.attempt event station with ⟨_ | _, _⟩ <;> rfl

end AuctionLog.Recorder

namespace AuctionLog.Session

def replyTo : Except Stop LogRecord → SessionReply
  | .ok record => .recorded record
  | .error (.fault fault) => .faulted fault
  | .error (.panic message) => .panicked message

variable (session : Session) (event : Option Event)

@[simp]
theorem step_record_reply :
    (session.step (.record event)).1 = .acknowledged .ok := by
  simp [step]

@[simp]
theorem step_record_station :
    (session.step (.record event)).2.station =
      (session.recorder.record event session.station).2 := rfl

@[simp]
theorem step_attempt_reply :
    (session.step (.attempt event)).1 =
      replyTo (session.recorder.attempt event session.station).1 := by
  simp only [step]
  rcases session.recorder.attempt event session.station with ⟨(_ | _) | _, _⟩ <;> rfl

@[simp]
theorem step_attempt_station :
    (session.step (.attempt event)).2.station =
      (session.recorder.attempt event session.station).2 := by
  simp only [step]
  rcases session.recorder.attempt event session.station with ⟨(_ | _) | _, _⟩ <;> rfl

end AuctionLog.Session
