import AuctionLog.Proofs.Http.Site
import AuctionLog.Proofs.Json.Plain
import AuctionLog.Proofs.Sink.LineWriter
import AuctionLog.Proofs.Text.Lines
import AuctionLog.Service

/-!
# A service at work

Requests put lines into a queue, and a writer takes them out and writes them to an output, whenever
it comes to it. Whatever the order, what has been printed, what the writer holds and what is queued
are together the lines of the records that were accepted.
-/

namespace AuctionLog

/-- What can happen to a service, in any order: a request comes in, the writer takes a step, the
output goes on as another device with the same bytes on it, or the service shuts down. -/
inductive ServiceStep where
  | request (request : Http.Request)
  | write
  | output (device : Device)
  | close

namespace ServiceStep

def isRequest : ServiceStep → Bool
  | .request _ => true
  | _ => false

def isWrite : ServiceStep → Bool
  | .write => true
  | _ => false

/-- Whether the output is none that fails, as far as the step tells. -/
def NeverFails : ServiceStep → Prop
  | .output device => device.NeverFails
  | _ => True

end ServiceStep

namespace Service

def withOutput (service : Service) (device : Device) : Service :=
  { service with
    writer := service.writer.map fun writer =>
      { writer with device := { device with written := writer.device.written } } }

def step (service : Service) : ServiceStep → Service
  | .request request => (service.handle request).2
  | .write => service.writeStep
  | .output device => service.withOutput device
  | .close => service.close

def run (service : Service) (steps : List ServiceStep) : Service :=
  steps.foldl step service

/-- The record that is accepted at a step, if it is a request and the sink takes its line. -/
def accepted? (service : Service) : ServiceStep → Option LogRecord
  | .request request => request.accepted? service.station.sink
  | _ => none

/-- The records that are accepted over a run, in order. -/
def accepted (service : Service) : List ServiceStep → List LogRecord
  | [] => []
  | step :: rest => (service.accepted? step).toList ++ (service.step step).accepted rest

/-- Whether the writer has stopped, so that nothing more is printed. -/
def Stopped (service : Service) : Prop :=
  ∃ writer ∈ service.writer, writer.status ≠ .running

/-- What records are printed as: their lines in order, each with a line feed. -/
def linesOf (records : List LogRecord) : List UInt8 :=
  records.flatMap fun record => LineWriter.lineBytes record.line

/-! ## What each step preserves -/

/-- What is true of a service that prints, given the records that were accepted so far. -/
structure Prints (records : List LogRecord) (service : Service) : Prop where
  recorder : ∃ name, service.site.recorder = some ⟨name, Encoder.json⟩
  delivers : ∃ writer queue, service.writer = some writer ∧ service.station.sink = .queue queue ∧
    LineWriter.Delivers (records.map (·.line)) writer queue
  counted : service.station.counts.processed = records.map (·.endpoint)

variable {service : Service} {records : List LogRecord} {writer : LineWriter} {queue : Queue}

theorem advance_eq (hwriter : service.writer = some writer)
    (hsink : service.station.sink = .queue queue) (use : LineWriter → Queue → LineWriter × Queue) :
    (service.advance use).site = service.site ∧
      (service.advance use).writer = some (use writer queue).1 ∧
      (service.advance use).station.sink = .queue (use writer queue).2 ∧
      (service.advance use).station.counts = service.station.counts := by
  simp only [advance, hwriter, hsink, true_and]
  split_ifs
  · exact ⟨rfl, rfl⟩
  · exact ⟨rfl, rfl⟩

theorem close_writer (service : Service) : service.close.writer = service.writer := by
  unfold close
  split
  · rfl
  · rfl

theorem Prints.request (hprints : Prints records service) (request : Http.Request) :
    Prints (records ++ (request.accepted? service.station.sink).toList)
      (service.handle request).2 := by
  obtain ⟨name, hrecorder⟩ := hprints.recorder
  obtain ⟨writer, queue, hwriter, hsink, hdelivers⟩ := hprints.delivers
  obtain ⟨hnext, hcounts⟩ :=
    @Http.Site.handle_recording service.site request service.station name hrecorder
  refine ⟨⟨name, hrecorder⟩, ?_, ?_⟩
  · rw [Http.Request.accepted?, hsink]
    rw [hsink] at hnext
    cases hrecord : request.record? with
    | none =>
        rw [hrecord] at hnext
        refine ⟨writer, queue, hwriter, hnext, ?_⟩
        simpa using hdelivers
    | some record =>
        rw [hrecord, Option.map_some, Option.getD_some] at hnext
        rw [Option.filter_some]
        cases hoffer : queue.offer record.line with
        | ok next =>
            refine ⟨writer, next, hwriter, ?_, ?_⟩
            · exact hnext.trans (by simp [Sink.offer, hoffer])
            · simpa [Sink.offer, hoffer] using hdelivers.offered hoffer
        | error refusal =>
            refine ⟨writer, queue, hwriter, ?_, ?_⟩
            · refine hnext.trans ?_
              cases refusal <;> simp [Sink.offer, hoffer]
            · cases refusal <;> simpa [Sink.offer, hoffer] using hdelivers
  · refine hcounts.trans ?_
    rw [hprints.counted, List.map_append]
    cases request.accepted? service.station.sink <;> rfl

theorem Prints.write (hprints : Prints records service) : Prints records service.writeStep := by
  obtain ⟨writer, queue, hwriter, hsink, hdelivers⟩ := hprints.delivers
  obtain ⟨hsite, hnext, hqueue, hcounts⟩ := advance_eq hwriter hsink LineWriter.step
  refine ⟨?_, ⟨_, _, hnext, hqueue, hdelivers.step⟩, ?_⟩
  · rw [writeStep, hsite]
    exact hprints.recorder
  · rw [writeStep, hcounts]
    exact hprints.counted

theorem Prints.output (hprints : Prints records service) (device : Device) :
    Prints records (service.withOutput device) := by
  obtain ⟨writer, queue, hwriter, hsink, hdelivers⟩ := hprints.delivers
  let next : LineWriter :=
    { writer with device := { device with written := writer.device.written } }
  have hnext : LineWriter.Delivers (records.map (·.line)) next queue := hdelivers.withDevice rfl
  refine ⟨hprints.recorder, ⟨next, queue, ?_, hsink, hnext⟩, hprints.counted⟩
  rw [withOutput, hwriter]
  rfl

theorem Prints.close (hprints : Prints records service) : Prints records service.close := by
  obtain ⟨writer, queue, hwriter, hsink, hdelivers⟩ := hprints.delivers
  have hclose : service.close = { service with
      station := { service.station with sink := .queue { queue with senders := 0 } } } := by
    rw [Service.close, hsink]
  rw [hclose]
  exact ⟨hprints.recorder, ⟨writer, _, hwriter, rfl, hdelivers.withSenders 0⟩, hprints.counted⟩

theorem Prints.step (hprints : Prints records service) (step : ServiceStep) :
    Prints (records ++ (service.accepted? step).toList) (service.step step) := by
  cases step with
  | request request => exact hprints.request request
  | write => simpa [accepted?, Service.step] using hprints.write
  | output device => simpa [accepted?, Service.step] using hprints.output device
  | close => simpa [accepted?, Service.step] using hprints.close

theorem Prints.run (hprints : Prints records service) (steps : List ServiceStep) :
    Prints (records ++ service.accepted steps) (service.run steps) := by
  induction steps generalizing service records with
  | nil => simpa [accepted, Service.run] using hprints
  | cons step rest ih =>
      rw [accepted, ← List.append_assoc]
      exact ih (hprints.step step)

theorem run_append (service : Service) (steps more : List ServiceStep) :
    service.run (steps ++ more) = (service.run steps).run more :=
  List.foldl_append

theorem accepted_append (service : Service) (steps more : List ServiceStep) :
    service.accepted (steps ++ more) =
      service.accepted steps ++ (service.run steps).accepted more := by
  induction steps generalizing service with
  | nil => rfl
  | cons step rest ih => rw [List.cons_append, accepted, accepted, ih, List.append_assoc]; rfl

theorem accepted_eq_nil {steps : List ServiceStep} (hsteps : ∀ step ∈ steps, step.isRequest = false)
    (service : Service) : service.accepted steps = [] := by
  induction steps generalizing service with
  | nil => rfl
  | cons step rest ih =>
      obtain ⟨hstep, hrest⟩ := List.forall_mem_cons.mp hsteps
      have hnone : service.accepted? step = none := by
        cases step with
        | request request => simp [ServiceStep.isRequest] at hstep
        | write | output | close => rfl
      rw [accepted, hnone, ih hrest]
      rfl

/-! ## What is printed -/

theorem linesOf_eq (records : List LogRecord) :
    linesOf records = LineWriter.bytesOf (records.map (·.line)) := by
  rw [LineWriter.bytesOf, List.flatMap_map]
  rfl

theorem Prints.printed (hprints : Prints records service) :
    service.printed <+: linesOf records := by
  obtain ⟨writer, queue, hwriter, -, hdelivers⟩ := hprints.delivers
  rw [Service.printed, hwriter, linesOf_eq]
  exact hdelivers.written

/-- Printed lines can be told apart, since no line of a record holds a line feed. -/
theorem cut_linesOf (records : List LogRecord) :
    Lines.cut (linesOf records) = records.map fun record => LineWriter.lineBytes record.line :=
  Lines.cut_flatMap fun record _ => Json.lineFeed_notMem_compact record.toJson

end Service

end AuctionLog
