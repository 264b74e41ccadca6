import AuctionLog.Proofs.Service.Steps

/-!
# How a writer stops

A writer stops when its output fails, and else only once the service has shut down and all that was
queued has been written. Either way it stays stopped.
-/

namespace AuctionLog.Service

open Json

variable {service : Service} {records : List LogRecord} {writer : LineWriter} {queue : Queue}

inductive WriterMove (writer : LineWriter) : ServiceStep → LineWriter → Prop where
  | unmoved {step : ServiceStep} : WriterMove writer step writer
  | stepped (queue : Queue) : WriterMove writer .write (writer.step queue).1
  | redirected (device : Device) :
      WriterMove writer (.output device)
        { writer with device := { device with written := writer.device.written } }

theorem exists_writerMove (hwriter : service.writer = some writer) (step : ServiceStep) :
    ∃ next, (service.step step).writer = some next ∧ WriterMove writer step next := by
  cases step with
  | request request => exact ⟨writer, hwriter, .unmoved⟩
  | write =>
      cases hsink : service.station.sink with
      | queue queue =>
          obtain ⟨-, hnext, -⟩ := advance_eq hwriter hsink LineWriter.step
          exact ⟨_, hnext, .stepped queue⟩
      | memory | closed | journal =>
          refine ⟨writer, ?_, .unmoved⟩
          simp [Service.step, writeStep, advance, hwriter, hsink]
  | output device =>
      refine ⟨_, ?_, .redirected device⟩
      rw [Service.step, withOutput, hwriter, Option.map_some]
  | close => exact ⟨writer, service.close_writer.trans hwriter, .unmoved⟩

/-- A writer that has stopped prints nothing more, and does not start again. -/
theorem Stopped.step (hstopped : service.Stopped) (step : ServiceStep) :
    (service.step step).Stopped ∧ (service.step step).printed = service.printed := by
  obtain ⟨writer, hwriter, hstatus⟩ := hstopped
  obtain ⟨next, hnext, hmove⟩ := exists_writerMove hwriter step
  rw [Service.printed, Service.printed, hnext, hwriter]
  cases hmove with
  | unmoved => exact ⟨⟨writer, hnext, hstatus⟩, rfl⟩
  | stepped queue =>
      rw [LineWriter.step_of_stopped hstatus] at hnext ⊢
      exact ⟨⟨writer, hnext, hstatus⟩, rfl⟩
  | redirected device => exact ⟨⟨_, hnext, hstatus⟩, rfl⟩

theorem Stopped.run (hstopped : service.Stopped) (steps : List ServiceStep) :
    (service.run steps).Stopped ∧ (service.run steps).printed = service.printed := by
  induction steps generalizing service with
  | nil => exact ⟨hstopped, rfl⟩
  | cons step rest ih =>
      obtain ⟨hnext, hprinted⟩ := hstopped.step step
      obtain ⟨hlast, hsame⟩ := ih hnext
      exact ⟨hlast, hsame.trans hprinted⟩

/-- Once the writer has stopped, every line finds the queue closed. -/
theorem Prints.offer_of_stopped (hprints : Prints records service) (hstopped : service.Stopped)
    (line : String) : (service.station.sink.offer line).refusal = some "queue closed" := by
  obtain ⟨writer, queue, hwriter, hsink, hdelivers⟩ := hprints.delivers
  obtain ⟨stopped, hstopped, hstatus⟩ := hstopped
  obtain rfl := Option.some.inj (hwriter.symm.trans hstopped)
  have hgone : queue.receiver ≠ .listening := by
    rw [hdelivers.stopped hstatus]
    decide
  rw [hsink, Sink.offer, Queue.offer_eq_closed_iff.mpr hgone]
  rfl

/-- Whether the writer of a service has not failed, nor has a reason to. -/
def Healthy (service : Service) : Prop :=
  ∃ writer ∈ service.writer, writer.device.NeverFails ∧
    (writer.status = .running ∨ writer.status = .ended none)

theorem Healthy.step (hhealthy : service.Healthy) {step : ServiceStep} (hstep : step.NeverFails) :
    (service.step step).Healthy := by
  obtain ⟨writer, hwriter, hdevice, hstatus⟩ := hhealthy
  obtain ⟨next, hnext, hmove⟩ := exists_writerMove hwriter step
  refine ⟨next, hnext, ?_⟩
  cases hmove with
  | unmoved => exact ⟨hdevice, hstatus⟩
  | redirected device => exact ⟨Device.NeverFails.written hstep _, hstatus⟩
  | stepped queue =>
      refine ⟨LineWriter.step_neverFails hdevice, ?_⟩
      rcases hstatus with hrunning | hended
      · exact LineWriter.step_status hdevice hrunning
      · have hstopped : writer.status ≠ .running := by simp [hended]
        rw [LineWriter.step_of_stopped hstopped]
        exact .inr hended

theorem Healthy.run (hhealthy : service.Healthy) {steps : List ServiceStep}
    (hsteps : ∀ step ∈ steps, step.NeverFails) : (service.run steps).Healthy := by
  induction steps generalizing service with
  | nil => exact hhealthy
  | cons step rest ih =>
      obtain ⟨hstep, hrest⟩ := List.forall_mem_cons.mp hsteps
      exact ih (hhealthy.step hstep) hrest

/-- Whether a service has shut down, with a bound on what its writer has left to do. -/
def Closing (service : Service) (work : Nat) : Prop :=
  ∃ writer queue, service.writer = some writer ∧ service.station.sink = .queue queue ∧
    queue.senders = 0 ∧ (writer.status = .running → writer.work queue ≤ work)

theorem closing_close (hwriter : service.writer = some writer)
    (hsink : service.station.sink = .queue queue) :
    service.close.Closing (writer.work queue) := by
  refine ⟨writer, { queue with senders := 0 }, ?_, ?_, rfl, fun _ => Nat.le_refl _⟩
  · rw [Service.close, hsink]
    exact hwriter
  · rw [Service.close, hsink]

/-- Each step of the writer takes something off what is left to do. -/
theorem Closing.step {work : Nat} (hclosing : service.Closing work) {step : ServiceStep}
    (hstep : step.isRequest = false) :
    (service.step step).Closing (work - if step.isWrite then 1 else 0) := by
  obtain ⟨writer, queue, hwriter, hsink, hsenders, hwork⟩ := hclosing
  cases step with
  | request request => simp [ServiceStep.isRequest] at hstep
  | write =>
      obtain ⟨-, hnext, hqueue, -⟩ := advance_eq hwriter hsink LineWriter.step
      refine ⟨_, _, hnext, hqueue, (LineWriter.step_senders writer queue).trans hsenders, ?_⟩
      intro hrunning
      have hbefore : writer.status = .running := by
        by_contra hstopped
        rw [LineWriter.step_of_stopped hstopped] at hrunning
        exact hstopped hrunning
      have hless := LineWriter.work_step_lt hsenders hrunning
      have hbound := hwork hbefore
      simp only [ServiceStep.isWrite, if_true]
      omega
  | output device =>
      refine ⟨{ writer with device := { device with written := writer.device.written } }, queue, ?_,
        hsink, hsenders, hwork⟩
      rw [Service.step, withOutput, hwriter]
      rfl
  | close =>
      refine ⟨writer, { queue with senders := 0 }, ?_, ?_, rfl, hwork⟩
      · rw [Service.step, Service.close, hsink]
        exact hwriter
      · rw [Service.step, Service.close, hsink]

theorem Closing.run {work : Nat} (hclosing : service.Closing work) {steps : List ServiceStep}
    (hsteps : ∀ step ∈ steps, step.isRequest = false) :
    (service.run steps).Closing (work - steps.countP ServiceStep.isWrite) := by
  induction steps generalizing service work with
  | nil => exact hclosing
  | cons step rest ih =>
      obtain ⟨hstep, hrest⟩ := List.forall_mem_cons.mp hsteps
      have hlast := ih (hclosing.step hstep) hrest
      rw [List.countP_cons, Nat.add_comm, ← Nat.sub_sub]
      exact hlast

theorem Closing.stopped (hclosing : service.Closing 0) : service.Stopped := by
  obtain ⟨writer, queue, hwriter, -, -, hwork⟩ := hclosing
  refine ⟨writer, hwriter, fun hrunning => ?_⟩
  have hpos := writer.work_pos queue
  have hnone := hwork hrunning
  omega

end AuctionLog.Service
